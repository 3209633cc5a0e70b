import JsonPath.Evaluation
import JsonPath.Proofs.Parser.Grammar

/-!
# Types at compile time and at run time

What the parameter types promise of the operands that functions are called with, what functions
promise in return, and what the static rules leave in a query: operands of comparisons that can be
compared, and arguments that fit. A function keeps its declaration if it does so after any calls
with arguments of the declared types, so a cache that fills cannot break it.
-/

namespace JsonPath

mutual

/-- Whether the value is one of a document: no node list, no octets, not nothing, and with members
of different names only. -/
def Value.isJson : Value → Bool
  | .null => true
  | .boolean _ => true
  | .number _ => true
  | .string _ => true
  | .array items => areJson items
  | .sequence .tuple items => areJson items
  | .sequence .nodeList _ => false
  | .object members => decide (members.map Prod.fst).Nodup && membersAreJson members
  | .octets _ => false
  | .nothing => false

def areJson : List Value → Bool
  | [] => true
  | item :: rest => item.isJson && areJson rest

def membersAreJson : List (Text × Value) → Bool
  | [] => true
  | (_, value) :: rest => value.isJson && membersAreJson rest

end

theorem areJson_iff {items : List Value} :
    areJson items = true ↔ ∀ item ∈ items, item.isJson = true := by
  induction items with
  | nil => simp [areJson]
  | cons item rest ih => simp [areJson, ih]

theorem membersAreJson_iff {members : List (Text × Value)} :
    membersAreJson members = true ↔ ∀ member ∈ members, member.2.isJson = true := by
  induction members with
  | nil => simp [membersAreJson]
  | cons member rest ih => simp [membersAreJson, ih]

/-- Whether the operand is what a parameter or a result of the type has to be. -/
def Operand.hasType : ExprType → Operand → Bool
  | .value, .value v => v.isJson || (v matches .nothing)
  | .logical, .value (.boolean _) => true
  | .nodes, .nodes ns => ns.all (·.value.isJson)
  | _, _ => false

/-- Whether operands are what the parameters ask for, one for each. -/
def operandsHaveTypes : List ExprType → List Operand → Bool
  | [], [] => true
  | type :: types, operand :: operands => operand.hasType type && operandsHaveTypes types operands
  | _, _ => false

/-- A result as described, or a tolerated fault. -/
def Meets {α : Type} (tolerated : Fault → Prop) (post : α → Prop) : Except Fault α → Prop
  | .ok a => post a
  | .error fault => tolerated fault

theorem Meets.mono {α : Type} {tolerated : Fault → Prop} {post post' : α → Prop}
    (hpost : ∀ a, post a → post' a) {result : Except Fault α} (h : Meets tolerated post result) :
    Meets tolerated post' result := by
  cases result with
  | ok a => exact hpost a h
  | error fault => exact h

namespace Extension

/-- The function after calls, one after the other. -/
def afterCalls (calls : List (List Operand)) (extension : Extension) : Extension :=
  calls.foldl (fun extension arguments => (extension.call arguments).after) extension

/-- Called with operands of the declared types, now or after such calls, the function comes to a
result of the declared type, or to a tolerated fault. -/
def KeepsDeclaration (tolerated : Fault → Prop) (extension : Extension) : Prop :=
  ∀ calls : List (List Operand),
    (∀ given ∈ calls, operandsHaveTypes extension.signature.parameters given = true) →
    ∀ given, operandsHaveTypes extension.signature.parameters given = true →
      Meets tolerated (·.hasType extension.signature.result = true)
        ((extension.afterCalls calls).call given).result

variable {tolerated : Fault → Prop} {extension : Extension} {given : List Operand}

@[simp]
theorem signature_after_call : (extension.call given).after.signature = extension.signature := by
  unfold call
  split <;> rfl

theorem KeepsDeclaration.result (h : extension.KeepsDeclaration tolerated)
    (hgiven : operandsHaveTypes extension.signature.parameters given = true) :
    Meets tolerated (·.hasType extension.signature.result = true) (extension.call given).result :=
  h [] (by simp) given hgiven

theorem KeepsDeclaration.after (h : extension.KeepsDeclaration tolerated)
    (hgiven : operandsHaveTypes extension.signature.parameters given = true) :
    (extension.call given).after.KeepsDeclaration tolerated := by
  intro calls hcalls
  rw [signature_after_call] at hcalls ⊢
  exact h (given :: calls) (List.forall_mem_cons.2 ⟨hgiven, hcalls⟩)

end Extension

/-! ### What the static rules leave in a query -/

/-- The expression can be an operand of a comparison. -/
def Expr.IsComparable (signatures : Signatures) (e : Expr) : Prop :=
  e.IsLiteral ∨ e.isSingularQuery = true ∨ e.resultType? signatures = some .value

mutual

/-- Comparisons have operands that can be compared, and calls have declared arguments. -/
def Expr.WellTyped (signatures : Signatures) : Expr → Prop
  | .literal _ _ => True
  | .negation _ operand => operand.WellTyped signatures
  | .conjunction _ left right => left.WellTyped signatures ∧ right.WellTyped signatures
  | .disjunction _ left right => left.WellTyped signatures ∧ right.WellTyped signatures
  | .comparison _ left _ right =>
    left.WellTyped signatures ∧ right.WellTyped signatures ∧
      left.IsComparable signatures ∧ right.IsComparable signatures
  | .relative _ segments => segmentsWellTyped signatures segments
  | .absolute _ segments => segmentsWellTyped signatures segments
  | .call _ name arguments =>
    argumentsWellTyped signatures arguments ∧ Grammar.Declared signatures name arguments

def argumentsWellTyped (signatures : Signatures) : List Expr → Prop
  | [] => True
  | argument :: rest => argument.WellTyped signatures ∧ argumentsWellTyped signatures rest

def Selector.WellTyped (signatures : Signatures) : Selector → Prop
  | .filter _ expression => expression.WellTyped signatures
  | _ => True

def selectorsWellTyped (signatures : Signatures) : List Selector → Prop
  | [] => True
  | selector :: rest => selector.WellTyped signatures ∧ selectorsWellTyped signatures rest

def Segment.WellTyped (signatures : Signatures) : Segment → Prop
  | .child _ selectors => selectorsWellTyped signatures selectors
  | .descendant _ selectors => selectorsWellTyped signatures selectors

def segmentsWellTyped (signatures : Signatures) : List Segment → Prop
  | [] => True
  | segment :: rest => segment.WellTyped signatures ∧ segmentsWellTyped signatures rest

end

/-- Whatever tree is derived, the static rules hold in it. -/
def Grammar.Nonterminal.WellTyped (signatures : Signatures) : (n : Nonterminal) → n.Tree → Prop
  | .query, segs | .segments, segs => segmentsWellTyped signatures segs
  | .segment, seg => seg.WellTyped signatures
  | .shorthand, sels | .bracketed, sels | .selectors, sels => selectorsWellTyped signatures sels
  | .selector, sel => sel.WellTyped signatures
  | .arguments, given => argumentsWellTyped signatures given
  | .comparable, e => e.WellTyped signatures ∧ e.IsComparable signatures
  | .disjunction, e | .conjunction, e | .basic, e | .unary, e | .literal, e | .path, e | .call, e
  | .argument, e => e.WellTyped signatures

theorem Grammar.Derives.wellTyped {dialect : Dialect} {n : Nonterminal} {ts : List Token}
    {tree : n.Tree} (h : Derives dialect n ts tree) :
    Nonterminal.WellTyped dialect.signatures n tree := by
  induction h with
  | noSegments => trivial
  | moreSegments _ _ ih ihMore => exact ⟨ih, ihMore⟩
  | member | anyMember => exact ⟨trivial, trivial⟩
  | lastSelector _ ih => exact ⟨ih, trivial⟩
  | moreSelectors _ _ _ ih ihMore => exact ⟨ih, ihMore⟩
  | name | wildcard | index | slice | literal => trivial
  | disjunction _ _ _ _ _ ih ihRight | conjunction _ _ _ _ _ ih ihRight => exact ⟨ih, ihRight⟩
  | comparison _ _ _ ih ihRight => exact ⟨ih.1, ihRight.1, ih.2, ihRight.2⟩
  | comparableLiteral h ih =>
    cases h
    exact ⟨ih, .inl ⟨_, _, rfl⟩⟩
  | comparablePath _ hsingular ih => exact ⟨ih, .inr (.inl hsingular)⟩
  | comparableCall _ hvalue ih => exact ⟨ih, .inr (.inr hvalue)⟩
  | emptyCall _ _ _ hdeclared => exact ⟨trivial, hdeclared⟩
  | call _ _ _ _ hdeclared ih => exact ⟨ih, hdeclared⟩
  | lastArgument _ ih => exact ⟨ih, trivial⟩
  | moreArguments _ _ _ ih ihMore => exact ⟨ih, ihMore⟩
  | query _ _ ih | child _ _ ih | descendant _ _ ih | childBracketed _ ih
  | descendantBracketed _ _ ih | bracketed _ _ _ ih | filter _ _ _ ih | oneConjunction _ ih
  | oneBasic _ ih | oneUnary _ ih | negation _ _ _ ih | group _ _ _ _ ih | unaryPath _ ih
  | unaryCall _ ih | absolute _ _ ih | relative _ _ ih | literalArgument _ ih
  | logicalArgument _ ih => exact ih

end JsonPath
