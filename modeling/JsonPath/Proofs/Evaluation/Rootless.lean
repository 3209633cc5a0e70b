import JsonPath.Proofs.Evaluation.Shuffled
import JsonPath.Proofs.Evaluation.TypeSoundness

/-!
# Queries that never start from the root

A search has the root in every node, and gives it to all queries in its filters; but none except an
absolute one starts from it. Where there are none, two searches with different roots go the same
way: the nodes that they come by have the same values and locations, and so has whatever is tested,
compared or given to a function. A function may return nodes of its arguments, and these still
have their roots. That no comparison shows them is due to the static rules, by which it takes no
result but one that is declared a value.
-/

namespace JsonPath

/-! ### Absolute queries -/

mutual

/-- Whether no absolute query occurs in the expression, at any depth. -/
def Expr.isRootless : Expr → Bool
  | .literal _ _ => true
  | .negation _ operand => operand.isRootless
  | .conjunction _ left right => left.isRootless && right.isRootless
  | .disjunction _ left right => left.isRootless && right.isRootless
  | .comparison _ left _ right => left.isRootless && right.isRootless
  | .relative _ segments => segmentsAreRootless segments
  | .absolute _ _ => false
  | .call _ _ arguments => argumentsAreRootless arguments

def argumentsAreRootless : List Expr → Bool
  | [] => true
  | argument :: rest => argument.isRootless && argumentsAreRootless rest

def Selector.isRootless : Selector → Bool
  | .filter _ expression => expression.isRootless
  | _ => true

def selectorsAreRootless : List Selector → Bool
  | [] => true
  | selector :: rest => selector.isRootless && selectorsAreRootless rest

def Segment.isRootless : Segment → Bool
  | .child _ selectors => selectorsAreRootless selectors
  | .descendant _ selectors => selectorsAreRootless selectors

/-- Whether no absolute query occurs in the filters of the segments, at any depth. -/
def segmentsAreRootless : List Segment → Bool
  | [] => true
  | segment :: rest => segment.isRootless && segmentsAreRootless rest

end

/-! ### Nodes with different roots -/

/-- The nodes have the same value at the same location, whatever their roots. -/
structure Node.Coincide (a b : Node) : Prop where
  value : a.value = b.value
  location : a.location = b.location

namespace Node.Coincide

variable {a b : Node}

theorem child (h : a.Coincide b) (step : Step) (value : Value) :
    (a.child step value).Coincide (b.child step value) :=
  ⟨rfl, congrArg (· ++ [step]) h.location⟩

theorem start (current : Value) (root? root?' : Option Value) :
    (Node.start current root?).Coincide (Node.start current root?') := ⟨rfl, rfl⟩

/-- The children at the same steps coincide. -/
theorem map_child (h : a.Coincide b) {κ : Type} (step : κ → Step) (value : κ → Value)
    (entries : List κ) :
    List.Forall₂ Coincide (entries.map fun entry => a.child (step entry) (value entry))
      (entries.map fun entry => b.child (step entry) (value entry)) := by
  rw [List.forall₂_map_left_iff, List.forall₂_map_right_iff, List.forall₂_same]
  exact fun entry _ => h.child _ _

theorem children (h : a.Coincide b) : List.Forall₂ Coincide a.children b.children := by
  unfold Node.children
  rw [h.value]
  exact h.map_child Prod.fst Prod.snd _

theorem named (h : a.Coincide b) (name : Text) :
    List.Forall₂ Coincide (a.named name) (b.named name) := by
  unfold Node.named
  rw [h.value]
  split
  · split
    · exact .cons (h.child _ _) .nil
    · exact .nil
  · exact .nil

theorem indexed (h : a.Coincide b) (index : Int) :
    List.Forall₂ Coincide (a.indexed index) (b.indexed index) := by
  unfold Node.indexed
  rw [h.value]
  split
  · exact h.map_child (fun entry => .index entry.1) Prod.snd _
  · exact .nil

theorem sliced (h : a.Coincide b) (start? stop? step? : Option Int) :
    List.Forall₂ Coincide (a.sliced start? stop? step?) (b.sliced start? stop? step?) := by
  unfold Node.sliced
  rw [h.value]
  split
  next items _ =>
    induction Slice.indices items.length start? stop? step? with
    | nil => exact .nil
    | cons index rest ih =>
      rw [List.filterMap_cons, List.filterMap_cons]
      cases items[index.toNat]? with
      | none => exact ih
      | some value => exact .cons (h.child _ value) ih
  · exact .nil

theorem descendants (h : a.Coincide b) : List.Forall₂ Coincide a.descendants b.descendants := by
  unfold Node.descendants
  rw [h.value, h.location, List.forall₂_map_left_iff, List.forall₂_map_right_iff,
    List.forall₂_same]
  exact fun entry _ => ⟨rfl, rfl⟩

end Node.Coincide

section

variable {α β γ δ : Type} {R : α → β → Prop} {S : γ → δ → Prop} {as : List α} {bs : List β}

/-- What follows from related items is related, item by item, or one of them fails on both sides. -/
theorem gather_related {f : α → Option (List γ)} {g : β → Option (List δ)}
    (hfg : ∀ a b, R a b → Option.Rel (List.Forall₂ S) (f a) (g b)) (h : List.Forall₂ R as bs) :
    Option.Rel (List.Forall₂ S) (gather f as) (gather g bs) := by
  induction h with
  | nil => exact .some .nil
  | cons hab _ ih =>
    refine Option.Rel.bind (hfg _ _ hab) fun _ _ hfirst => ?_
    exact Option.Rel.bind ih fun _ _ hmore => .some (List.rel_append hfirst hmore)

theorem keep_related {test : α → Option Bool} {test' : β → Option Bool}
    (htest : ∀ a b, R a b → test a = test' b) (h : List.Forall₂ R as bs) :
    Option.Rel (List.Forall₂ R) (keep test as) (keep test' bs) := by
  rw [keep_eq_gather, keep_eq_gather]
  refine gather_related (fun a b hab => ?_) h
  rw [htest a b hab]
  cases test' b with
  | none => exact .none
  | some kept =>
    cases kept with
    | false => exact .some .nil
    | true => exact .some (.cons hab .nil)

end

/-! ### Operands -/

/-- The operands are the same, but for the roots of nodes. -/
inductive Operand.Coincide : Operand → Operand → Prop
  | value {v : Value} : Operand.Coincide (.value v) (.value v)
  | nodes {ns ms : List Node} : List.Forall₂ Node.Coincide ns ms →
      Operand.Coincide (.nodes ns) (.nodes ms)
  | listed {ns ms : List Node} : List.Forall₂ Node.Coincide ns ms →
      Operand.Coincide (.listed ns) (.listed ms)

namespace Operand.Coincide

variable {a b : Operand}

theorem nodes_refl (ns : List Node) : List.Forall₂ Node.Coincide ns ns :=
  List.forall₂_same.2 fun _ _ => ⟨rfl, rfl⟩

theorem refl (a : Operand) : a.Coincide a := by
  cases a with
  | value v => exact .value
  | nodes ns => exact .nodes (nodes_refl ns)
  | listed ns => exact .listed (nodes_refl ns)

theorem isEmpty_eq {ns ms : List Node} (h : List.Forall₂ Node.Coincide ns ms) :
    ns.isEmpty = ms.isEmpty := by cases h <;> rfl

theorem holds_eq (h : a.Coincide b) (e : Expr) : a.holds e = b.holds e := by
  cases h with
  | value => rfl
  | nodes hnodes => exact congrArg not (isEmpty_eq hnodes)
  | listed hnodes =>
    cases e with
    | call _ _ _ => exact congrArg not (isEmpty_eq hnodes)
    | _ => rfl

/-- A query stands for the value of its only node, in which there is no root. -/
theorem single_eq {ns ms : List Node} (h : List.Forall₂ Node.Coincide ns ms) {e : Expr}
    (hquery : e.isQuery = true) : (Operand.nodes ns).single e = (Operand.nodes ms).single e := by
  unfold single
  rw [hquery]
  obtain _ | ⟨hab, _ | _⟩ := h
  · rfl
  · exact congrArg Operand.value hab.value
  · rfl

end Operand.Coincide

/-- Arguments that are the same, but for the roots of nodes where nodes are asked for. -/
inductive ArgumentsCoincide : List ExprType → List Operand → List Operand → Prop
  | nil : ArgumentsCoincide [] [] []
  | same {type : ExprType} {types : List ExprType} {a : Operand} {as bs : List Operand} :
      ArgumentsCoincide types as bs → ArgumentsCoincide (type :: types) (a :: as) (a :: bs)
  | nodes {types : List ExprType} {a b : Operand} {as bs : List Operand} : a.Coincide b →
      ArgumentsCoincide types as bs → ArgumentsCoincide (.nodes :: types) (a :: as) (b :: bs)

/-- Results that are the same, but for the roots of nodes, which a value cannot have in it. -/
structure ResultsCoincide (type : ExprType) (a b : Operand) : Prop where
  coincide : a.Coincide b
  eq : type = .value → a = b

/-- The rule depends on values, and on the values and locations of nodes. -/
def Rule.IgnoresRoots (rule : Rule) : Prop :=
  ∀ given given' : List Operand, ArgumentsCoincide rule.signature.parameters given given' →
    Option.Rel (ResultsCoincide rule.signature.result) (rule.apply given).toOption
      (rule.apply given').toOption

namespace Rules

def IgnoreRoots (rules : Rules) : Prop :=
  ∀ (name : Text) (rule : Rule), rules name = some rule → rule.IgnoresRoots

/-- The declarations of the rules. -/
def signatures (rules : Rules) : Signatures := fun name => (rules name).map (·.signature)

end Rules

/-- What an expression evaluates to under two roots: the same but for the roots of nodes, which do
not show where it can be compared. -/
structure Expr.Agrees (signatures : Signatures) (e : Expr) (a b : Operand) : Prop where
  coincide : a.Coincide b
  single_eq : e.IsComparable signatures → a.single e = b.single e

namespace Expr.Agrees

variable {signatures : Signatures} {e : Expr} {a b : Operand}

theorem value (v : Value) : e.Agrees signatures (.value v) (.value v) := ⟨.value, fun _ => rfl⟩

theorem nodes (hquery : e.isQuery = true) {ns ms : List Node}
    (h : List.Forall₂ Node.Coincide ns ms) : e.Agrees signatures (.nodes ns) (.nodes ms) :=
  ⟨.nodes h, fun _ => Operand.Coincide.single_eq h hquery⟩

theorem call {token : Token} {name : Text} {given : List Expr} {signature : Signature}
    (hname : signatures name = some signature) (h : ResultsCoincide signature.result a b) :
    (Expr.call token name given).Agrees signatures a b := by
  refine ⟨h.coincide, ?_⟩
  rintro (⟨_, _, hliteral⟩ | hsingular | hvalue)
  · cases hliteral
  · cases hsingular
  · change (signatures name).map _ = some ExprType.value at hvalue
    rw [hname] at hvalue
    rw [h.eq (Option.some.inj hvalue)]

/-- As arguments for a parameter that they fit they are the same but for the roots of nodes, and
just the same if no nodes are asked for. -/
theorem arguments (h : e.Agrees signatures a b) {type : ExprType} {types : List ExprType}
    {as bs : List Operand} (hfits : e.fits signatures type = true)
    (hmore : ArgumentsCoincide types as bs) :
    ArgumentsCoincide (type :: types) (a.argument e type :: as) (b.argument e type :: bs) := by
  cases type with
  | value =>
    rw [Operand.argument, Operand.argument, h.single_eq (Yields.comparable_of_fits hfits)]
    exact .same hmore
  | logical =>
    rw [Operand.argument, Operand.argument, h.coincide.holds_eq e]
    exact .same hmore
  | nodes => exact .nodes h.coincide hmore

end Expr.Agrees

/-! ### Evaluations -/

namespace Rules.IgnoreRoots

variable {rules : Rules} {name : Text} {signature : Signature}

theorem rule_of_signature (hname : rules.signatures name = some signature) :
    ∃ rule, rules name = some rule ∧ rule.signature = signature :=
  Option.map_eq_some_iff.1 hname

/-- A declared function is called with arguments for its declared parameters. -/
theorem evaluate_call (hname : rules.signatures name = some signature) (token : Token)
    (current root : Value) (given : List Expr) :
    (Expr.call token name given).evaluate (rules.host false).blind current root =
      evaluateArguments (rules.host false).blind current root given signature.parameters >>=
        (rules.host false).blind.call name := by
  obtain ⟨rule, hrule, rfl⟩ := rule_of_signature hname
  have hparameters :
      (rules.host false).blind.parameters name = some rule.signature.parameters := by
    unfold Host.blind Rules.host
    dsimp only
    rw [hrule]
    rfl
  rw [Expr.evaluate, hparameters]
  rfl

theorem call (hrules : rules.IgnoreRoots) (hname : rules.signatures name = some signature)
    (token : Token) (arguments : List Expr) {given given' : List Operand}
    (h : ArgumentsCoincide signature.parameters given given') :
    Option.Rel ((Expr.call token name arguments).Agrees rules.signatures)
      ((rules.host false).blind.call name given) ((rules.host false).blind.call name given') := by
  obtain ⟨rule, hrule, rfl⟩ := rule_of_signature hname
  have hrel := hrules name rule hrule given given' h
  change Option.Rel _ (((rules.host false).call name given).toOption)
    (((rules.host false).call name given').toOption)
  unfold Rules.host
  dsimp only
  rw [hrule]
  dsimp only
  generalize (rule.apply given).toOption = x at hrel
  generalize (rule.apply given').toOption = y at hrel
  cases hrel with
  | none => exact .none
  | some hresults => exact .some (.call hname hresults)

end Rules.IgnoreRoots

variable {rules : Rules}

mutual

theorem Expr.evaluate_agrees (hrules : rules.IgnoreRoots) (current root root' : Value) :
    ∀ e : Expr, e.WellTyped rules.signatures → e.isRootless = true →
      Option.Rel (e.Agrees rules.signatures)
        (e.evaluate (rules.host false).blind current root)
        (e.evaluate (rules.host false).blind current root')
  | .literal _ literal, _, _ => .some (.value _)
  | .negation _ operand, htyped, h => by
    refine Option.Rel.bind (Expr.evaluate_agrees hrules current root root' operand htyped h)
      fun a b hab => ?_
    rw [hab.coincide.holds_eq]
    exact .some (.value _)
  | .conjunction _ left right, htyped, h => by
    obtain ⟨hleft, hright⟩ := Bool.and_eq_true_iff.1 h
    refine Option.Rel.bind (Expr.evaluate_agrees hrules current root root' left htyped.1 hleft)
      fun a b hab => ?_
    rw [hab.coincide.holds_eq]
    split
    · refine Option.Rel.bind
        (Expr.evaluate_agrees hrules current root root' right htyped.2 hright) fun a b hab => ?_
      rw [hab.coincide.holds_eq]
      exact .some (.value _)
    · exact .some (.value _)
  | .disjunction _ left right, htyped, h => by
    obtain ⟨hleft, hright⟩ := Bool.and_eq_true_iff.1 h
    refine Option.Rel.bind (Expr.evaluate_agrees hrules current root root' left htyped.1 hleft)
      fun a b hab => ?_
    rw [hab.coincide.holds_eq]
    split
    · exact .some (.value _)
    · refine Option.Rel.bind
        (Expr.evaluate_agrees hrules current root root' right htyped.2 hright) fun a b hab => ?_
      rw [hab.coincide.holds_eq]
      exact .some (.value _)
  | .comparison _ left operator right, htyped, h => by
    obtain ⟨hleft, hright⟩ := Bool.and_eq_true_iff.1 h
    obtain ⟨hleftTyped, hrightTyped, hleftComparable, hrightComparable⟩ := htyped
    refine Option.Rel.bind (Expr.evaluate_agrees hrules current root root' left hleftTyped hleft)
      fun a b hab => ?_
    refine Option.Rel.bind
      (Expr.evaluate_agrees hrules current root root' right hrightTyped hright) fun c d hcd => ?_
    rw [hab.single_eq hleftComparable, hcd.single_eq hrightComparable]
    exact .some (.value _)
  | .relative _ segments, htyped, h => by
    -- The query starts from the current value, so the two roots differ in the start node only.
    have hstart := Node.Coincide.start current (some root) (some root')
    have hfound := depthFirst_coincide hrules segments htyped h hstart
    rw [← rules.evaluate_eq_depthFirst, ← rules.evaluate_eq_depthFirst] at hfound
    exact Option.Rel.bind hfound fun _ _ hnodes => .some (.nodes rfl hnodes)
  | .absolute _ _, _, h => by cases h
  | .call token name given, ⟨htyped, signature, hname, hfits⟩, h => by
    rw [Rules.IgnoreRoots.evaluate_call hname, Rules.IgnoreRoots.evaluate_call hname]
    refine Option.Rel.bind (evaluateArguments_coincide hrules current root root' given htyped h
      signature.parameters hfits) fun _ _ harguments => ?_
    exact hrules.call hname token given harguments

theorem evaluateArguments_coincide (hrules : rules.IgnoreRoots) (current root root' : Value) :
    ∀ given : List Expr, argumentsWellTyped rules.signatures given →
      argumentsAreRootless given = true → ∀ parameters : List ExprType,
      List.Forall₂ (fun e type => e.fits rules.signatures type = true) given parameters →
      Option.Rel (ArgumentsCoincide parameters)
        (evaluateArguments (rules.host false).blind current root given parameters)
        (evaluateArguments (rules.host false).blind current root' given parameters)
  | [], _, _, parameters, hfits => by
    cases hfits
    exact .some .nil
  | e :: given, htyped, h, parameters, hfits => by
    obtain ⟨he, hgiven⟩ := Bool.and_eq_true_iff.1 h
    cases hfits with
    | cons hfit hfits =>
      refine Option.Rel.bind (Expr.evaluate_agrees hrules current root root' e htyped.1 he)
        fun _ _ hagrees => ?_
      refine Option.Rel.bind (evaluateArguments_coincide hrules current root root' given htyped.2
        hgiven _ hfits) fun _ _ hmore => ?_
      exact .some (hagrees.arguments hfit hmore)

theorem Selector.select_coincide (hrules : rules.IgnoreRoots) {a b : Node} (hab : a.Coincide b) :
    ∀ selector : Selector, selector.WellTyped rules.signatures → selector.isRootless = true →
      Option.Rel (List.Forall₂ Node.Coincide) (selector.select (rules.host false).blind a)
        (selector.select (rules.host false).blind b)
  | .name _ name, _, _ => .some (hab.named name)
  | .index _ index, _, _ => .some (hab.indexed index)
  | .wildcard _, _, _ => .some hab.children
  | .slice _ start? stop? step?, _, _ => .some (hab.sliced start? stop? step?)
  | .filter _ e, htyped, h => by
    refine keep_related (fun c d hcd => ?_) hab.children
    have hagrees := Expr.evaluate_agrees hrules d.value a.root b.root e htyped h
    rw [hcd.value]
    generalize e.evaluate (rules.host false).blind d.value a.root = x at hagrees
    generalize e.evaluate (rules.host false).blind d.value b.root = y at hagrees
    cases hagrees with
    | none => rfl
    | some hxy => exact congrArg some (hxy.coincide.holds_eq e)

theorem selectEach_coincide (hrules : rules.IgnoreRoots) {a b : Node} (hab : a.Coincide b)
    {follow : Node → Option (List Node)} (hfollow : ∀ c d : Node, c.Coincide d →
      Option.Rel (List.Forall₂ Node.Coincide) (follow c) (follow d)) :
    ∀ selectors : List Selector, selectorsWellTyped rules.signatures selectors →
      selectorsAreRootless selectors = true → Option.Rel (List.Forall₂ Node.Coincide)
        (selectEach (rules.host false).blind a follow selectors)
        (selectEach (rules.host false).blind b follow selectors)
  | [], _, _ => .some .nil
  | selector :: rest, htyped, h => by
    obtain ⟨hselector, hrest⟩ := Bool.and_eq_true_iff.1 h
    refine Option.Rel.bind (Selector.select_coincide hrules hab selector htyped.1 hselector)
      fun _ _ hpicked => ?_
    refine Option.Rel.bind (gather_related hfollow hpicked) fun _ _ hfirst => ?_
    refine Option.Rel.bind (selectEach_coincide hrules hab hfollow rest htyped.2 hrest)
      fun _ _ hmore => ?_
    exact .some (List.rel_append hfirst hmore)

theorem Segment.apply_coincide (hrules : rules.IgnoreRoots) {a b : Node} (hab : a.Coincide b)
    {follow : Node → Option (List Node)} (hfollow : ∀ c d : Node, c.Coincide d →
      Option.Rel (List.Forall₂ Node.Coincide) (follow c) (follow d)) :
    ∀ segment : Segment, segment.WellTyped rules.signatures → segment.isRootless = true →
      Option.Rel (List.Forall₂ Node.Coincide)
        (segment.apply (rules.host false).blind follow a)
        (segment.apply (rules.host false).blind follow b)
  | .child _ selectors, htyped, h => selectEach_coincide hrules hab hfollow selectors htyped h
  | .descendant _ selectors, htyped, h =>
    gather_related (fun _ _ hcd => selectEach_coincide hrules hcd hfollow selectors htyped h)
      hab.descendants

theorem depthFirst_coincide (hrules : rules.IgnoreRoots) : ∀ segments : List Segment,
    segmentsWellTyped rules.signatures segments → segmentsAreRootless segments = true →
      ∀ {a b : Node}, a.Coincide b → Option.Rel (List.Forall₂ Node.Coincide)
        (depthFirst (rules.host false).blind segments a)
        (depthFirst (rules.host false).blind segments b)
  | [], _, _, _, _, hab => .some (.cons hab .nil)
  | segment :: rest, htyped, h, _, _, hab => by
    obtain ⟨hsegment, hrest⟩ := Bool.and_eq_true_iff.1 h
    exact Segment.apply_coincide hrules hab
      (fun _ _ hcd => depthFirst_coincide hrules rest htyped.2 hrest hcd) segment htyped.1 hsegment

end

/-- From two starts on one value a search finds the same values at the same locations. -/
theorem Rules.find_coincide (hrules : rules.IgnoreRoots) {query : Query}
    (htyped : segmentsWellTyped rules.signatures query) (h : segmentsAreRootless query = true)
    (data : Value) (root? root?' : Option Value) :
    Option.Rel (List.Forall₂ Node.Coincide) (rules.find query (Node.start data root?))
      (rules.find query (Node.start data root?')) :=
  depthFirst_coincide hrules query htyped h (.start data root? root?')

end JsonPath
