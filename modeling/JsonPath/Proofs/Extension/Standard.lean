import JsonPath.Environment
import JsonPath.Proofs.Evaluation.Types

/-!
# The standard functions keep their declarations

They do so in every state of their caches. A pattern that is no regular expression makes a lenient
test false; only the engine can fail, where a pattern is well formed but asks for too much.
-/

namespace JsonPath

/-- A pattern was not compiled although nothing in it is malformed. -/
def Fault.IsEngineFault (fault : Fault) : Prop :=
  ∃ pattern error, fault = .badPattern pattern error ∧ ∀ cause place, error ≠ .malformed cause place

namespace Extension

variable {tolerated : Fault → Prop} {extension : Extension} {given : List Operand}

theorem keeps_of_plain {apply : List Operand → Except Fault Operand}
    (h : extension.behaviour = .plain apply)
    (happly : ∀ given, operandsHaveTypes extension.signature.parameters given = true →
      Meets tolerated (·.hasType extension.signature.result = true) (apply given)) :
    extension.KeepsDeclaration tolerated := by
  have hcall (given : List Operand) : extension.call given = ⟨apply given, extension, []⟩ := by
    simp [call, h]
  intro calls hcalls given hgiven
  have hafter : extension.afterCalls calls = extension := by
    clear hcalls
    induction calls with
    | nil => rfl
    | cons arguments calls ih =>
      unfold afterCalls at ih ⊢
      rw [List.foldl_cons, hcall arguments, ih]
  rw [hafter, hcall]
  exact happly given hgiven

/-- The operand of a call with one parameter. -/
theorem eq_singleton_of_haveTypes {type : ExprType} (h : operandsHaveTypes [type] given = true) :
    ∃ operand, given = [operand] ∧ operand.hasType type = true := by
  match given with
  | [operand] => exact ⟨operand, rfl, by simpa [operandsHaveTypes] using h⟩
  | [] => cases h
  | _ :: _ :: _ => simp [operandsHaveTypes] at h

theorem eq_pair_of_haveTypes {type type' : ExprType}
    (h : operandsHaveTypes [type, type'] given = true) :
    ∃ first second, given = [first, second] ∧ first.hasType type = true ∧
      second.hasType type' = true := by
  match given with
  | [first, second] => exact ⟨first, second, rfl, by simpa [operandsHaveTypes] using h⟩
  | [] => cases h
  | [_] => simp [operandsHaveTypes] at h
  | _ :: _ :: _ :: _ => simp [operandsHaveTypes] at h

theorem exists_value_of_hasType {operand : Operand} (h : operand.hasType .value = true) :
    ∃ v, operand = .value v ∧ (v.isJson = true ∨ v = .nothing) := by
  cases operand with
  | value v =>
    refine ⟨v, rfl, ?_⟩
    simp only [Operand.hasType, Bool.or_eq_true] at h
    refine h.imp_right fun hnothing => ?_
    cases v <;> first | rfl | cases hnothing
  | nodes | listed => cases h

theorem exists_nodes_of_hasType {operand : Operand} (h : operand.hasType .nodes = true) :
    ∃ nodes, operand = .nodes nodes ∧ ∀ node ∈ nodes, node.value.isJson = true := by
  cases operand with
  | nodes nodes => exact ⟨nodes, rfl, List.all_eq_true.1 h⟩
  | value | listed => cases h

theorem length_keeps : length.KeepsDeclaration tolerated := by
  refine keeps_of_plain rfl fun given hgiven => ?_
  obtain ⟨operand, rfl, htype⟩ := eq_singleton_of_haveTypes hgiven
  obtain ⟨v, rfl, -⟩ := exists_value_of_hasType htype
  cases v <;> rfl

theorem count_keeps : count.KeepsDeclaration tolerated := by
  refine keeps_of_plain rfl fun given hgiven => ?_
  obtain ⟨operand, rfl, htype⟩ := eq_singleton_of_haveTypes hgiven
  obtain ⟨nodes, rfl, -⟩ := exists_nodes_of_hasType htype
  rfl

theorem value_keeps : value.KeepsDeclaration tolerated := by
  refine keeps_of_plain rfl fun given hgiven => ?_
  obtain ⟨operand, rfl, htype⟩ := eq_singleton_of_haveTypes hgiven
  obtain ⟨nodes, rfl, hnodes⟩ := exists_nodes_of_hasType htype
  match nodes, hnodes with
  | [], _ => rfl
  | [node], hnodes =>
    have hnode := hnodes node List.mem_cons_self
    show (Operand.value node.value).hasType .value = true
    simp [Operand.hasType, hnode]
  | _ :: _ :: _, _ => rfl

/-- A test against patterns that is lenient and has a test of its own. -/
def IsLenientTest (extension : Extension) : Prop :=
  extension.signature = ⟨[.value, .value], .logical⟩ ∧
    ∃ tester : PatternTester, extension.behaviour = .pattern tester ∧ tester.strict = false ∧
      tester.test ≠ .undefined

theorem verdict_meets {tester : PatternTester} (htest : tester.test ≠ .undefined) (regex : Regex)
    (text : Text) :
    Meets Fault.IsEngineFault (·.hasType .logical = true) (tester.verdict regex text) := by
  unfold PatternTester.verdict PatternTest.apply
  cases htester : tester.test <;> first | rfl | exact absurd htester htest

theorem run_meets {tester : PatternTester} (hstrict : tester.strict = false)
    (htest : tester.test ≠ .undefined) (label text pattern : Text) :
    Meets Fault.IsEngineFault (·.hasType .logical = true) (tester.run label text pattern).result ∧
      (tester.run label text pattern).after.strict = false ∧
      (tester.run label text pattern).after.test ≠ .undefined := by
  unfold PatternTester.run
  split
  · exact ⟨verdict_meets htest _ _, hstrict, htest⟩
  · split
    · exact ⟨verdict_meets htest _ _, hstrict, htest⟩
    next error _ =>
      rw [hstrict]
      cases error with
      | malformed cause place => exact ⟨rfl, hstrict, htest⟩
      | tooManyRounds | clashingFlags | numeral =>
        exact ⟨⟨_, _, rfl, by simp⟩, hstrict, htest⟩

theorem IsLenientTest.call (h : extension.IsLenientTest)
    (hgiven : operandsHaveTypes [.value, .value] given = true) :
    Meets Fault.IsEngineFault (·.hasType .logical = true) (extension.call given).result ∧
      (extension.call given).after.IsLenientTest := by
  obtain ⟨hsignature, tester, hbehaviour, hstrict, htest⟩ := h
  obtain ⟨first, second, rfl, -, -⟩ := eq_pair_of_haveTypes hgiven
  have houtcome : Meets Fault.IsEngineFault (·.hasType .logical = true)
        (tester.call extension.label [first, second]).result ∧
      (tester.call extension.label [first, second]).after.strict = false ∧
      (tester.call extension.label [first, second]).after.test ≠ .undefined := by
    unfold PatternTester.call
    split
    · exact run_meets hstrict htest _ _ _
    · exact ⟨rfl, hstrict, htest⟩
    next hnone => exact absurd rfl (hnone first second)
  unfold Extension.call
  rw [hbehaviour]
  exact ⟨houtcome.1, hsignature, _, rfl, houtcome.2⟩

theorem IsLenientTest.keeps (h : extension.IsLenientTest) :
    extension.KeepsDeclaration Fault.IsEngineFault := by
  intro calls hcalls given hgiven
  have hsignature := h.1
  rw [hsignature] at hcalls hgiven ⊢
  have hafter : (extension.afterCalls calls).IsLenientTest := by
    unfold afterCalls
    clear hsignature
    induction calls generalizing extension with
    | nil => exact h
    | cons arguments calls ih =>
      obtain ⟨harguments, hcalls⟩ := List.forall_mem_cons.1 hcalls
      exact ih (h.call harguments).2 hcalls
  exact (hafter.call hgiven).1

/-- Each of the standard functions keeps its declaration, the lenient tests up to their engine. -/
theorem standard_keeps {settings : PatternSettings} (hlenient : settings.strict = false)
    {name : Text} (h : Registry.find? name (standard settings) = some extension) :
    extension.KeepsDeclaration Fault.IsEngineFault := by
  obtain ⟨entry, hentry, rfl⟩ := Option.map_eq_some_iff.1 h
  have hmem := List.mem_of_find?_eq_some hentry
  simp only [standard, List.mem_cons, List.not_mem_nil, or_false] at hmem
  rcases hmem with rfl | rfl | rfl | rfl | rfl
  · exact length_keeps
  · exact count_keeps
  · exact value_keeps
  · exact IsLenientTest.keeps ⟨rfl, _, rfl, hlenient, by simp⟩
  · exact IsLenientTest.keeps ⟨rfl, _, rfl, hlenient, by simp⟩

end Extension

end JsonPath
