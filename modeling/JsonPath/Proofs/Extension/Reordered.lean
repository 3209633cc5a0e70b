import JsonPath.Proofs.Evaluation.Shuffled
import JsonPath.Proofs.Extension.Rules

/-!
# The standard functions ignore the order of members

A length or a number of nodes is the same in whatever order they stand, the value of the only node
has no order to depend on, and the tests against patterns look at nothing but strings.
-/

namespace JsonPath

variable {a a' : Operand} {given given' : List Operand}

namespace Operand

theorem Alike.size?_eq (h : a.Alike a') : a.size? = a'.size? := by
  cases h with
  | value _ hvw => exact hvw.size?_eq
  | nodes hnodes => exact congrArg some hnodes.length_eq

/-- A string has no members that could be reordered. -/
theorem Alike.string_iff (h : a.Alike a') (text : Text) :
    a = .value (.string text) ↔ a' = .value (.string text) := by
  constructor
  · rintro rfl
    cases h with
    | value _ hvw =>
      cases hvw
      rfl
  · rintro rfl
    cases h with
    | value _ hvw =>
      cases hvw
      rfl

namespace AlikeValues

theorem nothing : AlikeValues (.value .nothing) (.value .nothing) :=
  ⟨_, _, rfl, rfl, .inr rfl, .nothing⟩

theorem number (n : Nat) : AlikeValues (Extension.number n) (Extension.number n) :=
  ⟨_, _, rfl, rfl, .inl rfl, .number⟩

theorem boolean (b : Bool) : AlikeValues (.value (.boolean b)) (.value (.boolean b)) :=
  ⟨_, _, rfl, rfl, .inl rfl, .boolean⟩

end AlikeValues

end Operand

open Operand (AlikeValues)

namespace Extension

theorem unary_ignoresOrder {label : Text} {parameter result : ExprType}
    {apply : Operand → Except Fault Operand} (h : ∀ {a a' : Operand}, a.Alike a' →
      Option.Rel AlikeValues (apply a).toOption (apply a').toOption) :
    (unary label parameter result apply).rule.IgnoresOrder := by
  intro given given' hgiven
  cases hgiven with
  | nil => exact .none
  | cons ha hrest =>
    cases hrest with
    | nil => exact h ha
    | cons _ _ => exact .none

theorem lengthOf_eq (h : a.Alike a') : lengthOf a = lengthOf a' := by
  have hsize : (a.size?.map number).getD (.value .nothing) =
      (a'.size?.map number).getD (.value .nothing) := by rw [h.size?_eq]
  cases h with
  | nodes => exact hsize
  | value _ hvw =>
    cases hvw with
    | octets => rfl
    | _ => exact hsize

theorem lengthOf_alikeValues (a : Operand) : (lengthOf a).AlikeValues (lengthOf a) := by
  unfold lengthOf
  split
  · exact .nothing
  · cases a.size? with
    | none => exact .nothing
    | some n => exact .number n

theorem length_ignoresOrder : length.rule.IgnoresOrder := by
  change (unary "Length" .value .value fun a => .ok (lengthOf a)).rule.IgnoresOrder
  apply unary_ignoresOrder
  intro a a' ha
  rw [lengthOf_eq ha]
  exact .some (lengthOf_alikeValues a')

theorem count_ignoresOrder : count.rule.IgnoresOrder := by
  change (unary "Count" .nodes .value _).rule.IgnoresOrder
  apply unary_ignoresOrder
  intro a a' ha
  rw [ha.size?_eq]
  cases a'.size? with
  | none => exact .none
  | some n => exact .some (.number n)

theorem valueOf_alike (h : a.Alike a') :
    Option.Rel AlikeValues (valueOf a).toOption (valueOf a').toOption := by
  have hsize := h.size?_eq
  cases h with
  | @value v w _ hvw =>
    simp only [valueOf]
    rw [hsize]
    match (Operand.value w).size? with
    | none => exact .none
    | some 0 => exact .some .nothing
    | some 1 => exact .none
    | some (_ + 2) => exact .some .nothing
  | @nodes ns ms hnodes =>
    match ns, ms, hnodes, hnodes.length_eq with
    | [], [], _, _ => exact .some .nothing
    | [n], [m], hnodes, _ =>
      obtain ⟨m', hm, hnm⟩ := hnodes.exists_of_mem List.mem_cons_self
      cases List.mem_singleton.1 hm
      exact .some ⟨_, _, rfl, rfl, .inl hnm.value.isJson, hnm.value.reordered⟩
    | _ :: _ :: _, _ :: _ :: _, _, _ => exact .some .nothing

theorem value_ignoresOrder : value.rule.IgnoresOrder := by
  change (unary "Value" .nodes .value valueOf).rule.IgnoresOrder
  exact unary_ignoresOrder valueOf_alike

end Extension

/-! ### Tests against patterns -/

namespace PatternTester

variable {tester : PatternTester}

theorem strings_iff (h : List.Forall₂ Operand.Alike given given') (text pattern : Text) :
    given = [.value (.string text), .value (.string pattern)] ↔
      given' = [.value (.string text), .value (.string pattern)] := by
  constructor
  · rintro rfl
    obtain _ | ⟨ha, _ | ⟨hb, _ | _⟩⟩ := h
    rw [(ha.string_iff text).1 rfl, (hb.string_iff pattern).1 rfl]
  · rintro rfl
    obtain _ | ⟨ha, _ | ⟨hb, _ | _⟩⟩ := h
    rw [(ha.string_iff text).2 rfl, (hb.string_iff pattern).2 rfl]

theorem call_of_not_strings (label : Text) (h : ∀ text pattern,
    given ≠ [.value (.string text), .value (.string pattern)]) :
    (tester.call label given).result =
      if given.length = 2 then .ok (.value (.boolean false)) else .error .wrongArguments := by
  unfold call
  split
  next text pattern => exact absurd rfl (h text pattern)
  · rfl
  next htwo =>
    rw [if_neg]
    intro hlength
    obtain ⟨a, b, rfl⟩ := List.length_eq_two.1 hlength
    exact htwo a b rfl

theorem call_congr (h : List.Forall₂ Operand.Alike given given') (label : Text) :
    (tester.call label given).result = (tester.call label given').result := by
  by_cases hstrings : ∃ text pattern, given = [.value (.string text), .value (.string pattern)]
  · obtain ⟨text, pattern, rfl⟩ := hstrings
    rw [(strings_iff h text pattern).1 rfl]
  · have hnot : ∀ text pattern, given ≠ [.value (.string text), .value (.string pattern)] :=
      fun text pattern heq => hstrings ⟨text, pattern, heq⟩
    rw [call_of_not_strings label hnot, call_of_not_strings label fun text pattern heq =>
      hnot text pattern ((strings_iff h text pattern).2 heq), h.length_eq]

theorem verdict_alikeValues (regex : Regex) (text : Text) :
    Option.Rel AlikeValues (tester.verdict regex text).toOption
      (tester.verdict regex text).toOption := by
  unfold verdict
  cases tester.test.apply regex text with
  | error => exact .none
  | ok b => exact .some (.boolean b)

theorem call_alikeValues (label : Text) (given : List Operand) :
    Option.Rel AlikeValues (tester.call label given).result.toOption
      (tester.call label given).result.toOption := by
  unfold call
  split
  · unfold run
    split
    · exact verdict_alikeValues _ _
    · split
      · exact verdict_alikeValues _ _
      · split <;> split
        all_goals first | exact .none | exact .some (AlikeValues.boolean false)
  · exact .some (.boolean false)
  · exact .none

end PatternTester

namespace Extension

theorem patternTest_ignoresOrder (label : Text) (test : PatternTest)
    (settings : PatternSettings) : (patternTest label test settings).rule.IgnoresOrder := by
  intro given given' hgiven
  let tester : PatternTester := ⟨test, settings.strict, settings.compile, .empty settings.cacheSize⟩
  change Option.Rel _ (tester.call label given).result.toOption
    (tester.call label given').result.toOption
  rw [PatternTester.call_congr hgiven]
  exact PatternTester.call_alikeValues label given'

/-- The standard functions ignore the order of members, whatever their caches hold. -/
theorem standard_ignoresOrder {settings : PatternSettings} {name : Text} {extension : Extension}
    (h : Registry.find? name (standard settings) = some extension) (size : Nat) :
    (extension.renewed size).rule.IgnoresOrder := by
  obtain ⟨entry, hfind, rfl⟩ := Option.map_eq_some_iff.1 h
  have hmem := List.mem_of_find?_eq_some hfind
  simp only [standard, List.mem_cons, List.not_mem_nil, or_false] at hmem
  rcases hmem with rfl | rfl | rfl | rfl | rfl
  · exact length_ignoresOrder
  · exact count_ignoresOrder
  · exact value_ignoresOrder
  · exact patternTest_ignoresOrder _ _ { settings with cacheSize := size }
  · exact patternTest_ignoresOrder _ _ { settings with cacheSize := size }

end Extension

end JsonPath
