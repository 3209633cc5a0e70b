import JsonPath.Proofs.Evaluation.Rootless
import JsonPath.Proofs.Extension.Rules

/-!
# The functions of the library ignore roots

Of nodes they look at the number and the values. Most are not even given any: if no nodes are asked
for, the arguments are the same to begin with.
-/

namespace JsonPath

variable {types : List ExprType} {as bs : List Operand} {rule : Rule}

theorem ArgumentsCoincide.eq (h : ArgumentsCoincide types as bs) (htypes : .nodes ∉ types) :
    as = bs := by
  induction h with
  | nil => rfl
  | same _ ih => rw [ih fun hmem => htypes (List.mem_cons_of_mem _ hmem)]
  | nodes => exact absurd List.mem_cons_self htypes

theorem ResultsCoincide.rel_refl (type : ExprType) (result? : Option Operand) :
    Option.Rel (ResultsCoincide type) result? result? := by
  cases result? with
  | none => exact .none
  | some result => exact .some ⟨.refl result, fun _ => rfl⟩

theorem ResultsCoincide.of_nodes {a b : Operand} (h : a.Coincide b) :
    ResultsCoincide .nodes a b := ⟨h, nofun⟩

/-- A rule ignores the roots of nodes if there are no nodes in its arguments. -/
theorem Rule.ignoresRoots_of_no_nodes (h : .nodes ∉ rule.signature.parameters) :
    rule.IgnoresRoots := by
  intro given given' hgiven
  rw [hgiven.eq h]
  exact ResultsCoincide.rel_refl _ _

theorem Operand.Coincide.size?_eq {a b : Operand} (h : a.Coincide b) : a.size? = b.size? := by
  cases h with
  | value => rfl
  | nodes hnodes | listed hnodes => exact congrArg some hnodes.length_eq

namespace Extension

variable {settings : PatternSettings} {extension : Extension}

theorem signature_renewed (size : Nat) :
    (extension.renewed size).signature = extension.signature := by
  unfold renewed
  split <;> rfl

/-- Whether nodes are asked for. -/
def takesNodes (extension : Extension) : Bool := .nodes ∈ extension.signature.parameters

/-! ### Functions of nodes -/

theorem unary_ignoresRoots {label : Text} {result : ExprType}
    {apply : Operand → Except Fault Operand} (h : ∀ {a b : Operand}, a.Coincide b →
      Option.Rel (ResultsCoincide result) (apply a).toOption (apply b).toOption) :
    (unary label .nodes result apply).rule.IgnoresRoots := by
  intro given given' hgiven
  cases hgiven with
  | same hmore =>
    cases hmore
    exact h (.refl _)
  | nodes hab hmore =>
    cases hmore
    exact h hab

theorem count_ignoresRoots : count.rule.IgnoresRoots := by
  change (unary "Count" .nodes .value _).rule.IgnoresRoots
  apply unary_ignoresRoots
  intro a b hab
  rw [hab.size?_eq]
  exact ResultsCoincide.rel_refl _ _

theorem valueOf_coincide {a b : Operand} (h : a.Coincide b) : valueOf a = valueOf b := by
  cases h with
  | value => rfl
  | nodes hnodes | listed hnodes =>
    obtain _ | ⟨hnode, _ | ⟨-, hmore⟩⟩ := hnodes
    · rfl
    · rw [valueOf, valueOf, hnode.value]
    · rfl

theorem value_ignoresRoots : value.rule.IgnoresRoots := by
  change (unary "Value" .nodes .value valueOf).rule.IgnoresRoots
  apply unary_ignoresRoots
  intro a b hab
  rw [valueOf_coincide hab]
  exact ResultsCoincide.rel_refl _ _

theorem children_ignoresRoots : children.rule.IgnoresRoots := by
  unfold children
  apply unary_ignoresRoots
  intro a b hab
  cases hab with
  | value => exact ResultsCoincide.rel_refl _ _
  | nodes hnodes | listed hnodes => exact .some (.of_nodes (.listed hnodes))

theorem head_ignoresRoots : head.rule.IgnoresRoots := by
  unfold head
  apply unary_ignoresRoots
  intro a b hab
  cases hab with
  | value => exact ResultsCoincide.rel_refl _ _
  | nodes hnodes | listed hnodes =>
    exact .some (.of_nodes (.nodes (List.forall₂_take 1 hnodes)))

/-- Whatever function of the library it is, and whatever the size of its cache. -/
theorem all_ignoreRoots {entry : Text × Extension} (h : entry ∈ all settings) (size : Nat) :
    (entry.2.renewed size).rule.IgnoresRoots := by
  have hfour : (all settings).filter (·.2.takesNodes) =
      [(("count" : Text), count), ("value", value), ("children", children), ("head", head)] := rfl
  by_cases hnodes : entry.2.takesNodes = true
  · have hmem : entry ∈ (all settings).filter (·.2.takesNodes) := List.mem_filter.2 ⟨h, hnodes⟩
    rw [hfour] at hmem
    simp only [List.mem_cons, List.not_mem_nil, or_false] at hmem
    rcases hmem with rfl | rfl | rfl | rfl
    · exact count_ignoresRoots
    · exact value_ignoresRoots
    · exact children_ignoresRoots
    · exact head_ignoresRoots
  · apply Rule.ignoresRoots_of_no_nodes
    change .nodes ∉ (entry.2.renewed size).signature.parameters
    rw [signature_renewed]
    exact of_decide_eq_false (eq_false_of_ne_true hnodes)

end Extension

/-! ### Registries -/

/-- All registered functions ignore roots, whatever the sizes of their caches. -/
def Registry.IgnoresRoots (registry : Registry) : Prop :=
  ∀ name extension, registry.find? name = some extension →
    ∀ size, (extension.renewed size).rule.IgnoresRoots

namespace Registry.IgnoresRoots

variable {registry : Registry}

theorem of_forall_mem
    (h : ∀ entry ∈ registry, ∀ size, (entry.2.renewed size).rule.IgnoresRoots) :
    registry.IgnoresRoots := by
  intro name extension hfind
  obtain ⟨entry, hentry, rfl⟩ := Option.map_eq_some_iff.1 hfind
  exact h entry (List.mem_of_find?_eq_some hentry)

theorem register (h : registry.IgnoresRoots) {name : Text} {extension : Extension}
    (hextension : ∀ size, (extension.renewed size).rule.IgnoresRoots) :
    (Registry.register name extension registry).IgnoresRoots := by
  intro other found hfind
  rw [Registry.find?_register] at hfind
  split at hfind
  · cases hfind
    exact hextension
  · exact h other found hfind

theorem standard (settings : Extension.PatternSettings) :
    IgnoresRoots (Extension.standard settings) :=
  of_forall_mem fun _ hentry => Extension.all_ignoreRoots (List.mem_append_left _ hentry)

theorem withNamed {names : List Text} {after : Registry} (h : registry.IgnoresRoots)
    (hafter : Environment.withNamed names registry = .ok after) : after.IgnoresRoots := by
  induction names generalizing registry with
  | nil =>
    cases hafter
    exact h
  | cons name rest ih =>
    unfold Environment.withNamed at hafter
    split at hafter
    next extension hnamed =>
      obtain ⟨entry, hentry, rfl⟩ := Option.map_eq_some_iff.1 hnamed
      have hall := Extension.all_ignoreRoots (List.mem_of_find?_eq_some hentry)
      exact ih (h.register hall) hafter
    next => cases hafter

/-- However an environment is configured, its functions ignore roots. -/
theorem ofConfiguration {configuration : Configuration} {environment : Environment}
    (h : Environment.ofConfiguration configuration = .ok environment) :
    environment.functions.IgnoresRoots := by
  unfold Environment.ofConfiguration at h
  dsimp only at h
  split at h
  all_goals
    obtain ⟨basis, hbasis, h⟩ := Parser.bind_eq_ok_iff.1 h
    obtain ⟨functions, hfunctions, h⟩ := Parser.bind_eq_ok_iff.1 h
    cases h
    refine withNamed ?_ hfunctions
  · exact withNamed (of_forall_mem (List.forall_mem_nil _)) hbasis
  · unfold Environment.standardFunctions at hbasis
    split at hbasis
    · cases hbasis
    · cases hbasis
      exact standard _

end Registry.IgnoresRoots

end JsonPath
