import JsonPath.Proofs.Extension.Rootless
import JsonPath.Proofs.Session.Composition

/-!
# What is found does not depend on the root

A query with no absolute query in its filters finds the same values at the same locations whatever
root it is given, or none at all.
-/

namespace JsonPath

variable {environment : Environment} {text : Text} {query : Query}

theorem Environment.frame_ignoresRoots (h : environment.functions.IgnoresRoots) :
    environment.frame.rules.IgnoreRoots := by
  intro name rule hrule
  obtain ⟨extension, hfind, rfl⟩ := Option.map_eq_some_iff.1 hrule
  exact h name extension hfind 0

theorem Environment.frame_signatures (environment : Environment) :
    environment.frame.rules.signatures = environment.functions.signatures := by
  funext name
  unfold Rules.signatures Environment.frame Registry.signatures
  rw [Option.map_map]
  cases environment.functions.find? name with
  | none => rfl
  | some extension => exact congrArg some (extension.signature_renewed 0)

/-- **A query without absolute queries cannot observe the root.** Let no absolute query occur in the
filters of a compiled query, at any depth and the arguments of functions included, and let what the
functions come to depend on values, and on the values and locations of nodes. Whatever has been done
before the one search and before the other, on one value the two find the same values at the same
locations in the same order, or both fail, whichever roots they are given. -/
theorem find_rootless (hquery : environment.compile text = .ok query)
    (hrootless : segmentsAreRootless query = true)
    (hfunctions : environment.functions.IgnoresRoots) (sizes sizes' : Text → Nat)
    {history history' : List LoggedCommand} (hsteady : ∀ step ∈ history, step.2.isSteady = true)
    (hsteady' : ∀ step ∈ history', step.2.isSteady = true) (logging logging' : Bool) (data : Value)
    (root? root?' : Option Value) :
    let result :=
      ((Session.start (environment.renewed sizes)).after history).find logging query data root?
    let result' :=
      ((Session.start (environment.renewed sizes')).after history').find logging' query data root?'
    (∃ fault fault', result = .error fault ∧ result' = .error fault') ∨
    ∃ ns ms, result = .ok ns ∧ result' = .ok ms ∧ ns.map (·.value) = ms.map (·.value) ∧
      ns.map (·.location) = ms.map (·.location) := by
  intro result result'
  obtain ⟨ts, final, -, hderives⟩ := Grammar.ofText_eq_ok_iff.1 hquery
  have htyped : segmentsWellTyped environment.frame.rules.signatures query := by
    rw [environment.frame_signatures]
    exact hderives.wellTyped
  obtain ⟨_, hsession⟩ := (Session.start_follows environment sizes).after hsteady
  obtain ⟨_, hsession'⟩ := (Session.start_follows environment sizes').after hsteady'
  have hrel : Option.Rel (List.Forall₂ Node.Coincide) result.toOption result'.toOption := by
    rw [hsession.toOption_find, hsession'.toOption_find]
    exact Rules.find_coincide (Environment.frame_ignoresRoots hfunctions) htyped hrootless data
      root? root?'
  cases hresult : result with
  | error fault =>
    rw [hresult] at hrel
    cases hresult' : result' with
    | error fault' => exact .inl ⟨fault, fault', rfl, rfl⟩
    | ok ms =>
      rw [hresult'] at hrel
      cases hrel
  | ok ns =>
    rw [hresult] at hrel
    cases hresult' : result' with
    | error fault' =>
      rw [hresult'] at hrel
      cases hrel
    | ok ms =>
      rw [hresult'] at hrel
      cases hrel with
      | some hnodes =>
        refine .inr ⟨ns, ms, rfl, rfl, ?_, ?_⟩ <;>
          rw [← List.forall₂_eq_eq_eq, List.forall₂_map_left_iff, List.forall₂_map_right_iff]
        · exact hnodes.imp fun _ _ h => h.value
        · exact hnodes.imp fun _ _ h => h.location

/-- A filter in a filter and a function of nodes, which have another root in each of the two
searches. -/
theorem find_rootless_value :
    let data : Value := .array [.array [.object [("a", .string "x")]], .array [.string "x"]]
    let session := (Session.start (Environment.standard.renewed fun _ => 1)).after []
    ∃ query ns ms, Environment.standard.compile "$[?value(@[?@.a].a) == 'x']" = .ok query ∧
      segmentsAreRootless query = true ∧
      session.find true query data (some .null) = .ok ns ∧
      session.find false query data (some (.string "x")) = .ok ms ∧
      ns.map (·.root) = [data] ∧ ms.map (·.root) = [.string "x"] ∧
      ns.map (·.value) = ms.map (·.value) ∧ ns.map (·.location) = ms.map (·.location) := by
  intro data session
  let child : Value := .array [.object [("a", .string "x")]]
  obtain ⟨query, hquery, hrootless, hfound, hfound'⟩ : ∃ query,
      Environment.standard.compile "$[?value(@[?@.a].a) == 'x']" = .ok query ∧
      segmentsAreRootless query = true ∧
      session.find true query data (some .null) = .ok [⟨child, [.index 0], data⟩] ∧
      session.find false query data (some (.string "x")) =
        .ok [⟨child, [.index 0], .string "x"⟩] :=
    ⟨_, by cbv, by cbv, by cbv, by cbv⟩
  have hfunctions := Registry.IgnoresRoots.standard .standard
  rcases find_rootless hquery hrootless hfunctions (fun _ => 1) (fun _ => 1)
    (List.forall_mem_nil _) (List.forall_mem_nil _) true false data (some .null)
    (some (.string "x")) with ⟨fault, _, hfault, -⟩ | ⟨ns, ms, hns, hms, hvalues, hlocations⟩
  · cases hfault.symm.trans hfound
  · refine ⟨query, ns, ms, hquery, hrootless, hns, hms, ?_, ?_, hvalues, hlocations⟩
    · cases hns.symm.trans hfound
      rfl
    · cases hms.symm.trans hfound'
      rfl

end JsonPath
