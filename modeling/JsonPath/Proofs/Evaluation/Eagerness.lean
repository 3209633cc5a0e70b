import JsonPath.Proofs.Evaluation.Draining
import JsonPath.Proofs.Evaluation.Simulation

/-!
# Lazy and traced searches

With rules for functions, a traced search and one that is not find the same nodes, or both fail. The
same nodes are pulled from a cursor one by one.
-/

namespace JsonPath

/-- The host that does not tell one fault from another. -/
def Host.blind (host : Host (Except Fault)) : Host Option where
  traces := host.traces.toOption
  matched query segment count := (host.matched query segment count).toOption
  parameters name := (host.parameters name).toOption
  call name given := (host.call name given).toOption

theorem Host.related_blind (host : Host (Except Fault)) :
    host.Related (fun _ x y => x.toOption = y) host.blind := by
  refine .of_traces ⟨fun _ => rfl, ?_⟩ rfl (fun _ _ _ => rfl) (fun _ => rfl) fun _ _ => rfl
  rintro α β (fault | a) _ f g rfl hfg
  · rfl
  · exact hfg a

namespace Rules

variable (rules : Rules)

/-- The nodes to which a query leads from a node, if nothing fails on the way. -/
def find (query : Query) (node : Node) : Option (List Node) :=
  depthFirst (rules.host false).blind query node

theorem isSilent (traces : Bool) : (rules.host traces).blind.IsSilent := fun _ _ _ => rfl

theorem evaluate_eq_depthFirst (traces : Bool) (query : Query) (start : Node) :
    query.evaluate (rules.host traces).blind start =
      depthFirst (rules.host traces).blind query start :=
  query.evaluate_eq_depthFirst (rules.isSilent traces) rfl start

/-- It makes no difference whether the searches in filters are traced. -/
theorem related_traces (traces traces' : Bool) :
    (rules.host traces).blind.Related (fun _ x y => x = y) (rules.host traces').blind where
  pure _ := rfl
  bind := by
    rintro α β x _ f g rfl hfg
    exact congrArg (x >>= ·) (funext hfg)
  matched _ _ _ := rfl
  parameters _ := rfl
  call _ _ := rfl
  search query start hdepth _ := by
    rw [rules.evaluate_eq_depthFirst, rules.evaluate_eq_depthFirst, hdepth]

variable (traces : Bool) (query : Query) (start : Node)

theorem toOption_depthFirst :
    (depthFirst (rules.host traces) query start).toOption = rules.find query start :=
  ((rules.host traces).related_blind.depthFirst query start).trans
    ((rules.related_traces traces false).depthFirst query start)

theorem toOption_breadthFirst :
    (breadthFirst (rules.host traces) query query [start]).toOption = rules.find query start := by
  refine ((rules.host traces).related_blind.breadthFirst query query [start]).trans ?_
  rw [breadthFirst_eq_gather (rules.isSilent traces), gather_singleton]
  exact (rules.related_traces traces false).depthFirst query start

theorem toOption_evaluate :
    (query.evaluate (rules.host traces) start).toOption = rules.find query start := by
  cases traces with
  | true => exact rules.toOption_breadthFirst true query start
  | false => exact rules.toOption_depthFirst false query start

end Rules

theorem Except.eq_ok_of_toOption {ε α : Type} {x : Except ε α} {a : α} (h : x.toOption = some a) :
    x = .ok a := by
  cases x with
  | error e => cases h
  | ok b => exact congrArg Except.ok (Option.some.inj h)

/-! ### Cursors -/

namespace Cursor

/-- All that is still to be pulled from the cursor. -/
def rest {m : Type → Type} [Monad m] (host : Host m) (cursor : Cursor) : m (List Node) :=
  Pending.all host cursor.segments cursor.pending

/-- Pulled one by one from a workspace on, the nodes come out of the cursor, and then no more. -/
inductive Drains : Cursor → Workspace → List Node → Prop
  | done {cursor last : Cursor} {workspace after : Workspace} :
      (cursor.next Run.host).run.run workspace = (.ok (none, last), after) →
      Drains cursor workspace []
  | more {cursor later : Cursor} {workspace after : Workspace} {node : Node} {nodes : List Node} :
      (cursor.next Run.host).run.run workspace = (.ok (some node, later), after) →
      Drains later after nodes → Drains cursor workspace (node :: nodes)

variable {host : Host (Except Fault)} {query : Query} {start : Node}

/-- If anything is left there is a next node, and otherwise there is none. -/
theorem next_of_rest {cursor : Cursor} {nodes : List Node} (h : cursor.rest host = .ok nodes) :
    ∃ later, cursor.next host = .ok (nodes.head?, later) ∧
      (nodes ≠ [] → later.rest host = .ok nodes.tail) := by
  rw [rest, Pending.all_eq_pull] at h
  unfold next
  cases hpull : Pending.pull host cursor.segments cursor.pending with
  | error fault =>
    rw [hpull] at h
    cases h
  | ok pulled? =>
    rw [hpull] at h
    cases pulled? with
    | none =>
      cases h
      exact ⟨exhausted, rfl, fun hne => absurd rfl hne⟩
    | some pulled =>
      obtain ⟨node, later⟩ := pulled
      change (Pending.all host cursor.segments later >>= fun found => pure (node :: found)) = _ at h
      cases hlater : Pending.all host cursor.segments later with
      | error fault =>
        rw [hlater] at h
        cases h
      | ok found =>
        rw [hlater] at h
        cases h
        exact ⟨⟨cursor.segments, later⟩, rfl, fun _ => hlater⟩

variable {P : Rule → Extension → Prop} {setting : Setting} {workspace : Workspace}

theorem drains_of_rest (hP : Lasting P) {cursor : Cursor} {nodes : List Node}
    (h : cursor.rest (setting.rules.host setting.logging) = .ok nodes)
    (hworkspace : workspace.Follows P setting) : cursor.Drains workspace nodes := by
  induction nodes generalizing cursor workspace with
  | nil =>
    obtain ⟨later, hnext, -⟩ := next_of_rest h
    obtain ⟨after, hrun, -⟩ := (Run.Follows.host hP).next cursor workspace hworkspace
    rw [hnext] at hrun
    exact .done hrun
  | cons node nodes ih =>
    obtain ⟨later, hnext, hlater⟩ := next_of_rest h
    obtain ⟨after, hrun, hafter⟩ := (Run.Follows.host hP).next cursor workspace hworkspace
    rw [hnext] at hrun
    exact .more hrun (ih (hlater (by simp)) hafter)

/-- The cursor of a query has all nodes of the query before it. -/
theorem rest_ofQuery {rules : Rules} {nodes : List Node} (h : rules.find query start = some nodes)
    (traces : Bool) : ∃ cursor, Cursor.ofQuery (rules.host traces) query start = .ok cursor ∧
      cursor.rest (rules.host traces) = .ok nodes := by
  unfold Cursor.ofQuery
  cases traces with
  | true =>
    have hfound := Except.eq_ok_of_toOption ((rules.toOption_breadthFirst true query start).trans h)
    refine ⟨⟨[], nodes⟩, ?_, rfl⟩
    change (breadthFirst (rules.host true) query query [start] >>= _) = _
    rw [hfound]
    rfl
  | false =>
    have hfound := Except.eq_ok_of_toOption ((rules.toOption_depthFirst false query start).trans h)
    refine ⟨⟨query, Pending.from query [start]⟩, rfl, ?_⟩
    rw [rest, Pending.all_from, gather_singleton, hfound]

theorem first?_of_find {rules : Rules} {nodes : List Node} (h : rules.find query start = some nodes)
    (traces : Bool) : query.first? (rules.host traces) start = .ok nodes.head? := by
  obtain ⟨cursor, hcursor, hrest⟩ := rest_ofQuery h traces
  obtain ⟨later, hnext, -⟩ := next_of_rest hrest
  unfold Query.first?
  rw [hcursor]
  change (cursor.next (rules.host traces) >>= _) = _
  rw [hnext]
  rfl

end Cursor

end JsonPath
