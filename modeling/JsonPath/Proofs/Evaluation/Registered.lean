import JsonPath.Proofs.Evaluation.Checked

/-!
# Calls of registered functions

A call registers the function again as it is after the call. Where functions keep their
declarations this changes no declaration and leaves functions that keep theirs.
-/

namespace JsonPath

namespace Registry

variable {registry : Registry} {name other : Text} {extension : Extension}

theorem find?_register : (registry.register name extension).find? other =
    if name = other then some extension else registry.find? other := by
  unfold find?
  induction registry with
  | nil => by_cases h : name = other <;> simp [register, h]
  | cons entry rest ih =>
    obtain ⟨former, _⟩ := entry
    unfold register
    by_cases hformer : former = name
    · subst hformer
      by_cases h : former = other <;> simp [h]
    · by_cases h : former = other
      · subst h
        have hname : name ≠ former := Ne.symm hformer
        simp [hformer, hname]
      · simp [hformer, h, ih]

theorem signatures_register (h : registry.find? name = some extension) {after : Extension}
    (hafter : after.signature = extension.signature) :
    (registry.register name after).signatures = registry.signatures := by
  funext other
  unfold signatures
  rw [find?_register]
  split
  next heq =>
    subst heq
    simp [h, hafter]
  next => rfl

end Registry

@[simp]
theorem Workspace.functions_note {workspace : Workspace} {notices : List Notice} :
    (workspace.note notices).functions = workspace.functions := by
  unfold note
  split <;> rfl

variable {signatures : Signatures} {tolerated : Fault → Prop} {workspace : Workspace}
  {name : Text} {signature : Signature}

theorem Workspace.Keeps.note (h : workspace.Keeps signatures tolerated) (notices : List Notice) :
    (workspace.note notices).Keeps signatures tolerated := by
  obtain ⟨hdeclared, hkept⟩ := h
  exact ⟨by rw [functions_note, hdeclared], by rwa [functions_note]⟩

theorem Workspace.Keeps.find? (h : workspace.Keeps signatures tolerated)
    (hname : signatures name = some signature) :
    ∃ extension, workspace.functions.find? name = some extension ∧
      extension.signature = signature ∧ extension.KeepsDeclaration tolerated := by
  rw [← h.declared] at hname
  obtain ⟨extension, hfind, hsignature⟩ := Option.map_eq_some_iff.1 hname
  exact ⟨extension, hfind, hsignature, h.kept name extension hfind⟩

theorem Run.function_ok {extension : Extension}
    (h : workspace.functions.find? name = some extension) :
    (Run.function name).run.run workspace = (.ok extension, workspace) := by
  have hread : (get : Run Workspace).run.run workspace = (.ok workspace, workspace) := rfl
  unfold Run.function
  rw [Run.bind_ok hread, h]
  rfl

/-- What a call does, with the function that it finds. -/
theorem Run.call_eq {extension : Extension} {given : List Operand}
    (h : workspace.functions.find? name = some extension) :
    (Run.call name given).run.run workspace =
      ((extension.call given).result,
        Workspace.note ((extension.call given).events.map .extension)
          { workspace with
            functions := workspace.functions.register name (extension.call given).after }) := by
  unfold Run.call
  rw [Run.bind_ok (Run.function_ok h)]
  dsimp only
  cases (extension.call given).result <;> rfl

namespace Faithful

/-- The parameters of a declared function can be asked for. -/
theorem parameters (hname : signatures name = some signature) :
    Faithful signatures tolerated (Run.host.lift.parameters name) (Run.host.parameters name)
      (· = signature.parameters) := by
  refine Faithful.lift fun workspace hkeeps => ?_
  obtain ⟨extension, hfind, rfl, -⟩ := hkeeps.find? hname
  exact ⟨_, workspace, Run.bind_ok (Run.function_ok hfind), hkeeps, rfl⟩

/-- A declared function can be called with operands of the types of its parameters. -/
theorem call (hname : signatures name = some signature) {given : List Operand}
    (hgiven : operandsHaveTypes signature.parameters given = true) :
    Faithful signatures tolerated (Run.host.lift.call name given) (Run.host.call name given)
      (fun result => result.hasType signature.result = true) := by
  refine Faithful.lift fun workspace hkeeps => ?_
  obtain ⟨extension, hfind, rfl, hextension⟩ := hkeeps.find? hname
  refine ⟨_, _, Run.call_eq hfind, ?_, ?_⟩
  · refine Workspace.Keeps.note ⟨?_, ?_⟩ _
    · rw [Registry.signatures_register hfind Extension.signature_after_call, hkeeps.declared]
    · intro other found hfound
      rw [Registry.find?_register] at hfound
      split at hfound
      · cases hfound
        exact hextension.after hgiven
      · exact hkeeps.kept other found hfound
  · exact hextension.result hgiven

theorem matched (query : Query) (segment : Segment) (count : Nat) :
    Faithful signatures tolerated (Run.host.lift.matched query segment count)
      (Run.host.matched query segment count) (fun _ => True) :=
  Faithful.lift fun workspace hkeeps =>
    ⟨.ok (), workspace.note [.matched query segment count], rfl, hkeeps.note _, trivial⟩

/-- A search goes on depth first or breadth first; both ways have to be faithful. -/
theorem search {depthFirst breadthFirst : Unit → CheckedRun (List Node)}
    {depthFirst' breadthFirst' : Unit → Run (List Node)} {post : List Node → Prop}
    (hdepth : Faithful signatures tolerated (depthFirst ()) (depthFirst' ()) post)
    (hbreadth : Faithful signatures tolerated (breadthFirst ()) (breadthFirst' ()) post) :
    Faithful signatures tolerated (Run.host.lift.search depthFirst breadthFirst)
      (Run.host.search depthFirst' breadthFirst') post := by
  have htraces : Faithful signatures tolerated Run.host.lift.traces Run.host.traces
      (fun _ => True) :=
    Faithful.lift fun workspace hkeeps =>
      ⟨.ok workspace.logging, workspace, rfl, hkeeps, trivial⟩
  refine htraces.bind fun traces _ => ?_
  cases traces with
  | true => exact hbreadth
  | false => exact hdepth

end Faithful

end JsonPath
