import JsonPath.Proofs.Evaluation.Related
import JsonPath.Proofs.Extension.Rules

/-!
# Runs with functions as rules

Where functions go by rules, an evaluation with the registered functions comes to what it comes to
with the rules in their place, result or fault. Whatever it leaves in the caches and in the log, the
functions go by the same rules after it.
-/

namespace JsonPath

/-- What no run changes: the rules of the functions, their names, and whether the log is written. -/
structure Setting where
  rules : Rules
  names : List Text
  logging : Bool

/-- The host that goes by rules and has nothing that changes. -/
def Rules.host (rules : Rules) (traces : Bool) : Host (Except Fault) where
  traces := return traces
  matched _ _ _ := return ()
  parameters name :=
    match rules name with
    | some rule => return rule.signature.parameters
    | none => throw (.unknownName name)
  call name given :=
    match rules name with
    | some rule => rule.apply given
    | none => throw (.unknownName name)

/-- The functions of the workspace go by the rules of the setting. -/
structure Workspace.Follows (P : Rule → Extension → Prop) (setting : Setting)
    (workspace : Workspace) : Prop where
  functions : ∀ name, Option.Rel P (setting.rules name) (workspace.functions.find? name)
  names : workspace.functions.names = setting.names
  logging : workspace.logging = setting.logging

def Workspace.setting (workspace : Workspace) : Setting :=
  ⟨workspace.functions.rules, workspace.functions.names, workspace.logging⟩

/-- In any workspace of the setting the computation comes to the given result or fault, and leaves a
workspace of the setting. -/
def Run.Follows (P : Rule → Extension → Prop) (setting : Setting) (α : Type) (x : Run α)
    (y : Except Fault α) : Prop :=
  ∀ workspace : Workspace, workspace.Follows P setting →
    ∃ after, x.run.run workspace = (y, after) ∧ after.Follows P setting

variable {P : Rule → Extension → Prop} {setting : Setting} {workspace : Workspace}

/-! ### Workspaces -/

theorem Registry.names_register {registry : Registry} {name : Text} {former : Extension}
    (h : registry.find? name = some former) (extension : Extension) :
    (registry.register name extension).names = registry.names := by
  induction registry with
  | nil => cases h
  | cons entry rest ih =>
    obtain ⟨other, old⟩ := entry
    unfold register
    by_cases hother : other = name
    · rw [if_pos hother, hother]
      rfl
    · rw [if_neg hother]
      have hrest : Registry.find? name rest = some former := by
        simpa [find?, List.find?_cons_of_neg, hother] using h
      exact congrArg (other :: ·) (ih hrest)

namespace Workspace.Follows

/-- A name has a rule and a function that goes by it, or neither. -/
theorem lookup (h : workspace.Follows P setting) (name : Text) :
    (setting.rules name = none ∧ workspace.functions.find? name = none) ∨
      ∃ rule extension, setting.rules name = some rule ∧
        workspace.functions.find? name = some extension ∧ P rule extension := by
  have hrel := h.functions name
  generalize setting.rules name = rule? at hrel ⊢
  generalize workspace.functions.find? name = extension? at hrel ⊢
  cases hrel with
  | none => exact .inl ⟨rfl, rfl⟩
  | some hrel => exact .inr ⟨_, _, rfl, rfl, hrel⟩

theorem note (h : workspace.Follows P setting) (notices : List Notice) :
    (workspace.note notices).Follows P setting := by
  unfold Workspace.note
  split
  · exact ⟨h.functions, h.names, h.logging⟩
  · exact h

theorem register (h : workspace.Follows P setting) {name : Text} {rule : Rule}
    {extension after : Extension} (hrule : setting.rules name = some rule)
    (hfind : workspace.functions.find? name = some extension) (hafter : P rule after) :
    Follows P setting
      { workspace with functions := workspace.functions.register name after } := by
  refine ⟨fun other => ?_, ?_, h.logging⟩
  · rw [Registry.find?_register]
    split
    next heq =>
      rw [← heq, hrule]
      exact .some hafter
    next => exact h.functions other
  · rw [Registry.names_register hfind, h.names]

/-- A workspace follows its own setting, if all functions in it have the property. -/
theorem self {Q : Extension → Prop}
    (h : ∀ name extension, workspace.functions.find? name = some extension → Q extension) :
    workspace.Follows (fun rule extension => extension.rule = rule ∧ Q extension)
      workspace.setting := by
  refine ⟨fun name => ?_, rfl, rfl⟩
  change Option.Rel _ ((workspace.functions.find? name).map Extension.rule) _
  cases hfind : workspace.functions.find? name with
  | none => exact .none
  | some extension => exact .some ⟨rfl, h name extension hfind⟩

end Workspace.Follows

/-! ### Runs -/

namespace Run.Follows

theorem respects : Respects (Run.Follows P setting) where
  pure a := fun workspace h => ⟨workspace, rfl, h⟩
  bind := by
    intro α β x y f g hx hf workspace h
    obtain ⟨after, hrun, hafter⟩ := hx workspace h
    cases y with
    | error fault => exact ⟨after, bind_error hrun, hafter⟩
    | ok a =>
      obtain ⟨last, hrun', hlast⟩ := hf a after hafter
      exact ⟨last, (bind_ok hrun).trans hrun', hlast⟩

theorem function_error {name : Text} (h : workspace.functions.find? name = none) :
    (Run.function name).run.run workspace = (.error (.unknownName name), workspace) := by
  have hread : (get : Run Workspace).run.run workspace = (.ok workspace, workspace) := rfl
  unfold Run.function
  rw [bind_ok hread, h]
  rfl

theorem traces :
    Run.Follows P setting Bool Run.host.traces ((setting.rules.host setting.logging).traces) := by
  intro workspace h
  refine ⟨workspace, ?_, h⟩
  rw [← h.logging]
  rfl

theorem parameters (hP : Lasting P) (name : Text) :
    Run.Follows P setting _ (Run.host.parameters name)
      ((setting.rules.host setting.logging).parameters name) := by
  intro workspace h
  refine ⟨workspace, ?_, h⟩
  unfold Rules.host
  rcases h.lookup name with ⟨hrule, hfind⟩ | ⟨rule, extension, hrule, hfind, hrel⟩
  · dsimp only
    rw [hrule]
    exact bind_error (function_error hfind)
  · dsimp only
    rw [hrule, ← hP.rule hrel]
    exact bind_ok (Run.function_ok hfind)

theorem call (hP : Lasting P) (name : Text) (given : List Operand) :
    Run.Follows P setting _ (Run.host.call name given)
      ((setting.rules.host setting.logging).call name given) := by
  intro workspace h
  unfold Rules.host
  rcases h.lookup name with ⟨hrule, hfind⟩ | ⟨rule, extension, hrule, hfind, hrel⟩
  · dsimp only
    rw [hrule]
    exact ⟨workspace, bind_error (function_error hfind), h⟩
  · have hcall : (Run.call name given).run.run workspace = _ := Run.call_eq hfind
    have hafter := (h.register hrule hfind (hP.after hrel given)).note
      ((extension.call given).events.map .extension)
    dsimp only
    rw [hrule, ← hP.rule hrel]
    exact ⟨_, hcall, hafter⟩

theorem host (hP : Lasting P) :
    Run.host.Related (Run.Follows P setting) (setting.rules.host setting.logging) :=
  .of_traces respects traces
    (fun query segment count workspace h =>
      ⟨workspace.note [.matched query segment count], rfl, h.note _⟩)
    (parameters hP) (call hP)

end Run.Follows

end JsonPath
