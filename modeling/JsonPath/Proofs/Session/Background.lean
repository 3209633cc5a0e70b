import Mathlib.Data.List.Induction
import JsonPath.Proofs.Session.Ledger

/-!
# What a command works on

Of all that has been done with a ledger only little counts for a command: for a query under a name
the latest text that was compiled under it, and for an open search its opening and the nodes that
were pulled from it since. Here each step of a ledger is taken for what it adds, and for what this
means to a later command.
-/

namespace JsonPath

/-- A command, and whether the log is written meanwhile. -/
abbrev LoggedCommand := Bool × Command

namespace Command

/-- Whether the earlier command, if it succeeds, says anew what the command works on. -/
def restarts : Command → Command → Bool
  | .find name _ _, .compile other _ => other == name
  | .values name _, .compile other _ => other == name
  | .findOne name _, .compile other _ => other == name
  | .next name, .openSearch other _ _ => other == name
  | _, _ => false

/-- Whether the earlier command changes what the command works on. -/
def continues : Command → Command → Bool
  | .next name, .next other => other == name
  | _, _ => false

/-- Whether the command can be of any account for a later one. -/
def isKept : Command → Bool
  | .compile _ _ | .openSearch _ _ _ | .next _ => true
  | _ => false

theorem restarts_eq_false {earlier : Command} (h : earlier.isKept = false) (command : Command) :
    command.restarts earlier = false := by
  cases command <;> cases earlier <;> first | rfl | cases h

theorem continues_eq_false {earlier : Command} (h : ∀ name, earlier ≠ .next name)
    (command : Command) : command.continues earlier = false := by
  cases command with
  | next _ =>
    cases earlier with
    | next other => exact absurd rfl (h other)
    | _ => rfl
  | _ => rfl

/-- What counts of a history for the answer to the command, given which steps succeed. -/
def background (accepts : LoggedCommand → Bool) (command : Command) (history : List LoggedCommand) :
    List LoggedCommand :=
  history.foldl
    (fun kept step =>
      if command.restarts step.2 && accepts step then [step]
      else if command.continues step.2 then kept ++ [step]
      else kept)
    []

theorem background_concat (accepts : LoggedCommand → Bool) (command : Command)
    (history : List LoggedCommand) (step : LoggedCommand) :
    command.background accepts (history ++ [step]) =
      if command.restarts step.2 && accepts step then [step]
      else if command.continues step.2 then command.background accepts history ++ [step]
      else command.background accepts history :=
  List.foldl_concat ..

end Command

namespace Ledger

variable {frame : Frame} {command : Command} {step : LoggedCommand} {ledger ledger' : Ledger}

def reply (frame : Frame) (step : LoggedCommand) (ledger : Ledger) : Except SessionFault Reply :=
  ((perform frame step.1 step.2).run.run ledger).1

def next (frame : Frame) (step : LoggedCommand) (ledger : Ledger) : Ledger :=
  ((perform frame step.1 step.2).run.run ledger).2

def after (frame : Frame) (history : List LoggedCommand) (ledger : Ledger) : Ledger :=
  history.foldl (fun ledger step => ledger.next frame step) ledger

def empty : Ledger := ⟨[], []⟩

/-- The command works on the same in both ledgers. -/
def Agree (command : Command) (ledger ledger' : Ledger) : Prop :=
  match command with
  | .find name _ _ | .values name _ | .findOne name _ =>
    ledger.paths.find? (·.1 = name) = ledger'.paths.find? (·.1 = name)
  | .next name => ledger.cursors.find? (·.1 = name) = ledger'.cursors.find? (·.1 = name)
  | _ => True

/-- How a step ends that changes the ledger by its result, and not at all if there is none. -/
def ending {α : Type} (result : Except SessionFault α) (reply : α → Reply)
    (change : α → Ledger → Ledger) (ledger : Ledger) : Except SessionFault Reply × Ledger :=
  match result with
  | .ok a => (.ok (reply a), change a ledger)
  | .error fault => (.error fault, ledger)

theorem ending_fst {α : Type} (result : Except SessionFault α) (reply : α → Reply)
    (change : α → Ledger → Ledger) (ledger : Ledger) :
    (ending result reply change ledger).1 = result.map reply := by
  cases result <;> rfl

/-- A step that has no part in the ledger. -/
def IsApart {α : Type} (x : Step α) : Prop :=
  ∃ result, ∀ ledger, x.run.run ledger = (result, ledger)

namespace IsApart

variable {α β : Type} {x : Step α}

theorem fst (h : IsApart x) (ledger ledger' : Ledger) :
    (x.run.run ledger).1 = (x.run.run ledger').1 := by
  obtain ⟨result, hx⟩ := h
  rw [hx, hx]

theorem snd (h : IsApart x) (ledger : Ledger) : (x.run.run ledger).2 = ledger := by
  obtain ⟨result, hx⟩ := h
  rw [hx]

theorem pure (a : α) : IsApart (Pure.pure a : Step α) := ⟨.ok a, fun _ => rfl⟩

theorem bind {f : α → Step β} (h : IsApart x) (hf : ∀ a, IsApart (f a)) : IsApart (x >>= f) := by
  obtain ⟨result, hx⟩ := h
  have hrun (ledger : Ledger) : (x >>= f).run.run ledger =
      match result with
      | .ok a => (f a).run.run ledger
      | .error fault => (.error fault, ledger) := by
    rw [ExceptT.run_bind, StateT.run_bind, hx]
    cases result <;> rfl
  cases result with
  | ok a =>
    obtain ⟨result, hf⟩ := hf a
    exact ⟨result, fun ledger => (hrun ledger).trans (hf ledger)⟩
  | error fault => exact ⟨.error fault, hrun⟩

theorem run (result : Except Fault α) : IsApart (Ledger.run result) := by
  cases result with
  | ok a => exact ⟨.ok a, fun _ => rfl⟩
  | error fault => exact ⟨.error (.fault fault), fun _ => rfl⟩

theorem compile (text : Text) : IsApart (Ledger.compile frame text) := by
  unfold Ledger.compile
  cases Query.ofText frame.dialect text with
  | ok query => exact ⟨.ok query, fun _ => rfl⟩
  | error error => exact ⟨.error (.compile error), fun _ => rfl⟩

theorem entry (name : Text) (entries : List (Text × α)) :
    IsApart (Ledger.entry name entries) := by
  unfold Ledger.entry
  cases entries.find? (·.1 = name) with
  | some found => exact ⟨.ok found.2, fun _ => rfl⟩
  | none => exact ⟨.error (.fault (.unknownName name)), fun _ => rfl⟩

theorem modify (h : IsApart x) (reply : α → Reply) (change : α → Ledger → Ledger) :
    ∃ result, ∀ ledger,
      (x >>= fun a => do modify (change a); return reply a : Step Reply).run.run ledger =
        ending result reply change ledger := by
  obtain ⟨result, hx⟩ := h
  refine ⟨result, fun ledger => ?_⟩
  rw [ExceptT.run_bind, StateT.run_bind, hx]
  cases result <;> rfl

end IsApart

/-- To compile a text under a name succeeds or not whatever the ledger, and adds the query to it. -/
theorem perform_compile (frame : Frame) (logging : Bool) (name text : Text) :
    ∃ result : Except SessionFault Query, ∀ ledger,
      (perform frame logging (.compile name text)).run.run ledger = ending result .compiled
        (fun query ledger => { ledger with paths := (name, query) :: ledger.paths }) ledger :=
  (IsApart.compile text).modify _ _

theorem perform_openSearch (frame : Frame) (logging : Bool) (name text : Text) (data : Value) :
    ∃ result : Except SessionFault Cursor, ∀ ledger,
      (perform frame logging (.openSearch name text data)).run.run ledger =
        ending result (fun _ => .done)
          (fun cursor ledger => { ledger with cursors := (name, cursor) :: ledger.cursors })
          ledger := by
  rw [perform, ← bind_assoc]
  exact ((IsApart.compile text).bind fun _ => .run _).modify _ _

theorem perform_next (frame : Frame) (logging : Bool) (name : Text) (ledger : Ledger) :
    (perform frame logging (.next name)).run.run ledger =
      match ledger.cursors.find? (·.1 = name) with
      | none => (.error (.fault (.unknownName name)), ledger)
      | some (_, cursor) =>
        ending ((cursor.next (frame.host logging)).mapError .fault) (fun pulled => .node pulled.1)
          (fun pulled ledger => { ledger with cursors := (name, pulled.2) :: ledger.cursors })
          { ledger with cursors := (name, .exhausted) :: ledger.cursors } := by
  change (((entry name ledger.cursors >>= _ : Step (Option Node)) >>= _ : Step Reply)).run.run
    ledger = _
  unfold entry
  cases ledger.cursors.find? (·.1 = name) with
  | none => rfl
  | some found =>
    obtain ⟨-, cursor⟩ := found
    dsimp only
    rw [pure_bind]
    cases cursor.next (frame.host logging) with
    | ok pulled => rfl
    | error fault => rfl

section

variable {rest : Query → Step Reply} (name : Text) (hrest : ∀ query, IsApart (rest query))

include hrest

theorem snd_run_of_path (ledger : Ledger) :
    ((get >>= fun ledger => entry name ledger.paths >>= rest).run.run ledger).2 = ledger :=
  ((IsApart.entry name ledger.paths).bind hrest).snd ledger

theorem fst_run_of_path
    (h : ledger.paths.find? (·.1 = name) = ledger'.paths.find? (·.1 = name)) :
    ((get >>= fun ledger => entry name ledger.paths >>= rest).run.run ledger).1 =
      ((get >>= fun ledger => entry name ledger.paths >>= rest).run.run ledger').1 := by
  have hentry : (entry name ledger.paths : Step Query) = entry name ledger'.paths := by
    unfold entry
    rw [h]
  change ((entry name ledger.paths >>= rest).run.run ledger).1 =
    ((entry name ledger'.paths >>= rest).run.run ledger').1
  rw [hentry]
  exact ((IsApart.entry name ledger'.paths).bind hrest).fst ledger ledger'

end

/-- The answer depends on nothing but what the command works on. -/
theorem reply_congr (frame : Frame) (logging : Bool) (h : Agree command ledger ledger') :
    reply frame (logging, command) ledger = reply frame (logging, command) ledger' := by
  unfold reply
  cases command with
  | find name data root? | values name data | findOne name data =>
    exact fst_run_of_path name (fun query => (IsApart.run _).bind fun _ => .pure _) h
  | next name =>
    have hfind : ledger.cursors.find? (·.1 = name) = ledger'.cursors.find? (·.1 = name) := h
    rw [perform_next, perform_next, hfind]
    cases ledger'.cursors.find? (·.1 = name) with
    | none => rfl
    | some found => exact (ending_fst _ _ _ _).trans (ending_fst _ _ _ _).symm
  | compile name text =>
    obtain ⟨result, hrun⟩ := perform_compile frame logging name text
    rw [hrun, hrun, ending_fst, ending_fst]
  | openSearch name text data =>
    obtain ⟨result, hrun⟩ := perform_openSearch frame logging name text data
    rw [hrun, hrun, ending_fst, ending_fst]
  | findText text data =>
    have hapart : IsApart (perform frame logging (.findText text data)) :=
      (IsApart.compile text).bind fun _ => (IsApart.run _).bind fun _ => .pure _
    exact hapart.fst ledger ledger'
  | call name given =>
    have hapart : IsApart (perform frame logging (.call name given)) :=
      (IsApart.run _).bind fun _ => .pure _
    exact hapart.fst ledger ledger'
  | names | register | unregister | cache | clearCache => rfl

/-! ### What steps change -/

/-- Whether a step succeeds when the ledger is empty. -/
def succeeds (frame : Frame) (step : LoggedCommand) : Bool := reply frame step empty matches .ok _

theorem succeeds_of_ending {α : Type} {result : Except SessionFault α} {answer : α → Reply}
    {change : α → Ledger → Ledger}
    (h : ∀ ledger, (perform frame step.1 step.2).run.run ledger =
      ending result answer change ledger) :
    (∃ a, succeeds frame step = true ∧ ∀ ledger, next frame step ledger = change a ledger) ∨
      succeeds frame step = false ∧ ∀ ledger, next frame step ledger = ledger := by
  unfold succeeds reply next
  simp only [h]
  cases result with
  | ok a => exact .inl ⟨a, rfl, fun _ => rfl⟩
  | error fault => exact .inr ⟨rfl, fun _ => rfl⟩

/-- What steps do to a ledger: add a query, add a search, go on with a search, or nothing. -/
inductive Effect (frame : Frame) : LoggedCommand → Prop
  | compiles {logging : Bool} {name text : Text} {query : Query} :
      succeeds frame (logging, .compile name text) = true →
      (∀ ledger, next frame (logging, .compile name text) ledger =
        { ledger with paths := (name, query) :: ledger.paths }) →
      Effect frame (logging, .compile name text)
  | opens {logging : Bool} {name text : Text} {data : Value} {cursor : Cursor} :
      succeeds frame (logging, .openSearch name text data) = true →
      (∀ ledger, next frame (logging, .openSearch name text data) ledger =
        { ledger with cursors := (name, cursor) :: ledger.cursors }) →
      Effect frame (logging, .openSearch name text data)
  | pulls {logging : Bool} {name : Text} : Effect frame (logging, .next name)
  | nothing {step : LoggedCommand} :
      (∀ command, (Command.restarts command step.2 && succeeds frame step) = false) →
      (∀ command, Command.continues command step.2 = false) →
      (∀ ledger, next frame step ledger = ledger) → Effect frame step

theorem effect (frame : Frame) (step : LoggedCommand) : Effect frame step := by
  obtain ⟨logging, command⟩ := step
  have hunkept {earlier : Command} (hkept : earlier.isKept = false)
      (hnext : ∀ ledger, next frame (logging, earlier) ledger = ledger) :
      Effect frame (logging, earlier) := by
    refine .nothing (fun command => ?_) (Command.continues_eq_false ?_) hnext
    · exact congrArg (· && _) (Command.restarts_eq_false hkept command)
    · rintro name rfl
      cases hkept
  cases command with
  | compile name text =>
    obtain ⟨result, hrun⟩ := perform_compile frame logging name text
    rcases @succeeds_of_ending frame (logging, .compile name text) _ _ _ _ hrun with
      ⟨query, hsucceeds, hnext⟩ | ⟨hfails, hnext⟩
    · exact .compiles hsucceeds hnext
    · refine .nothing (fun _ => ?_) (Command.continues_eq_false nofun) hnext
      rw [hfails, Bool.and_false]
  | openSearch name text data =>
    obtain ⟨result, hrun⟩ := perform_openSearch frame logging name text data
    rcases @succeeds_of_ending frame (logging, .openSearch name text data) _ _ _ _ hrun with
      ⟨cursor, hsucceeds, hnext⟩ | ⟨hfails, hnext⟩
    · exact .opens hsucceeds hnext
    · refine .nothing (fun _ => ?_) (Command.continues_eq_false nofun) hnext
      rw [hfails, Bool.and_false]
  | next name => exact .pulls
  | find name data root? | values name data | findOne name data =>
    exact hunkept rfl (snd_run_of_path name fun query => (IsApart.run _).bind fun _ => .pure _)
  | findText text data =>
    refine hunkept rfl (IsApart.snd ?_)
    exact (IsApart.compile text).bind fun _ => (IsApart.run _).bind fun _ => .pure _
  | call name given =>
    refine hunkept rfl (IsApart.snd ?_)
    exact (IsApart.run _).bind fun _ => .pure _
  | names | register | unregister | cache | clearCache => exact hunkept rfl fun _ => rfl

/-! ### What steps change for a command -/

theorem find?_cons_of_ne {α : Type} {name other : Text} (h : other ≠ name) (a : α)
    (entries : List (Text × α)) :
    ((other, a) :: entries).find? (·.1 = name) = entries.find? (·.1 = name) :=
  List.find?_cons_of_neg (by simpa using h)

theorem find?_cons_self {α : Type} (name : Text) (a : α) (entries : List (Text × α)) :
    ((name, a) :: entries).find? (·.1 = name) = some (name, a) :=
  List.find?_cons_of_pos (by simp)

theorem Agree.refl (command : Command) (ledger : Ledger) : Agree command ledger ledger := by
  cases command <;> first | rfl | trivial

theorem Agree.trans {ledger'' : Ledger} (h : Agree command ledger ledger')
    (h' : Agree command ledger' ledger'') : Agree command ledger ledger'' := by
  cases command <;> first | exact Eq.trans h h' | trivial

/-- To pull from a search leaves the queries as they are, and all other searches. -/
theorem next_pulls (frame : Frame) (logging : Bool) (name : Text) (ledger : Ledger) :
    (next frame (logging, .next name) ledger).paths = ledger.paths ∧
      ∀ other, name ≠ other →
        (next frame (logging, .next name) ledger).cursors.find? (·.1 = other) =
          ledger.cursors.find? (·.1 = other) := by
  unfold next
  rw [perform_next]
  cases ledger.cursors.find? (·.1 = name) with
  | none => exact ⟨rfl, fun _ _ => rfl⟩
  | some found =>
    obtain ⟨-, cursor⟩ := found
    dsimp only
    cases (cursor.next (frame.host logging)).mapError SessionFault.fault with
    | error fault => exact ⟨rfl, fun other hother => find?_cons_of_ne hother _ _⟩
    | ok pulled =>
      refine ⟨rfl, fun other hother => ?_⟩
      exact (find?_cons_of_ne hother _ _).trans (find?_cons_of_ne hother _ _)

/-- A step that neither says anew what a command works on nor changes it leaves it as it is. -/
theorem agree_next (hrestarts : (command.restarts step.2 && succeeds frame step) = false)
    (hcontinues : command.continues step.2 = false) (ledger : Ledger) :
    Agree command (next frame step ledger) ledger := by
  cases effect frame step with
  | @compiles logging name text query hsucceeds hnext =>
    rw [hsucceeds, Bool.and_true] at hrestarts
    rw [hnext]
    cases command with
    | find other | values other | findOne other =>
      have hne : name ≠ other := ne_of_beq_false hrestarts
      exact find?_cons_of_ne hne query ledger.paths
    | _ => first | rfl | trivial
  | @opens logging name text data cursor hsucceeds hnext =>
    rw [hsucceeds, Bool.and_true] at hrestarts
    rw [hnext]
    cases command with
    | next other =>
      have hne : name ≠ other := ne_of_beq_false hrestarts
      exact find?_cons_of_ne hne cursor ledger.cursors
    | _ => first | rfl | trivial
  | @pulls logging name =>
    obtain ⟨hpaths, hcursors⟩ := next_pulls frame logging name ledger
    cases command with
    | find other | values other | findOne other => exact congrArg (List.find? _) hpaths
    | next other =>
      have hne : name ≠ other := ne_of_beq_false hcontinues
      exact hcursors other hne
    | _ => trivial
  | nothing _ _ hnext =>
    rw [hnext]
    exact .refl command ledger

/-- After a step that says anew what a command works on nothing else counts. -/
theorem agree_of_restarts (hrestarts : command.restarts step.2 = true)
    (hsucceeds : succeeds frame step = true) (ledger ledger' : Ledger) :
    Agree command (next frame step ledger) (next frame step ledger') := by
  cases effect frame step with
  | @compiles logging name text query _ hnext =>
    rw [hnext, hnext]
    cases command with
    | find other | values other | findOne other =>
      obtain rfl : name = other := eq_of_beq hrestarts
      exact (find?_cons_self name query _).trans (find?_cons_self name query _).symm
    | _ => cases hrestarts
  | @opens logging name text data cursor _ hnext =>
    rw [hnext, hnext]
    cases command with
    | next other =>
      obtain rfl : name = other := eq_of_beq hrestarts
      exact (find?_cons_self name cursor _).trans (find?_cons_self name cursor _).symm
    | _ => cases hrestarts
  | pulls => cases command <;> cases hrestarts
  | nothing hnone _ _ =>
    have hrestarts' := hnone command
    rw [hrestarts, hsucceeds] at hrestarts'
    cases hrestarts'

/-- A step that changes what a command works on changes it in the same way in both ledgers. -/
theorem agree_of_continues (hcontinues : command.continues step.2 = true)
    (h : Agree command ledger ledger') :
    Agree command (next frame step ledger) (next frame step ledger') := by
  obtain ⟨logging, earlier⟩ := step
  cases command with
  | next name =>
    cases earlier with
    | next other =>
      obtain rfl : other = name := eq_of_beq hcontinues
      have hfind : ledger.cursors.find? (·.1 = other) = ledger'.cursors.find? (·.1 = other) := h
      change List.find? _ (next frame (logging, .next other) ledger).cursors =
        List.find? _ (next frame (logging, .next other) ledger').cursors
      unfold next
      rw [perform_next, perform_next, hfind]
      cases ledger'.cursors.find? (·.1 = other) with
      | none => exact hfind
      | some found =>
        obtain ⟨-, cursor⟩ := found
        dsimp only
        cases (cursor.next (frame.host logging)).mapError SessionFault.fault with
        | error fault => exact (find?_cons_self other _ _).trans (find?_cons_self other _ _).symm
        | ok pulled => exact (find?_cons_self other _ _).trans (find?_cons_self other _ _).symm
    | _ => cases hcontinues
  | _ => cases earlier <;> cases hcontinues

theorem after_concat (frame : Frame) (history : List LoggedCommand) (step : LoggedCommand)
    (ledger : Ledger) :
    after frame (history ++ [step]) ledger = next frame step (after frame history ledger) :=
  List.foldl_concat ..

/-- For what a command works on, the background of the command is as good as the history. -/
theorem agree_background (frame : Frame) (command : Command) (history : List LoggedCommand) :
    Agree command (after frame history empty)
      (after frame (command.background (succeeds frame) history) empty) := by
  -- From the end, because the last step decides whether those before it count.
  induction history using List.reverseRecOn with
  | nil => exact .refl command empty
  | append_singleton history step ih =>
    rw [Command.background_concat, after_concat]
    split
    next hrestarts =>
      obtain ⟨hrestarts, hsucceeds⟩ := Bool.and_eq_true_iff.1 hrestarts
      exact agree_of_restarts hrestarts hsucceeds _ _
    next hrestarts =>
      split
      next hcontinues =>
        rw [after_concat]
        exact agree_of_continues hcontinues ih
      next hcontinues =>
        have hsame := agree_next (eq_false_of_ne_true hrestarts) (eq_false_of_ne_true hcontinues)
          (after frame history empty)
        exact hsame.trans ih

end Ledger

end JsonPath
