import Mathlib
import JsonPath.Proofs.Session.Background

/-!
# What answers depend on

A session answers a command as a new session does in which nothing has been done but the background
of the command, whatever the sizes of the caches in the two.
-/

namespace JsonPath

def Session.after (history : List LoggedCommand) (session : Session) : Session :=
  history.foldl (fun session step => (session.answer step.1 step.2).2) session

namespace Environment

/-- The environment with empty caches of the given sizes. -/
def renewed (sizes : Text → Nat) (environment : Environment) : Environment :=
  { environment with
    functions := environment.functions.map fun entry =>
      (entry.1, entry.2.renewed (sizes entry.1)) }

/-- Whether a step succeeds when it is the first one in the environment. -/
def accepts (environment : Environment) (step : LoggedCommand) : Bool :=
  ((Session.start environment).answer step.1 step.2).1 matches .ok _

end Environment

/-! ### Environments with empty caches -/

namespace Environment

variable {environment : Environment} {sizes : Text → Nat}

theorem find?_renewed (environment : Environment) (sizes : Text → Nat) (name : Text) :
    (environment.renewed sizes).functions.find? name =
      (environment.functions.find? name).map (·.renewed (sizes name)) := by
  unfold renewed
  induction environment.functions with
  | nil => rfl
  | cons entry rest ih =>
    obtain ⟨other, extension⟩ := entry
    by_cases hother : other = name
    · subst hother
      simp [Registry.find?, List.find?_cons_of_pos]
    · simpa [Registry.find?, List.find?_cons_of_neg, hother] using ih

/-- The frame of an environment, in which the sizes of caches have no part. -/
def frame (environment : Environment) : Frame :=
  ⟨environment.leastIndex, environment.greatestIndex,
    fun name => (environment.functions.find? name).map fun extension => (extension.renewed 0).rule,
    environment.functions.names⟩

end Environment

/-- The function goes by the rule, and its cache is sound. -/
def Extension.Keeps (rule : Rule) (extension : Extension) : Prop :=
  extension.rule = rule ∧ extension.Sound

namespace Session

variable {environment : Environment} {frame : Frame} {logging : Bool} {ledger : Ledger}
  {session : Session}

/-- A new session starts with an empty ledger. -/
theorem start_follows (environment : Environment) (sizes : Text → Nat) :
    (start (environment.renewed sizes)).Follows Extension.Keeps environment.frame false .empty := by
  refine ⟨rfl, rfl, ⟨fun name => ?_, ?_, rfl⟩, rfl, rfl⟩
  · change Option.Rel _ ((environment.functions.find? name).map _)
      ((environment.renewed sizes).functions.find? name)
    rw [environment.find?_renewed]
    cases environment.functions.find? name with
    | none => exact .none
    | some extension =>
      have hsound := extension.sound_renewed (sizes name)
      have hrenewed : (extension.renewed (sizes name)).renewed 0 = extension.renewed 0 := by
        obtain ⟨label, signature, _ | _⟩ := extension <;> rfl
      refine .some ⟨?_, hsound⟩
      change (extension.renewed (sizes name)).rule = (extension.renewed 0).rule
      rw [← hrenewed]
      exact (hsound.rule_renewed 0).symm
  · exact (List.map_map ..).trans rfl

/-! ### Steps that deal with caches -/

/-- A step in which the ledger has no part, and whose results have a property. -/
def Step.Keeps (frame : Frame) {α : Type} (x : Step α) (post : α → Prop) : Prop :=
  ∀ (logging : Bool) (session : Session) (ledger : Ledger),
    session.Follows Extension.Keeps frame logging ledger →
      (x.run.run session).2.Follows Extension.Keeps frame logging ledger ∧
        ∀ a, (x.run.run session).1 = .ok a → post a

namespace Step.Keeps

variable {α β : Type} {x : Step α} {post : α → Prop} {post' : β → Prop}

theorem pure {a : α} (h : post a) : Keeps frame (Pure.pure a) post := by
  intro logging session ledger hsession
  refine ⟨hsession, ?_⟩
  rintro _ ⟨⟩
  exact h

theorem throw (fault : SessionFault) : Keeps frame (throwThe SessionFault fault) post := by
  intro logging session ledger hsession
  refine ⟨hsession, ?_⟩
  rintro _ ⟨⟩

theorem bind {f : α → Step β} (h : Keeps frame x post)
    (hf : ∀ a, post a → Keeps frame (f a) post') : Keeps frame (x >>= f) post' := by
  intro logging session ledger hsession
  obtain ⟨hafter, hpost⟩ := h logging session ledger hsession
  rw [ExceptT.run_bind, StateT.run_bind]
  rcases hrun : x.run.run session with ⟨fault | a, after⟩
  · rw [hrun] at hafter
    refine ⟨hafter, ?_⟩
    rintro _ ⟨⟩
  · rw [hrun] at hafter hpost
    exact hf a (hpost a rfl) logging after ledger hafter

theorem function (name : Text) : Keeps frame (Session.run (Run.function name))
    fun extension => ∃ rule, frame.rules name = some rule ∧ extension.Keeps rule := by
  intro logging session ledger hsession
  have hread : (get : Step Session).run.run session = (.ok session, session) := rfl
  unfold Session.run
  rw [Step.Follows.bind_ok hread]
  rcases hsession.workspace.lookup name with
    ⟨hrule, hfind⟩ | ⟨rule, extension, hrule, hfind, hkeeps⟩
  · rw [Run.Follows.function_error hfind]
    refine ⟨hsession, ?_⟩
    rintro _ ⟨⟩
  · rw [Run.function_ok hfind]
    refine ⟨hsession, ?_⟩
    rintro _ ⟨⟩
    exact ⟨rule, hrule, hkeeps⟩

theorem cacheOf (name : Text) : Keeps frame (Session.cacheOf name) fun _ => True := by
  refine (function name).bind fun extension _ => ?_
  cases extension.cache? with
  | some cache => exact .pure trivial
  | none => exact .throw _

/-- A function can be exchanged for another that goes by the rule of its name. -/
theorem register {name : Text} {rule : Rule} {extension : Extension}
    (hrule : frame.rules name = some rule) (hkeeps : extension.Keeps rule) :
    Keeps frame (changeFunctions (·.register name extension)) fun _ => True := by
  intro logging session ledger hsession
  refine ⟨⟨hsession.leastIndex, hsession.greatestIndex, ?_, hsession.paths, hsession.cursors⟩,
    fun _ _ => trivial⟩
  rcases hsession.workspace.lookup name with ⟨hnone, -⟩ | ⟨_, former, -, hfind, -⟩
  · cases hrule.symm.trans hnone
  · exact hsession.workspace.register hrule hfind hkeeps

theorem perform {command : Command} (hsteady : command.isSteady = true)
    (hcommand : command.isAnswered = false) :
    Keeps frame (Session.perform command) fun _ => True := by
  cases command with
  | cache name => exact (cacheOf name).bind fun _ _ => .pure trivial
  | clearCache name =>
    have hdiscard : Keeps frame (discard (Session.cacheOf name)) fun _ => True :=
      (cacheOf name).bind fun _ _ => .pure trivial
    refine hdiscard.bind fun _ _ => (function name).bind ?_
    rintro extension ⟨rule, hrule, rfl, hsound⟩
    obtain ⟨hcleared, hsame⟩ := hsound.clearCache
    exact (register hrule ⟨hsame, hcleared⟩).bind fun _ _ => .pure trivial
  | register | unregister => cases hsteady
  | compile | find | findText | values | findOne | openSearch | next | names | call =>
    cases hcommand

end Step.Keeps

/-! ### Histories -/

/-- A step that leaves all functions in place is one of the ledger, and the answer that of the
ledger if caches have no part in it. -/
theorem Follows.answer (h : session.Follows Extension.Keeps frame logging ledger)
    {step : LoggedCommand} (hsteady : step.2.isSteady = true) :
    (session.answer step.1 step.2).2.Follows Extension.Keeps frame step.1 (ledger.next frame step) ∧
      (step.2.isAnswered = true → (session.answer step.1 step.2).1 = ledger.reply frame step) := by
  obtain ⟨logging', command⟩ := step
  have hprepared := h.prepare logging'
  cases hcommand : command.isAnswered with
  | true =>
    obtain ⟨after, hrun, hafter⟩ :=
      Step.Follows.perform Extension.Sound.lasting command hcommand _ _ hprepared
    unfold Session.answer
    rw [hrun]
    exact ⟨hafter, fun _ => rfl⟩
  | false =>
    -- What is left deals with a cache, and the ledger has none.
    have hnext : ledger.next frame (logging', command) = ledger := by
      cases command <;> first | rfl | cases hcommand
    rw [hnext]
    exact ⟨(Step.Keeps.perform hsteady hcommand logging' _ ledger hprepared).1, nofun⟩

theorem Follows.after {history : List LoggedCommand}
    (h : session.Follows Extension.Keeps frame logging ledger)
    (hsteady : ∀ step ∈ history, step.2.isSteady = true) :
    ∃ logging', (session.after history).Follows Extension.Keeps frame logging'
      (ledger.after frame history) := by
  induction history generalizing session logging ledger with
  | nil => exact ⟨logging, h⟩
  | cons step rest ih =>
    obtain ⟨hstep, hrest⟩ := List.forall_mem_cons.1 hsteady
    exact ih (h.answer hstep).1 hrest

end Session

namespace Command

variable {accepts accepts' : LoggedCommand → Bool} {command : Command}

theorem mem_of_mem_background {history : List LoggedCommand} {step : LoggedCommand}
    (h : step ∈ command.background accepts history) : step ∈ history := by
  induction history using List.reverseRecOn with
  | nil => exact h
  | append_singleton history last ih =>
    rw [background_concat] at h
    rw [List.mem_append]
    split at h
    · exact .inr h
    · split at h
      · exact (List.mem_append.1 h).imp ih id
      · exact .inl (ih h)

/-- To succeed counts only of commands that have an answer. -/
theorem background_congr
    (h : ∀ step : LoggedCommand, step.2.isAnswered = true → accepts step = accepts' step)
    (history : List LoggedCommand) :
    command.background accepts history = command.background accepts' history := by
  have hsame (step : LoggedCommand) :
      (command.restarts step.2 && accepts step) = (command.restarts step.2 && accepts' step) := by
    cases hanswered : step.2.isAnswered with
    | true => rw [h step hanswered]
    | false =>
      have hkept : step.2.isKept = false := by
        obtain ⟨logging, earlier⟩ := step
        cases earlier <;> first | rfl | cases hanswered
      rw [restarts_eq_false hkept, Bool.false_and, Bool.false_and]
  unfold background
  simp only [hsame]

end Command

namespace Session

theorem accepts_eq (environment : Environment) (sizes : Text → Nat) {step : LoggedCommand}
    (h : step.2.isAnswered = true) :
    (environment.renewed sizes).accepts step = Ledger.succeeds environment.frame step := by
  have hsteady : step.2.isSteady = true := by
    obtain ⟨logging, command⟩ := step
    cases command <;> first | rfl | cases h
  have hreply := ((start_follows environment sizes).answer hsteady).2 h
  unfold Environment.accepts Ledger.succeeds
  exact congrArg (fun reply => reply matches .ok _) hreply

/-- **Answers do not depend on caches.** After any history a command is answered as it is in a new
session in which nothing has been done but the background of the command, and the sizes of the
caches in the two sessions make no difference. -/
theorem answer_of_history (environment : Environment) (sizes sizes' : Text → Nat)
    (history : List LoggedCommand) (hsteady : ∀ step ∈ history, step.2.isSteady = true)
    (logging : Bool) (command : Command) (hcommand : command.isAnswered = true) :
    (((start (environment.renewed sizes)).after history).answer logging command).1 =
      (((start (environment.renewed sizes')).after
        (command.background (environment.renewed sizes').accepts history)).answer logging
          command).1 := by
  have hbackground : command.background (environment.renewed sizes').accepts history =
      command.background (Ledger.succeeds environment.frame) history :=
    Command.background_congr (fun step => accepts_eq environment sizes') history
  have hkept : ∀ step ∈ command.background (Ledger.succeeds environment.frame) history,
      step.2.isSteady = true := fun step hstep => hsteady step (Command.mem_of_mem_background hstep)
  have hlast : command.isSteady = true := by
    cases command <;> first | rfl | cases hcommand
  obtain ⟨_, hwhole⟩ := (start_follows environment sizes).after hsteady
  obtain ⟨_, hpart⟩ := (start_follows environment sizes').after hkept
  rw [hbackground]
  calc (((start (environment.renewed sizes)).after history).answer logging command).1
    _ = (Ledger.after environment.frame history .empty).reply environment.frame
          (logging, command) := (@Follows.answer _ _ _ _ hwhole (logging, command) hlast).2 hcommand
    _ = (Ledger.after environment.frame (command.background (Ledger.succeeds environment.frame)
          history) .empty).reply environment.frame (logging, command) :=
      Ledger.reply_congr _ logging (Ledger.agree_background _ command history)
    _ = _ := ((@Follows.answer _ _ _ _ hpart (logging, command) hlast).2 hcommand).symm

/-- A search over whose pattern another one is compiled, in a cache that has room for one. -/
theorem answer_of_history_match :
    let data := Value.array [.string "b", .string "a"]
    let search : LoggedCommand := (false, .openSearch "s" "$[?match(@, 'a')]" data)
    let history : List LoggedCommand := [search, (false, .clearCache "match"),
      (true, .call "match" [.value (.string "c"), .value (.string "c")])]
    let cached := start (Environment.standard.renewed fun _ => 1)
    let uncached := start (Environment.standard.renewed fun _ => 0)
    (∀ step ∈ history, step.2.isSteady = true) ∧
      ((cached.after history).answer false (.next "s")).1 =
        ((uncached.after [search]).answer false (.next "s")).1 ∧
      ((cached.after history).answer false (.next "s")).1 =
        .ok (.node (some ⟨.string "a", [.index 1], data⟩)) := by
  have hnode : (((start (Environment.standard.renewed fun _ => 0)).after
      [(false, .openSearch "s" "$[?match(@, 'a')]" (.array [.string "b", .string "a"]))]).answer
        false (.next "s")).1 =
      .ok (.node (some ⟨.string "a", [.index 1], .array [.string "b", .string "a"]⟩)) := by cbv
  intro data search history cached uncached
  have hsteady : ∀ step ∈ history, step.2.isSteady = true := by
    simp [history, search, Command.isSteady]
  have haccepts : (Environment.standard.renewed fun _ => 0).accepts search = true := by cbv
  have hbackground : (Command.next "s").background
      (Environment.standard.renewed fun _ => 0).accepts history = [search] := by
    simp [Command.background, Command.restarts, Command.continues, history, search] at haccepts ⊢
    exact haccepts
  have hanswer := answer_of_history Environment.standard (fun _ => 1) (fun _ => 0) history hsteady
    false (.next "s") rfl
  rw [hbackground] at hanswer
  exact ⟨hsteady, hanswer, hanswer.trans hnode⟩

end Session

end JsonPath
