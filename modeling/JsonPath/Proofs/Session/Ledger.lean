import JsonPath.Proofs.Evaluation.Simulation
import JsonPath.Session

/-!
# Sessions without caches and logs

A ledger keeps what the commands of a session can refer to, the compiled queries and the open
searches, and nothing else. Where the functions of a session go by rules, the session answers each
command as its ledger does, for which there are only the rules.
-/

namespace JsonPath

/-- The compiled queries and the open searches of a session, the latest first. -/
structure Ledger where
  paths : List (Text × Query)
  cursors : List (Text × Cursor)

/-- What no command of a session changes, as long as none exchanges a function. -/
structure Frame where
  leastIndex : Int
  greatestIndex : Int
  rules : Rules
  names : List Text

namespace Frame

def setting (frame : Frame) (logging : Bool) : Setting := ⟨frame.rules, frame.names, logging⟩

def dialect (frame : Frame) : Dialect :=
  ⟨frame.leastIndex, frame.greatestIndex, fun name => (frame.rules name).map (·.signature)⟩

def host (frame : Frame) (logging : Bool) : Host (Except Fault) := frame.rules.host logging

end Frame

namespace Ledger

abbrev Step := ExceptT SessionFault (StateM Ledger)

/-- The result of a computation that has no part in the ledger. -/
def run {α : Type} : Except Fault α → Step α
  | .ok a => return a
  | .error fault => throw (.fault fault)

def compile (frame : Frame) (text : Text) : Step Query :=
  match Query.ofText frame.dialect text with
  | .ok query => return query
  | .error error => throw (.compile error)

def entry {α : Type} (name : Text) (entries : List (Text × α)) : Step α :=
  match entries.find? (·.1 = name) with
  | some (_, a) => return a
  | none => throw (.fault (.unknownName name))

def pull (frame : Frame) (logging : Bool) (name : Text) : Step (Option Node) := do
  let cursor ← entry name (← get).cursors
  modify fun ledger => { ledger with cursors := (name, .exhausted) :: ledger.cursors }
  let (node?, cursor) ← run (cursor.next (frame.host logging))
  modify fun ledger => { ledger with cursors := (name, cursor) :: ledger.cursors }
  return node?

/-- Carries out a command. Those that deal with functions or their caches do nothing here. -/
def perform (frame : Frame) (logging : Bool) : Command → Step Reply
  | .compile name text => do
    let query ← compile frame text
    modify fun ledger => { ledger with paths := (name, query) :: ledger.paths }
    return .compiled query
  | .find name data root? => do
    let query ← entry name (← get).paths
    return .nodes (← run (query.evaluate (frame.host logging) (Node.start data root?)))
  | .findText text data => do
    let query ← compile frame text
    return .nodes (← run (query.evaluate (frame.host logging) (Node.start data none)))
  | .values name data => do
    let query ← entry name (← get).paths
    let nodes ← run (query.evaluate (frame.host logging) (Node.start data none))
    return .values (nodes.map (·.value))
  | .findOne name data => do
    let query ← entry name (← get).paths
    return .node (← run (query.first? (frame.host logging) (Node.start data none)))
  | .openSearch name text data => do
    let query ← compile frame text
    let cursor ← run (Cursor.ofQuery (frame.host logging) query (Node.start data none))
    modify fun ledger => { ledger with cursors := (name, cursor) :: ledger.cursors }
    return .done
  | .next name => return .node (← pull frame logging name)
  | .names => return .names frame.names
  | .call name given => return .result (← run ((frame.host logging).call name given))
  | _ => return .done

end Ledger

namespace Command

/-- Whether the command leaves all functions in place. -/
def isSteady : Command → Bool
  | .register _ _ | .unregister _ => false
  | _ => true

/-- Whether the command has an answer in which caches have no part. -/
def isAnswered : Command → Bool
  | .register _ _ | .unregister _ | .cache _ | .clearCache _ => false
  | _ => true

end Command

/-- The session has the ledger, and its functions go by the rules of the frame. -/
structure Session.Follows (P : Rule → Extension → Prop) (frame : Frame) (logging : Bool)
    (ledger : Ledger) (session : Session) : Prop where
  leastIndex : session.leastIndex = frame.leastIndex
  greatestIndex : session.greatestIndex = frame.greatestIndex
  workspace : session.workspace.Follows P (frame.setting logging)
  paths : session.paths = ledger.paths
  cursors : session.cursors = ledger.cursors

/-- In any session that has a ledger, the step comes to the same as the step of the ledger, and
leaves a session that has the ledger after it. -/
def Session.Step.Follows (P : Rule → Extension → Prop) (frame : Frame) (logging : Bool) (α : Type)
    (x : Session.Step α) (y : Ledger.Step α) : Prop :=
  ∀ session ledger, Session.Follows P frame logging ledger session →
    ∃ after, x.run.run session = ((y.run.run ledger).1, after) ∧
      Session.Follows P frame logging (y.run.run ledger).2 after

namespace Session

variable {P : Rule → Extension → Prop} {frame : Frame} {logging : Bool} {ledger : Ledger}
  {session : Session}

theorem Follows.prepare (h : session.Follows P frame logging ledger) (logging' : Bool) :
    (session.prepare logging').Follows P frame logging' ledger :=
  ⟨h.leastIndex, h.greatestIndex, ⟨h.workspace.functions, h.workspace.names, rfl⟩, h.paths,
    h.cursors⟩

theorem Follows.dialect (hP : Lasting P) (h : session.Follows P frame logging ledger) :
    session.environment.dialect = frame.dialect := by
  have hsignatures : session.workspace.functions.signatures =
      fun name => (frame.rules name).map (·.signature) := by
    funext name
    unfold Registry.signatures
    rcases h.workspace.lookup name with ⟨hrule, hfind⟩ | ⟨rule, extension, hrule, hfind, hrel⟩
    · rw [hfind]
      exact (congrArg (Option.map (·.signature)) hrule).symm
    · rw [hfind]
      change some extension.rule.signature = (frame.rules name).map (·.signature)
      rw [hP.rule hrel]
      exact (congrArg (Option.map (·.signature)) hrule).symm
  unfold Environment.dialect Session.environment Frame.dialect
  rw [h.leastIndex, h.greatestIndex, hsignatures]

namespace Step.Follows

variable {α β : Type}

theorem respects : Respects (Step.Follows P frame logging) where
  pure a := fun session ledger h => ⟨session, rfl, h⟩
  bind := by
    intro α β x y f g hx hf session ledger h
    obtain ⟨after, hrun, hafter⟩ := hx session ledger h
    have hy : (y >>= g).run.run ledger = match y.run.run ledger with
        | (.ok a, ledger) => (g a).run.run ledger
        | (.error fault, ledger) => (.error fault, ledger) := by
      rw [ExceptT.run_bind, StateT.run_bind]
      rcases y.run.run ledger with ⟨_ | _, _⟩ <;> rfl
    rw [hy, ExceptT.run_bind, StateT.run_bind, hrun]
    rcases hresult : y.run.run ledger with ⟨fault | a, ledger'⟩
    · rw [hresult] at hafter
      exact ⟨after, rfl, hafter⟩
    · rw [hresult] at hafter
      exact hf a after ledger' hafter

theorem bind_ok {x : Step α} {f : α → Step β} {session after : Session} {a : α}
    (h : x.run.run session = (.ok a, after)) :
    (x >>= f).run.run session = (f a).run.run after := by
  rw [ExceptT.run_bind, StateT.run_bind, h]
  rfl

/-- A computation with the functions leaves the ledger as it is. -/
theorem run {computation : Run α} {result : Except Fault α}
    (h : Run.Follows P (frame.setting logging) α computation result) :
    Step.Follows P frame logging α (Session.run computation) (Ledger.run result) := by
  intro session ledger hsession
  obtain ⟨after, hrun, hafter⟩ := h session.workspace hsession.workspace
  have hread : (get : Step Session).run.run session = (.ok session, session) := rfl
  unfold Session.run
  rw [bind_ok hread, hrun]
  have hsession' : Session.Follows P frame logging ledger { session with workspace := after } :=
    ⟨hsession.leastIndex, hsession.greatestIndex, hafter, hsession.paths, hsession.cursors⟩
  cases result with
  | ok a => exact ⟨_, rfl, hsession'⟩
  | error fault => exact ⟨_, rfl, hsession'⟩

theorem compile (hP : Lasting P) (text : Text) :
    Step.Follows P frame logging Query (Session.compile text) (Ledger.compile frame text) := by
  intro session ledger hsession
  have hread : (get : Step Session).run.run session = (.ok session, session) := rfl
  unfold Session.compile Ledger.compile
  rw [bind_ok hread, Environment.compile, hsession.dialect hP]
  cases Query.ofText frame.dialect text with
  | ok query =>
    exact ⟨_, rfl, hsession.leastIndex, hsession.greatestIndex, hsession.workspace.note _,
      hsession.paths, hsession.cursors⟩
  | error error => exact ⟨_, rfl, hsession⟩

theorem entry (name : Text) (entries : List (Text × α)) :
    Step.Follows P frame logging α (Session.entry name entries) (Ledger.entry name entries) := by
  unfold Session.entry Ledger.entry
  cases entries.find? (·.1 = name) with
  | some found => exact respects.pure found.2
  | none => exact fun session ledger h => ⟨session, rfl, h⟩

theorem read {f : Session → Step α} {g : Ledger → Ledger.Step α}
    (h : ∀ session ledger, session.Follows P frame logging ledger →
      ∃ after, (f session).run.run session = (((g ledger).run.run ledger).1, after) ∧
        Session.Follows P frame logging ((g ledger).run.run ledger).2 after) :
    Step.Follows P frame logging α (get >>= f) (get >>= g) :=
  fun session ledger hsession => h session ledger hsession

theorem path (name : Text) : Step.Follows P frame logging Query (Session.path name)
    (get >>= fun ledger => Ledger.entry name ledger.paths) :=
  read fun session ledger h => h.paths ▸ entry name session.paths session ledger h

theorem keepPath (name : Text) (query : Query) : Step.Follows P frame logging Unit
    (modify fun session => { session with paths := (name, query) :: session.paths })
    (modify fun ledger => { ledger with paths := (name, query) :: ledger.paths }) :=
  fun _ _ h => ⟨_, rfl, h.leastIndex, h.greatestIndex, h.workspace,
    congrArg ((name, query) :: ·) h.paths, h.cursors⟩

theorem keepCursor (name : Text) (cursor : Cursor) : Step.Follows P frame logging Unit
    (modify fun session => { session with cursors := (name, cursor) :: session.cursors })
    (modify fun ledger => { ledger with cursors := (name, cursor) :: ledger.cursors }) :=
  fun _ _ h => ⟨_, rfl, h.leastIndex, h.greatestIndex, h.workspace, h.paths,
    congrArg ((name, cursor) :: ·) h.cursors⟩

theorem pull (hP : Lasting P) (name : Text) : Step.Follows P frame logging (Option Node)
    (Session.pull name) (Ledger.pull frame logging name) := by
  have hrespects : Respects (Step.Follows P frame logging) := respects
  have hhost : Run.host.Related (Run.Follows P (frame.setting logging)) (frame.host logging) :=
    Run.Follows.host hP
  refine read fun session ledger h => ?_
  rw [h.cursors]
  refine hrespects.bind (entry name ledger.cursors) (fun cursor => ?_) session ledger h
  refine hrespects.bind (keepCursor name .exhausted) fun _ => ?_
  refine hrespects.bind (run (hhost.next cursor)) fun pulled => ?_
  exact hrespects.bind (keepCursor name pulled.2) fun _ => hrespects.pure pulled.1

/-- A session answers each command as its ledger does. -/
theorem perform (hP : Lasting P) (command : Command) (h : command.isAnswered = true) :
    Step.Follows P frame logging Reply (Session.perform command)
      (Ledger.perform frame logging command) := by
  have hrespects : Respects (Step.Follows P frame logging) := respects
  have hhost : Run.host.Related (Run.Follows P (frame.setting logging)) (frame.host logging) :=
    Run.Follows.host hP
  have htraces : Run.Follows P (frame.setting logging) Bool Run.host.traces
    (frame.host logging).traces := Run.Follows.traces
  cases command with
  | compile name text =>
    refine hrespects.bind (compile hP text) fun query => ?_
    exact hrespects.bind (keepPath name query) fun _ => hrespects.pure _
  | find name data root? =>
    rw [Ledger.perform, ← bind_assoc]
    refine hrespects.bind (path name) fun query => ?_
    exact hrespects.bind (run (hhost.evaluate query _)) fun _ => hrespects.pure _
  | findText text data =>
    refine hrespects.bind (compile hP text) fun query => ?_
    exact hrespects.bind (run (hhost.evaluate query _)) fun _ => hrespects.pure _
  | values name data =>
    rw [Ledger.perform, ← bind_assoc]
    refine hrespects.bind (path name) fun query => ?_
    exact hrespects.bind (run (hhost.evaluate query _)) fun _ => hrespects.pure _
  | findOne name data =>
    rw [Ledger.perform, ← bind_assoc]
    refine hrespects.bind (path name) fun query => ?_
    exact hrespects.bind (run (hhost.first? htraces query _)) fun _ => hrespects.pure _
  | openSearch name text data =>
    refine hrespects.bind (compile hP text) fun query => ?_
    refine hrespects.bind (run (hhost.ofQuery htraces query _)) fun cursor => ?_
    exact hrespects.bind (keepCursor name cursor) fun _ => hrespects.pure _
  | next name => exact hrespects.bind (pull hP name) fun node? => hrespects.pure (Reply.node node?)
  | names =>
    refine read fun session ledger hsession => ?_
    rw [hsession.workspace.names]
    exact ⟨session, rfl, hsession⟩
  | call name given => exact hrespects.bind (run (hhost.call name given)) fun _ => hrespects.pure _
  | register | unregister | cache | clearCache => cases h

end Step.Follows

end Session

end JsonPath
