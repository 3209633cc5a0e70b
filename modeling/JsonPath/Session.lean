import JsonPath.Environment

/-!
Sessions: one environment in which queries are compiled, kept under names and run, step by step.
Functions can be exchanged between the steps, and opened searches go on with those that are then
registered.
-/

namespace JsonPath

inductive Command where
  | compile (name text : Text)
  | find (path : Text) (data : Value) (root? : Option Value)
  | findText (text : Text) (data : Value)
  | values (path : Text) (data : Value)
  | findOne (path : Text) (data : Value)
  | openSearch (name text : Text) (data : Value)
  | next (search : Text)
  | register (name function : Text)
  | unregister (name : Text)
  | names
  | call (name : Text) (arguments : List Operand)
  | cache (name : Text)
  | clearCache (name : Text)

inductive Reply where
  | done
  | compiled (query : Query)
  | nodes (nodes : List Node)
  | values (values : List Value)
  | node (node? : Option Node)
  | names (names : List Text)
  | result (operand : Operand)
  | cache (cache : Cache Text Regex)

inductive SessionFault where
  | compile (error : CompileError)
  | fault (fault : Fault)

/-- The state of a session: its functions, the queries that it keeps and the searches that are
open, the latest first. -/
structure Session where
  leastIndex : Int
  greatestIndex : Int
  workspace : Workspace
  paths : List (Text × Query)
  cursors : List (Text × Cursor)

namespace Session

def start (environment : Environment) : Session :=
  ⟨environment.leastIndex, environment.greatestIndex, ⟨environment.functions, false, []⟩, [], []⟩

def environment (session : Session) : Environment :=
  ⟨session.leastIndex, session.greatestIndex, session.workspace.functions⟩

abbrev Step := ExceptT SessionFault (StateM Session)

def run {α : Type} (computation : Run α) : Step α := do
  let (result, workspace) := computation.run.run (← get).workspace
  modify ({ · with workspace })
  match result with
  | .ok a => return a
  | .error fault => throw (.fault fault)

def compile (text : Text) : Step Query := do
  match (← get).environment.compile text with
  | .ok query =>
    modify fun session =>
      { session with workspace := session.workspace.note [.compiled text query] }
    return query
  | .error error => throw (.compile error)

def entry {α : Type} (name : Text) (entries : List (Text × α)) : Step α :=
  match entries.find? (·.1 = name) with
  | some (_, a) => return a
  | none => throw (.fault (.unknownName name))

def path (name : Text) : Step Query := do entry name (← get).paths

/-- Pulls a node from an open search. A search that fails is over. -/
def pull (name : Text) : Step (Option Node) := do
  let cursor ← entry name (← get).cursors
  modify fun session => { session with cursors := (name, .exhausted) :: session.cursors }
  let (node?, cursor) ← run (cursor.next Run.host)
  modify fun session => { session with cursors := (name, cursor) :: session.cursors }
  return node?

def cacheOf (name : Text) : Step (Cache Text Regex) := do
  let extension ← run (Run.function name)
  match extension.cache? with
  | some cache => return cache
  | none => throw (.fault (.noAttribute extension.label "cache"))

def changeFunctions (change : Registry → Registry) : Step Unit :=
  modify fun session =>
    { session with
      workspace := { session.workspace with functions := change session.workspace.functions } }

def perform : Command → Step Reply
  | .compile name text => do
    let query ← compile text
    modify fun session => { session with paths := (name, query) :: session.paths }
    return .compiled query
  | .find name data root? => do
    let query ← path name
    return .nodes (← run (query.evaluate Run.host (Node.start data root?)))
  | .findText text data => do
    let query ← compile text
    return .nodes (← run (query.evaluate Run.host (Node.start data none)))
  | .values name data => do
    let query ← path name
    return .values ((← run (query.evaluate Run.host (Node.start data none))).map (·.value))
  | .findOne name data => do
    let query ← path name
    return .node (← run (query.first? Run.host (Node.start data none)))
  | .openSearch name text data => do
    let query ← compile text
    let cursor ← run (Cursor.ofQuery Run.host query (Node.start data none))
    modify fun session => { session with cursors := (name, cursor) :: session.cursors }
    return .done
  | .next name => return .node (← pull name)
  | .register name function => do
    match Extension.named? .standard function with
    | some extension =>
      changeFunctions (·.register name extension)
      return .done
    | none => throw (.fault (.unknownName function))
  | .unregister name => do
    discard (run (Run.function name))
    changeFunctions (·.unregister name)
    return .done
  | .names => return .names (← get).workspace.functions.names
  | .call name arguments => return .result (← run (Run.call name arguments))
  | .cache name => return .cache (← cacheOf name)
  | .clearCache name => do
    discard (cacheOf name)
    let extension ← run (Run.function name)
    changeFunctions (·.register name extension.clearCache)
    return .done

/-- The session at the beginning of a step, with an empty log that is written or not. -/
def prepare (logging : Bool) (session : Session) : Session :=
  { session with workspace := { session.workspace with logging, log := [] } }

/-- The answer to a command and the session after it. -/
def answer (logging : Bool) (command : Command) (session : Session) :
    Except SessionFault Reply × Session :=
  (perform command).run.run (session.prepare logging)

end Session

end JsonPath
