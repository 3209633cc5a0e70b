import JsonPath.CommandLine

/-!
The command line tool as a program.
-/

namespace JsonPath.Main

def fileFault : IO.Error → CommandLine.FileFault
  | .noFileOrDirectory _ _ _ => .missing
  | .permissionDenied _ _ _ => .denied
  | .inappropriateType _ code _ => if code = 20 then .notDirectory else .directory
  | error => .other (toString error)

def inputs : CommandLine.Inputs IO where
  file name := do
    match name.string? with
    | some name =>
      try
        let text ← IO.FS.readFile name
        return .ok text
      catch error => return .error (fileFault error)
    | none => return .error .missing
  standard := do
    let text : Text ← (← IO.getStdin).readToEnd
    return ⟨Text.unifyLineEnds text.toList⟩

/-- Writes a text. A surrogate cannot be written. -/
def write (stream : IO.FS.Stream) (text : Text) : IO Unit :=
  match text.string? with
  | some text => stream.putStr text
  | none => throw (IO.userError "surrogates not allowed")

end JsonPath.Main

open JsonPath in
def main (words : List String) : IO UInt32 := do
  match ← CommandLine.run Main.inputs (words.map Text.ofString) with
  | .ok outcome =>
    Main.write (← IO.getStdout) outcome.output
    Main.write (← IO.getStderr) outcome.errors
    return outcome.exit.toUInt32
  | .error abort =>
    Main.write (← IO.getStderr) (abort.message ++ "\n")
    return 1
