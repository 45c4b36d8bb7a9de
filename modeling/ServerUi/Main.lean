import ServerUi.Command.Program

/-!
# ServerUi.Main — the program

Reads the files the command line names, runs the program on them and prints what it says.
-/

open ServerUi

/-- What the system says when a file cannot be opened. -/
def systemMessage : IO.Error → String
  | .noFileOrDirectory .. => "No such file or directory (os error 2)"
  | .permissionDenied .. => "Permission denied (os error 13)"
  | .inappropriateType .. => "Is a directory (os error 21)"
  | e => toString e

/-- The text of a file, or why it cannot be read. -/
def fileText (path : String) : IO (Except String String) := do
  try
    match String.fromUTF8? (← IO.FS.readBinFile path) with
    | some text => return .ok text
    | none => return .error "stream did not contain valid UTF-8"
  catch e => return .error (systemMessage e)

def main (args : List String) : IO UInt32 := do
  let paths := match Command.read args with
    | .ok invocation => invocation.task.files
    | .error _ => []
  let texts ← paths.mapM fun path => do return (path, ← fileText path)
  let files : Files := fun path => (Dict.get? path texts).getD (.error "not read")
  let exit := Command.run files args
  IO.print exit.output
  IO.eprint exit.errors
  return UInt32.ofNat exit.code
