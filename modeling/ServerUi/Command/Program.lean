import ServerUi.Command.Arguments

/-!
# ServerUi.Command.Program — a whole run of the program

A run is a function of the command line and the files.  It prints to two outputs and ends with an
exit code: zero when all went well, one when something failed, two for a command line it does not
understand.
-/

namespace ServerUi

/-- How a run ends and what it has printed. -/
structure Exit where
  code : Nat
  output : String
  errors : String
  deriving DecidableEq, Repr

namespace Command

def help : String :=
  "Render and validate server-driven UI schemas\n\n" ++
  "Usage: sdui [OPTIONS] render [--data FILE] [--set PATH=VALUE]... [--action JSON]...\n" ++
  "                             [--format html|json|text] [--strict] SCHEMA\n" ++
  "       sdui [OPTIONS] check [--dump] SCHEMA\n\n" ++
  "Options:\n" ++
  "  --trace              Log everything\n" ++
  "  --debug              Log at debug level\n" ++
  "  --log-level LEVEL    Log at a level: error, warn, info, debug or trace\n" ++
  "  --log-filter FILTER  Log by an explicit filter\n" ++
  "  -h, --help           Print help\n" ++
  "  -V, --version        Print version\n"

def version : String := "sdui 0.0.1\n"

def usage : String := "error: the command line is not understood; try --help\n"

/-- The lines `--strict` prints for the warnings of a run. -/
def strictReport (warnings : List Notice) : String :=
  toString warnings.length ++ " warning(s) logged while rendering\n" ++
    String.join (warnings.map fun n => "  " ++ n.line ++ "\n")

/-- Render, and with `strict` fail if there was a warning. -/
def runRender (files : Files) (job : RenderJob) (strict : Bool) : Exit :=
  match render files job with
  | .error e => ⟨1, "", e.report ++ "\n"⟩
  | .ok out =>
    let warnings := Notice.upTo .warn (renderNotices files job)
    if strict && !warnings.isEmpty then ⟨1, out ++ "\n", strictReport warnings⟩
    else ⟨0, out ++ "\n", ""⟩

/-- Check, and fail if a finding is an error. -/
def runCheck (files : Files) (path : String) (dump : Bool) : Exit :=
  match check files path dump with
  | .error e => ⟨1, "", e.report ++ "\n"⟩
  | .ok report =>
    let dumped := match report.dump with
      | some text => text ++ "\n"
      | none => ""
    let findings := String.join (report.diagnostics.map fun d => d.text ++ "\n")
    if anyError report.diagnostics then ⟨1, dumped, findings⟩
    else ⟨0, dumped ++ "OK\n", findings⟩

/-- Run a command. -/
def Task.run (files : Files) : Task → Exit
  | .render job strict => runRender files job strict
  | .check path dump => runCheck files path dump

/-- Run the program. -/
def run (files : Files) (args : List String) : Exit :=
  match read args with
  | .ok invocation => invocation.task.run files
  | .error .help => ⟨0, help, ""⟩
  | .error .version => ⟨0, version, ""⟩
  | .error .usage => ⟨2, "", usage⟩

/-- The files a task reads. -/
def Task.files : Task → List String
  | .render job _ => job.schema :: job.data.toList
  | .check path _ => [path]

end Command

end ServerUi
