import ServerUi.Diagnostic
import ServerUi.Mount
import ServerUi.Schema.Streamed
import ServerUi.View.Html

/-!
# ServerUi.Command.Work — the work behind the command line

`Command.render` loads a schema, applies assignments and actions and prints the view;
`Command.check` loads a schema and diagnoses it.  Both are functions of the files they read.
-/

namespace ServerUi

/-- The text of every file, or why it cannot be read. -/
abbrev Files := String → Except String String

/-- Read and load the JSON of a file. -/
def Files.load (files : Files) (path : String) : Except LoadError Value :=
  match files path with
  | .ok text => Json.load text (some path)
  | .error message => .error ⟨some path, .unreadable message⟩

/-- Load the schema of a file. -/
def Files.schema (files : Files) (path : String) : Except LoadError Schema := do
  (Schema.load (← files.load path)).mapError (·.inFile path)

/-- The notices of loading the schema of a file. -/
def Files.schemaNotices (files : Files) (path : String) : List Notice :=
  match files.load path with
  | .ok v => Schema.Kind.notices v
  | .error _ => []

/-- A value on the command line that cannot be used. -/
inductive ArgumentError where
  /-- An assignment without a sign. -/
  | noAssignment (raw : String)
  | emptyPath (raw : String)
  /-- A data file that holds something else than an object. -/
  | noObject (path : String) (found : Value)
  | noAction (raw : String) (error : TextError)
  deriving DecidableEq, Repr

namespace ArgumentError

/-- The option the value was given for. -/
def flag : ArgumentError → String
  | noAssignment _ | emptyPath _ => "--set"
  | noObject .. => "--data"
  | noAction .. => "--action"

def message : ArgumentError → String
  | noAssignment raw => "expected PATH=VALUE, got `" ++ raw ++ "`"
  | emptyPath raw => "empty path in `" ++ raw ++ "`"
  | noObject path found => path ++ " must contain a JSON object, found " ++ found.compact
  | noAction raw e => raw ++ ": " ++ e.message

end ArgumentError

/-- Why a command fails. -/
inductive CommandError where
  | load (error : LoadError)
  | argument (error : ArgumentError)
  deriving DecidableEq, Repr

/-- The report for a reader of the terminal. -/
def CommandError.report : CommandError → String
  | load e => e.report
  | argument e => e.flag ++ ": " ++ e.message

/-- How `render` prints a view. -/
inductive Format where
  | html
  | json
  | text
  deriving DecidableEq, Repr

/-- What `render` is asked for. -/
structure RenderJob where
  schema : String
  data : Option String
  assignments : List String
  actions : List String
  format : Format
  deriving DecidableEq, Repr

namespace Command

/-- Split `PATH=VALUE` at the first sign.  The value is JSON, or else plain text. -/
def assignment (raw : String) : Except ArgumentError (String × Value) :=
  let cs := raw.toList
  match cs.dropWhile (· ≠ '=') with
  | [] => .error (.noAssignment raw)
  | _ :: rest =>
    -- blanks around the path do not belong to it; those of the value do
    let path := Text.trim (cs.takeWhile (· ≠ '='))
    let value := String.ofList rest
    if path = [] then .error (.emptyPath raw)
    else .ok (String.ofList path, ((Json.read value).toOption).getD (.str value))

/-- The object in a data file. -/
def dataMembers (files : Files) (path : String) : Except CommandError Members :=
  match files.load path with
  | .error e => .error (.load e)
  | .ok (.obj members) => .ok members
  | .ok v => .error (.argument (.noObject path v))

/-- The write an assignment stands for. -/
def writeOf (raw : String) : Except ArgumentError Action :=
  (assignment raw).map fun (path, v) => .write path v

/-- The action that is given as JSON on the command line. -/
def actionOf (raw : String) : Except ArgumentError Action :=
  (Action.ofText raw).mapError (.noAction raw)

/-- The actions of a job: its assignments, then its actions. -/
def changes (job : RenderJob) : List (Except ArgumentError Action) :=
  job.assignments.map writeOf ++ job.actions.map actionOf

/-- Dispatch actions in order up to the first that cannot be read. -/
def apply (s : Session) : List (Except ArgumentError Action) → Except ArgumentError Session
  | [] => .ok s
  | .error e :: _ => .error e
  | .ok a :: rest => apply (s.dispatch a).session rest

/-- What the host of the command line says about the calls it gets. -/
def handedOver : HostCall → List Notice
  | .action a => [.handedOver a]
  | .navigate _ => []

/-- The notices of applying actions, those of the host included. -/
def applyNotices (s : Session) : List (Except ArgumentError Action) → List Notice
  | [] => []
  | .error _ :: _ => []
  | .ok a :: rest =>
    let r := s.dispatch a
    s.dispatchNotices a ++ r.calls.flatMap handedOver ++ applyNotices r.session rest

/-- The text of a view in a format.  A page is a complete document. -/
def print (v : View) (schema : Schema) : Format → String
  | .html =>
    match schema.page? with
    | some p => Html.document v p
    | none => Html.view v
  | .json => v.toValue.pretty
  | .text => v.shownText

/-- The data of a job; none without a data file. -/
def jobData (files : Files) (job : RenderJob) : Except CommandError Members :=
  match job.data with
  | none => .ok []
  | some path => dataMembers files path

/-- The setup of a job.  The host takes actions and leaves navigation alone. -/
def setup (files : Files) (job : RenderJob) : Except CommandError Setup := do
  let schema ← (files.schema job.schema).mapError .load
  let data ← jobData files job
  return ((Setup.ofSchema schema).supply (.data data)).hook ⟨true, false⟩

/-- The mount of a job after all its changes. -/
def prepared (files : Files) (job : RenderJob) : Except CommandError Mount := do
  let m := (← setup files job).mount
  return { m with session := ← (apply m.session (changes job)).mapError .argument }

/-- Print the view of a schema after all changes. -/
def render (files : Files) (job : RenderJob) : Except CommandError String := do
  let m ← prepared files job
  return print m.view m.schema job.format

/-- The notices of rendering, up to where it fails. -/
def renderNotices (files : Files) (job : RenderJob) : List Notice :=
  files.schemaNotices job.schema ++
    match setup files job with
    | .error _ => []
    | .ok s =>
      s.mountNotices ++ applyNotices s.mount.session (changes job) ++
        match prepared files job with
        | .error _ => []
        | .ok m => .viewing m.session.revision :: m.viewNotices

/-- What `check` reports: the schema as indented JSON, if wanted, and the findings. -/
structure Report where
  dump : Option String
  diagnostics : List Diagnostic
  deriving DecidableEq, Repr

/-- Diagnose the schema of a file. -/
def check (files : Files) (path : String) (dump : Bool) : Except CommandError Report := do
  let schema ← (files.schema path).mapError .load
  return { dump := if dump then some schema.toValue.pretty else none
           diagnostics := schema.diagnostics .builtin }

def checkNotices (files : Files) (path : String) : List Notice :=
  files.schemaNotices path ++
    match files.schema path with
    | .error _ => []
    | .ok schema => [.diagnosed (schema.diagnostics .builtin).length]

end Command

end ServerUi
