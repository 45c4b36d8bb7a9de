import ServerUi.Schema.Basic
import ServerUi.Text.Quoted
import ServerUi.Text.Blank

/-!
# ServerUi.Log.Notice — what is worth mentioning

Loading, viewing and dispatching mention what a host may want to know.  A notice is data; its
level, origin and wording are read off it.
-/

namespace ServerUi

/-- How much a notice matters. -/
inductive Level where
  | error
  | warn
  | info
  | debug
  | trace
  deriving DecidableEq, Repr

namespace Level

def describe : Level → String
  | error => "ERROR"
  | warn => "WARN"
  | info => "INFO"
  | debug => "DEBUG"
  | trace => "TRACE"

/-- More verbose levels rank higher. -/
def rank : Level → Nat
  | error => 0
  | warn => 1
  | info => 2
  | debug => 3
  | trace => 4

end Level

/-- Something worth mentioning, with the data of its message. -/
inductive Notice where
  /-- A schema that looks like a node and like a page. -/
  | ambiguousSchema
  | noSchema (message : String)
  | unwiredEvent (component : String) (event : Event)
  | mounted (kind : Schema.Kind) (root : String) (components : Nat)
  | unknownOperator (operator : String) (path : String)
  | gateClosed (component key : String)
  | unknownComponent (component key : String)
  | viewed (component key : String)
  | stateWritten (path : String)
  | actionHandedOver (kind : Action.Kind)
  | actionDropped (kind : Action.Kind)
  | actionSkipped (reason : Incomplete) (kind : Action.Kind)
  | navigated (path : String)
  | locationRecorded (path : String)
  | diagnosed (count : Nat)
  /-- An action that reached the host of the command line. -/
  | handedOver (action : Action)
  | viewing (revision : UInt64)
  deriving Repr

/-! ### Values as data -/

namespace Value

mutual

/-- The text of a value as the log shows data: constructors by name. -/
def shown : Value → String
  | .null => "Null"
  | .bool b => "Bool(" ++ (if b then "true" else "false") ++ ")"
  | .num n => "Number(" ++ n.text ++ ")"
  | .str s => "String(" ++ Text.quoted s ++ ")"
  | .arr items => "Array [" ++ String.intercalate ", " (shownItems items) ++ "]"
  | .obj members => "Object \x7b" ++ String.intercalate ", " (shownMembers members) ++ "\x7d"

def shownItems : List Value → List String
  | [] => []
  | v :: rest => v.shown :: shownItems rest

def shownMembers : Members → List String
  | [] => []
  | (k, v) :: rest => (Text.quoted k ++ ": " ++ v.shown) :: shownMembers rest

end

/-- Members that may be absent. -/
def shownOption : Option Members → String
  | none => "None"
  | some members => "Some(\x7b" ++ String.intercalate ", " (shownMembers members) ++ "\x7d)"

end Value

/-! ### Wording -/

namespace Notice

/-- What leaves something out or has to guess is a warning. -/
def level : Notice → Level
  | ambiguousSchema | noSchema _ | unknownComponent .. | actionSkipped .. => .warn
  | locationRecorded _ | handedOver _ => .info
  | gateClosed .. | viewed .. => .trace
  | _ => .debug

/-- The part of the program that gives the notice. -/
def target : Notice → String
  | ambiguousSchema => "sdui::schema"
  | noSchema _ | mounted .. => "sdui::renderer"
  | unknownOperator .. => "sdui::condition"
  | unwiredEvent .. | gateClosed .. | unknownComponent .. | viewed .. => "sdui::render"
  | stateWritten _ | actionHandedOver _ | actionDropped _ | actionSkipped .. | navigated _
  | locationRecorded _ => "sdui::context"
  | diagnosed _ => "sdui::validate"
  | handedOver _ | viewing _ => "sdui::commands"

def message : Notice → String
  | ambiguousSchema =>
    "schema has both `root` and `type`; reading it as a page (set __kind to disambiguate)"
  | noSchema _ => "invalid schema; rendering placeholder"
  | unwiredEvent .. => "unrecognized event; handler not wired"
  | mounted .. => "renderer built"
  | unknownOperator .. => "unknown condition operator; showing node"
  | gateClosed .. => "condition false; node skipped"
  | unknownComponent .. => "unknown component; rendering placeholder"
  | viewed .. => "render"
  | stateWritten _ => "set_state"
  | actionHandedOver _ => "forward_action"
  | actionDropped _ => "no on_action hook; action dropped"
  | actionSkipped reason _ => reason.describe ++ "; action skipped"
  | navigated _ => "navigate"
  | locationRecorded _ => "no on_navigate hook; recording location"
  | diagnosed _ => "schema validated"
  | handedOver _ => "action forwarded to host"
  | viewing _ => "rendering"

/-- A text in quotes, its characters as they are. -/
def inQuotes (s : String) : String := "\"" ++ s ++ "\""

/-- The named details of a notice. -/
def details : Notice → List (String × String)
  | ambiguousSchema => []
  | noSchema m => [("error", m)]
  | unwiredEvent component event => [("component", component), ("event", event.spelling)]
  | mounted kind root components =>
    [("kind", match kind with | .node => "Node" | .page => "Page"), ("root", inQuotes root),
      ("components", toString components)]
  | unknownOperator operator path => [("operator", operator), ("path", path)]
  | gateClosed component key | unknownComponent component key | viewed component key =>
    [("component", component), ("key", inQuotes key)]
  | stateWritten path => [("path", path)]
  | actionHandedOver kind | actionDropped kind | actionSkipped _ kind => [("kind", kind.spelling)]
  | navigated path | locationRecorded path => [("path", inQuotes path)]
  | diagnosed count => [("count", toString count)]
  | handedOver a => [("kind", a.kind.spelling), ("payload", Value.shownOption a.payload)]
  | viewing revision => [("revision", toString revision)]

/-- The details on one line, without blanks at its end. -/
def detailText (n : Notice) : String :=
  let line := String.intercalate " " (n.details.map fun (name, text) => name ++ "=" ++ text)
  String.ofList (line.toList.reverse.dropWhile Text.isBlank).reverse

/-- The line of a log. -/
def line (n : Notice) : String :=
  n.level.describe ++ " " ++ n.target ++ ": " ++ n.message ++
    if n.detailText = "" then "" else " " ++ n.detailText

/-- The notices at a level or above it. -/
def upTo (level : Level) (notices : List Notice) : List Notice :=
  notices.filter fun n => n.level.rank ≤ level.rank

end Notice

end ServerUi
