import ServerUi.Component.Basic

/-!
# ServerUi.Diagnostic — what a schema cannot do

Every schema has a view.  Diagnostics name what the view passes over: components nobody registered,
actions without effect, and parts of a schema that change nothing.  They come in the order of the
document.
-/

namespace ServerUi

/-- How bad a finding is. -/
inductive Severity where
  /-- The schema has a view, but hardly the intended one. -/
  | warning
  /-- Part of the schema cannot do what it says. -/
  | error
  deriving DecidableEq, Repr

def Severity.describe : Severity → String
  | warning => "warning"
  | error => "error"

/-- What may be wrong at a place of a schema. -/
inductive Finding where
  | unknownComponent (name : String)
  /-- Content of a component that never has any; whether it is text. -/
  | ignoredContent (component : String) (isText : Bool)
  | duplicateKey (key : String)
  | unknownOperator (operator : String)
  /-- An order against something that is no number. -/
  | neverOpens (operator : Operator)
  | unwiredEvent (event : Event)
  | unknownAction (kind : String)
  | incompleteAction (reason : Incomplete)
  deriving DecidableEq, Repr

namespace Finding

def severity : Finding → Severity
  | unknownComponent _ | incompleteAction _ => .error
  | _ => .warning

def message : Finding → String
  | unknownComponent name => "unknown component `" ++ name ++ "`"
  | ignoredContent component isText =>
    "`" ++ component ++ "` never renders children; " ++
      (if isText then "text" else "child nodes") ++ " ignored"
  | duplicateKey key => "duplicate key `" ++ key ++ "` among siblings"
  | unknownOperator operator => "unknown operator `" ++ operator ++ "`; condition always passes"
  | neverOpens operator =>
    "`" ++ operator.spelling ++ "` needs a numeric value; condition never passes"
  | unwiredEvent event =>
    "unrecognized event `" ++ event.spelling ++ "`; handler is never wired"
  | unknownAction kind => "unknown action type `" ++ kind ++ "`; forwarded to the host"
  | incompleteAction reason => reason.describe

end Finding

/-- A finding and where in the schema it was made, such as `root.children[1].on.click`. -/
structure Diagnostic where
  location : String
  finding : Finding
  deriving DecidableEq, Repr

namespace Diagnostic

def severity (d : Diagnostic) : Severity := d.finding.severity

def text (d : Diagnostic) : String :=
  d.severity.describe ++ ": " ++ d.location ++ ": " ++ d.finding.message

end Diagnostic

def anyError (diagnostics : List Diagnostic) : Bool := diagnostics.any (·.severity = .error)

/-- The highest severity of the findings. -/
def worst? (diagnostics : List Diagnostic) : Option Severity :=
  if diagnostics.isEmpty then none else some (if anyError diagnostics then .error else .warning)

namespace Diagnose

/-- What is found about a gate: at most one thing. -/
def gate (g : Gate) : List Finding :=
  match g.operator with
  | .unknown operator => [.unknownOperator operator]
  | operator =>
    if operator.isOrdering && !g.value.any Value.isNumber then [.neverOpens operator] else []

/-- What is found about a handler: its event, the kind of its action, and what the action lacks. -/
def handler (event : Event) (a : Action) : List Finding :=
  (if event.isWired then [] else [.unwiredEvent event]) ++
    (match a.kind with
      | .other kind => [.unknownAction kind]
      | _ => []) ++
    match a.effect with
    | .nothing reason => [.incompleteAction reason]
    | _ => []

def located (location : String) (findings : List Finding) : List Diagnostic :=
  findings.map (⟨location, ·⟩)

/-- What is found at a node itself, its content aside. -/
def ownFindings (registry : Registry) (component : String) (gate? : Option Gate)
    (handlers : Option Handlers) (location : String) : List Diagnostic :=
  located location (if registry.contains component then [] else [.unknownComponent component]) ++
    located (location ++ ".when") (gate?.toList.flatMap gate) ++
    (handlers.getD []).flatMap fun (event, action) =>
      located (location ++ ".on." ++ event.spelling) (handler event action)

/-- Whether an earlier sibling has the key of a node. -/
def repeats (seen : List String) (key : Option String) : List Finding :=
  match key with
  | some key => if seen.contains key then [.duplicateKey key] else []
  | none => []

/-- Content that is never shown. -/
def ignored (component : String) : Content → List Finding
  | .absent => []
  | .text _ => [.ignoredContent component true]
  | .nodes _ => [.ignoredContent component false]

mutual

/-- The findings in a node's subtree. -/
def node (registry : Registry) : Node → String → List Diagnostic
  | ⟨component, _, content, _, gate?, handlers⟩, location =>
    ownFindings registry component gate? handlers location ++
      if isChildless component then located (location ++ ".children") (ignored component content)
      else inside registry content location

/-- The findings in the content of a node. -/
def inside (registry : Registry) : Content → String → List Diagnostic
  | .nodes nodes, parent => siblings registry parent nodes [] 0
  | _, _ => []

/-- The findings in siblings from `index` on; `seen` are the keys before them. -/
def siblings (registry : Registry) (parent : String) :
    List Node → List String → Nat → List Diagnostic
  | [], _, _ => []
  | n :: rest, seen, index =>
    let location := parent ++ ".children[" ++ toString index ++ "]"
    located location (repeats seen n.key) ++ node registry n location ++
      siblings registry parent rest (n.key.toList ++ seen) (index + 1)

end

end Diagnose

/-- Check a schema against the components of a registry. -/
def Schema.diagnostics (s : Schema) (registry : Registry) : List Diagnostic :=
  Diagnose.node registry s.root "root"

end ServerUi
