import ServerUi.Document.Path

/-!
# ServerUi.Interaction.Action — what an event asks for

An action has a kind and a payload.  `Action.effect` decides what it means without touching any
state: a destination to go to, a value to write, something to hand to the host, or nothing when
the payload is incomplete.
-/

namespace ServerUi

/-- What an action is for. -/
inductive Action.Kind where
  | navigate
  | setState
  | api
  | custom
  | other (spelling : String)
  deriving DecidableEq, Repr

namespace Action.Kind

def spelling : Action.Kind → String
  | navigate => "navigate"
  | setState => "setState"
  | api => "api"
  | custom => "custom"
  | other s => s

def known : List Action.Kind := [navigate, setState, api, custom]

/-- The kind with a spelling. -/
def ofSpelling (s : String) : Action.Kind := (known.find? (·.spelling = s)).getD (other s)

end Action.Kind

/-- What an event asks for. -/
structure Action where
  kind : Action.Kind
  payload : Option Members
  deriving DecidableEq, Repr

/-- Why an action has no effect. -/
inductive Incomplete where
  | noDestination
  | noStatePath
  | noStateValue
  deriving DecidableEq, Repr

def Incomplete.describe : Incomplete → String
  | noDestination => "navigate action requires a string payload.path"
  | noStatePath => "setState action requires a string payload.path"
  | noStateValue => "setState action requires a payload.value"

/-- What an action means. -/
inductive Effect where
  | goTo (path : String)
  | write (path : String) (value : Value)
  /-- The action is for the host. -/
  | handOver (action : Action)
  | nothing (reason : Incomplete)
  deriving DecidableEq, Repr

namespace Action

/-- An action with no payload. -/
def ofKind (kind : Action.Kind) : Action := ⟨kind, none⟩

def insertPayload (a : Action) (key : String) (value : Value) : Action :=
  { a with payload := some (Dict.insert key value (a.payload.getD [])) }

/-- The action that writes `value` at `path`. -/
def write (path : String) (value : Value) : Action :=
  ((ofKind .setState).insertPayload "path" (.str path)).insertPayload "value" value

def argument? (a : Action) (key : String) : Option Value := a.payload.bind (Dict.get? key)

/-- The string at `path` in the payload. -/
def path? (a : Action) : Option String := (a.argument? "path").bind Value.asString?

/-- What the action asks for.  A written value has to be present and may be `null`. -/
def effect (a : Action) : Effect :=
  match a.kind with
  | .navigate =>
    match a.path? with
    | some path => .goTo path
    | none => .nothing .noDestination
  | .setState =>
    match a.path? with
    | none => .nothing .noStatePath
    | some path =>
      match a.argument? "value" with
      | none => .nothing .noStateValue
      | some value => .write path value
  | .api | .custom | .other _ => .handOver a

end Action

end ServerUi
