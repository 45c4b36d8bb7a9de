import ServerUi.Log.Notice
import ServerUi.View.Basic

/-!
# ServerUi.Session — the state of one tree

A session holds the data document, counts its replacements and knows which callbacks the host has
installed.  Actions are dispatched to it: they write to the document, go to the host, or change the
location when the host does not navigate itself.  Incomplete actions change nothing.
-/

namespace ServerUi

/-- The callbacks a host has installed. -/
structure Hooks where
  action : Bool
  navigate : Bool
  deriving DecidableEq, Repr

/-- A call of a callback. -/
inductive HostCall where
  | action (action : Action)
  | navigate (path : String)
  deriving DecidableEq, Repr

/-- The state of one tree. -/
structure Session where
  document : Value
  /-- How often the document has been replaced, modulo `2⁶⁴`. -/
  revision : UInt64
  location : Option String
  hooks : Hooks
  deriving DecidableEq, Repr

/-- A change of the state and what the host is called with. -/
structure Reaction where
  session : Session
  calls : List HostCall
  deriving DecidableEq, Repr

namespace Session

/-- The data of a schema under the data of the host. -/
def initialData (schemaData : Option Members) (hostData : Members) : Members :=
  Dict.merge (schemaData.getD []) hostData

/-- A session that nothing has happened to. -/
def start (data : Members) (hooks : Hooks) : Session := ⟨.obj data, 0, none, hooks⟩

/-- Replace the document. -/
def replace (s : Session) (document : Value) : Session :=
  { s with document, revision := s.revision + 1 }

/-- Replace the document by what becomes of it. -/
def update (s : Session) (f : Value → Value) : Session := s.replace (f s.document)

/-- Write a value at a path of the document. -/
def write (s : Session) (path : String) (value : Value) : Session :=
  s.update fun document => document.set path value

/-- Go to a destination: the host does, or the session remembers it. -/
def goTo (s : Session) (path : String) : Reaction :=
  if s.hooks.navigate then ⟨s, [.navigate path]⟩ else ⟨{ s with location := some path }, []⟩

/-- Do what an action asks for. -/
def dispatch (s : Session) (a : Action) : Reaction :=
  match a.effect with
  | .goTo path => s.goTo path
  | .write path value => ⟨s.write path value, []⟩
  | .handOver a => ⟨s, if s.hooks.action then [.action a] else []⟩
  | .nothing _ => ⟨s, []⟩

/-! ### Notices -/

def goToNotices (s : Session) (path : String) : List Notice :=
  [if s.hooks.navigate then .navigated path else .locationRecorded path]

/-- The notice of dispatching an action. -/
def dispatchNotices (s : Session) (a : Action) : List Notice :=
  match a.effect with
  | .goTo path => s.goToNotices path
  | .write path _ => [.stateWritten path]
  | .handOver a => [if s.hooks.action then .actionHandedOver a.kind else .actionDropped a.kind]
  | .nothing reason => [.actionSkipped reason a.kind]

/-! ### Runs -/

/-- Something that can be done to a session. -/
inductive Operation where
  | dispatch (action : Action)
  | fire (handler : Handler)
  | replace (document : Value)
  | update (f : Value → Value)
  | write (path : String) (value : Value)
  | goTo (path : String)

/-- Do one thing. -/
def step (s : Session) : Operation → Reaction
  | .dispatch a => s.dispatch a
  | .fire h => s.dispatch h.action
  | .replace document => ⟨s.replace document, []⟩
  | .update f => ⟨s.update f, []⟩
  | .write path value => ⟨s.write path value, []⟩
  | .goTo path => s.goTo path

def stepNotices (s : Session) : Operation → List Notice
  | .dispatch a => s.dispatchNotices a
  | .fire h => s.dispatchNotices h.action
  | .goTo path => s.goToNotices path
  | _ => []

/-- Do several things in order and collect the calls. -/
def run (s : Session) : List Operation → Reaction
  | [] => ⟨s, []⟩
  | o :: rest =>
    let first := s.step o
    let others := first.session.run rest
    ⟨others.session, first.calls ++ others.calls⟩

end Session

end ServerUi
