import ServerUi.Component.Builtin
import ServerUi.Component.Host
import ServerUi.Log.Watch
import ServerUi.Session

/-!
# ServerUi.Mount — a schema with its state

A setup collects what a host supplies for a schema: components, data and callbacks.  Later supplies
win over earlier ones, and all of them over the built-in components and the data of the schema.

Mounting a setup makes the blueprint of the schema once and starts a session; the view of a mount is
the view of the blueprint for the session's document.
-/

namespace ServerUi

/-- A schema and what the host supplies for it. -/
structure Setup where
  schema : Schema
  components : Registry
  data : Members
  hooks : Hooks

/-- A schema that is shown, with the state of its tree. -/
structure Mount where
  schema : Schema
  root : Blueprint
  registry : Registry
  session : Session

/-- What a host supplies at a time. -/
inductive Supply where
  | component (name : String) (component : Component)
  | components (registry : Registry)
  | data (members : Members)

namespace Setup

/-- A schema with no supplies and no callbacks. -/
def ofSchema (schema : Schema) : Setup := ⟨schema, .empty, [], ⟨false, false⟩⟩

/-- A supply wins over earlier ones. -/
def supply (s : Setup) : Supply → Setup
  | .component name c => { s with components := s.components.register name c }
  | .components registry => { s with components := s.components.merge registry }
  | .data members => { s with data := Dict.merge s.data members }

/-- Supply several things, one after the other. -/
def supplyAll (s : Setup) (supplies : List Supply) : Setup := supplies.foldl supply s

/-- Install the callbacks of the host. -/
def hook (s : Setup) (hooks : Hooks) : Setup := { s with hooks }

/-- The components of the host over the built-in ones. -/
def registry (s : Setup) : Registry := Registry.builtin.merge s.components

/-- Make the blueprint and start the session. -/
def mount (s : Setup) : Mount :=
  { schema := s.schema
    root := s.schema.root.blueprint
    registry := s.registry
    session := .start (Session.initialData s.schema.ownData? s.data) s.hooks }

/-- The notices of mounting. -/
def mountNotices (s : Setup) : List Notice :=
  s.schema.root.blueprintNotices ++
    [.mounted s.schema.kind s.schema.root.component s.registry.size]

end Setup

namespace Mount

/-- The view of the session as it is now. -/
def view (m : Mount) : View :=
  m.root.view m.registry m.session.document m.root.identity

def viewNotices (m : Mount) : List Notice :=
  m.root.viewNotices m.registry m.session.document m.root.identity

end Mount

/-! ### From text in one call -/

/-- The setup for a text, with data and components of a host. -/
def Setup.ofText (text : String) (components : Registry) (data : Members) :
    Except LoadError Setup := do
  return (ofSchema (← Schema.ofText text)).supplyAll [.data data, .components components]

/-- The view of a text.  A text that is no schema shows a placeholder. -/
def viewOfText (text : String) (components : Registry) (data : Members) : View :=
  match Setup.ofText text components data with
  | .ok s => s.mount.view
  | .error e => .placeholder (.noSchema e.message)

def viewOfTextNotices (text : String) (components : Registry) (data : Members) : List Notice :=
  Schema.textNotices text ++
    match Setup.ofText text components data with
    | .ok s => s.mountNotices ++ s.mount.viewNotices
    | .error e => [.noSchema e.message]

end ServerUi
