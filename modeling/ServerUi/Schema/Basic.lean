import ServerUi.Document.Gate
import ServerUi.Interaction.Action
import ServerUi.Interaction.Event

/-!
# ServerUi.Schema.Basic — nodes and pages

A schema is a bare node or a page around a root node.  A node names the component that shows it
and may carry props, content, an identity among its siblings, a gate and event handlers.  Absent
and empty are different: a node without props is not a node with no prop in its props.
-/

namespace ServerUi

/-- Event handlers as written, in event order. -/
abbrev Handlers := List (Event × Action)

mutual

/-- One component of a tree, with what it shows and when. -/
structure Node where
  component : String
  props : Option Members
  content : Content
  key : Option String
  gate : Option Gate
  handlers : Option Handlers

/-- Text or nodes, never both. -/
inductive Content where
  | absent
  | text (source : String)
  | nodes (nodes : List Node)

end

namespace Node

/-- A node with nothing but its component. -/
def ofComponent (component : String) : Node := ⟨component, none, .absent, none, none, none⟩

instance : Inhabited Node := ⟨ofComponent ""⟩

def insertProp (n : Node) (name : String) (value : Value) : Node :=
  { n with props := some (Dict.insert name value (n.props.getD [])) }

def setText (n : Node) (source : String) : Node := { n with content := .text source }

def setNodes (n : Node) (nodes : List Node) : Node := { n with content := .nodes nodes }

def setKey (n : Node) (key : String) : Node := { n with key := some key }

def setGate (n : Node) (gate : Gate) : Node := { n with gate := some gate }

def insertHandler (n : Node) (event : Event) (action : Action) : Node :=
  { n with handlers := some (Dict.insert event action (n.handlers.getD [])) }

end Node

/-- Page metadata; entries without a meaning of their own are kept as they are. -/
structure Page.Metadata where
  description : Option String
  keywords : Option (List String)
  extra : Members

/-- A root node with the data and metadata of a page. -/
structure Page where
  id : String
  title : Option String
  metadata : Option Page.Metadata
  data : Option Members
  root : Node

/-- What a document describes. -/
inductive Schema.Kind where
  | node
  | page
  deriving DecidableEq, Repr

/-- A node by itself, or a page. -/
inductive Schema where
  | node (node : Node)
  | page (page : Page)

namespace Schema

def kind : Schema → Schema.Kind
  | node _ => .node
  | page _ => .page

/-- The node at the root. -/
def root : Schema → Node
  | node n => n
  | page p => p.root

/-- The data a page brings along. -/
def ownData? : Schema → Option Members
  | node _ => none
  | page p => p.data

def page? : Schema → Option Page
  | node _ => none
  | page p => some p

end Schema

end ServerUi
