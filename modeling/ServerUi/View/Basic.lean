import ServerUi.Interaction.Action
import ServerUi.Interaction.Event
import ServerUi.Schema.Encode

/-!
# ServerUi.View.Basic — what is shown

A view is a tree of text, elements, fragments and placeholders that belongs to no host.  Queries
walk it depth first, a view before its children.
-/

namespace ServerUi

/-- An event wired to an action. -/
structure Handler where
  event : Event
  action : Action
  preventDefault : Bool
  deriving DecidableEq, Repr

/-- A submission never runs the host's own behaviour beside the action. -/
def Handler.wire (event : Event) (action : Action) : Handler :=
  ⟨event, action, event = .submit⟩

/-- What cannot be shown. -/
inductive Placeholder.Cause where
  | unknownComponent (name : String)
  | noSchema
  deriving DecidableEq, Repr

/-- A visible mark in the place of something that cannot be shown. -/
structure Placeholder where
  cause : Placeholder.Cause
  message : String
  deriving DecidableEq, Repr

namespace Placeholder

def unknownComponent (name : String) : Placeholder :=
  ⟨.unknownComponent name, "Unknown component: " ++ name⟩

def noSchema (detail : String) : Placeholder := ⟨.noSchema, "Invalid schema: " ++ detail⟩

end Placeholder

mutual

/-- What is shown in the place of a node. -/
inductive View where
  | empty
  | text (text : String)
  | element (element : Element)
  | fragment (children : List View)
  | placeholder (placeholder : Placeholder)

/-- A host element.  `component` names what produced it, `key` tells it from its siblings. -/
structure Element where
  component : String
  tag : String
  key : Option String
  attrs : Members
  handlers : List Handler
  children : List View
  void : Bool

end

instance : Inhabited View := ⟨.empty⟩

/-- The handler of an event. -/
def Element.handler? (e : Element) (event : Event) : Option Handler :=
  e.handlers.find? (·.event = event)

namespace View

def isEmpty : View → Bool
  | empty => true
  | _ => false

mutual

/-- The view and everything below it, a view before its children. -/
def preorder : View → List View
  | element ⟨component, tag, key, attrs, handlers, children, void⟩ =>
    element ⟨component, tag, key, attrs, handlers, children, void⟩ :: preorders children
  | fragment children => fragment children :: preorders children
  | v => [v]

def preorders : List View → List View
  | [] => []
  | v :: rest => v.preorder ++ preorders rest

end

def element? : View → Option Element
  | element e => some e
  | _ => none

def placeholder? : View → Option Placeholder
  | placeholder p => some p
  | _ => none

/-- The text a view shows itself, its children aside. -/
def ownText : View → String
  | text t => t
  | placeholder p => p.message
  | _ => ""

/-- The elements of a view, depth first. -/
def elements (v : View) : List Element := v.preorder.filterMap element?

def elementWithKey? (v : View) (key : String) : Option Element :=
  v.elements.find? (·.key = some key)

/-- The elements a component produced. -/
def elementsOf (v : View) (component : String) : List Element :=
  v.elements.filter (·.component = component)

/-- The placeholders of a view, depth first. -/
def placeholders (v : View) : List Placeholder := v.preorder.filterMap placeholder?

/-- The handlers of an event anywhere in the view. -/
def handlersOf (v : View) (event : Event) : List Handler :=
  v.elements.flatMap fun e => e.handlers.filter (·.event = event)

/-- All text of the view, placeholders' messages included. -/
def shownText (v : View) : String := String.join (v.preorder.map ownText)

end View

/-- All text below the element. -/
def Element.shownText (e : Element) : String := String.join (e.children.map View.shownText)

/-! ### As JSON -/

def Handler.toValue (h : Handler) : Value :=
  .obj [("event", .str h.event.spelling), ("action", h.action.toValue),
    ("prevent_default", .bool h.preventDefault)]

def Placeholder.Cause.members : Placeholder.Cause → Members
  | unknownComponent name => [("error", .str "unknown_component"), ("name", .str name)]
  | noSchema => [("error", .str "invalid_schema")]

def Placeholder.members (p : Placeholder) : Members :=
  p.cause.members ++ [("message", .str p.message)]

/-- A member that is left out when it holds nothing. -/
def listMember (name : String) : List Value → Members
  | [] => []
  | items => [(name, .arr items)]

mutual

/-- A view as JSON, with all that it is made of. -/
def View.toValue : View → Value
  | .empty => .obj [("kind", .str "empty")]
  | .text t => .obj [("kind", .str "text"), ("text", .str t)]
  | .element e => .obj (("kind", .str "element") :: e.members)
  | .fragment children =>
    .obj [("kind", .str "fragment"), ("children", .arr (viewsToValues children))]
  | .placeholder p => .obj (("kind", .str "placeholder") :: p.members)

def Element.members : Element → Members
  | ⟨component, tag, key, attrs, handlers, children, void⟩ =>
    [("component", .str component), ("tag", .str tag)] ++ optionalMember "key" (key.map .str) ++
      (if attrs.isEmpty then [] else [("attrs", .obj attrs)]) ++
      listMember "handlers" (handlers.map Handler.toValue) ++
      listMember "children" (viewsToValues children) ++
      (if void then [("void", .bool true)] else [])

def viewsToValues : List View → List Value
  | [] => []
  | v :: rest => v.toValue :: viewsToValues rest

end

end ServerUi
