import ServerUi.Binding.Template
import ServerUi.Component.Basic

/-!
# ServerUi.Component.Host — components that a host may bring

A host registers components of its own beside the built-in ones or in their place.  They need not be
elements: some are text, some hand on their children, some look into the document themselves.
-/

namespace ServerUi

namespace Component

/-- An element that takes the props as they are. -/
def raw (tag : String) (void : Bool) : Component := ⟨fun input =>
  .element { component := input.component, tag, key := some input.key, attrs := input.props,
             handlers := input.handlers, children := input.children.getD [], void }⟩

/-- The children without an element around them. -/
def fragment : Component := ⟨fun input => .fragment (input.children.getD [])⟩

/-- A fixed text. -/
def text (t : String) : Component := ⟨fun _ => .text t⟩

/-- The value at a path of the document, as text. -/
def data (path : String) : Component := ⟨fun input =>
  .text (((input.document.get? path).map Value.display).getD "undefined")⟩

/-- A description of the input, as JSON. -/
def inspect : Component := ⟨fun input =>
  let count : Value := match input.children with
    | some children => .num (.int children.length)
    | none => .null
  .text (Value.obj [("children", count), ("component", .str input.component),
    ("events", .arr (input.handlers.map fun h => .str h.event.spelling)),
    ("key", .str input.key), ("props", .obj input.props)]).compact⟩

/-- Nothing at all. -/
def nothing : Component := ⟨fun _ => .empty⟩

end Component

end ServerUi
