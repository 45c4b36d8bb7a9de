import ServerUi.View.Basic

/-!
# ServerUi.Component.Basic — what shows a node

A component turns the input of one node into a view; nothing looks inside it.  A registry names the
components of a tree; that no name stands twice in it is part of what a registry is.
-/

namespace ServerUi

/-- What a component is given for one node.  Props are filled in and children are views already; a
childless component gets none. -/
structure Input where
  component : String
  key : String
  props : Members
  handlers : List Handler
  children : Option (List View)
  document : Value

/-- What shows a node, given what it needs of it. -/
structure Component where
  view : Input → View

/-- Component types that never have children. -/
def childlessComponents : List String :=
  ["Divider", "Input", "Textarea", "Checkbox", "Switch", "Progress", "Skeleton", "Image",
    "ScrollProgress"]

/-- Whether components of the type are never given children. -/
def isChildless (component : String) : Bool := childlessComponents.contains component

/-- Components under names, in the order of the names. -/
structure Registry where
  entries : List (String × Component)
  ordered : Dict.Ordered entries

namespace Registry

def empty : Registry := ⟨[], .nil⟩

/-- Register a component in place of any other of that name. -/
def register (r : Registry) (name : String) (c : Component) : Registry :=
  ⟨Dict.insert name c r.entries, r.ordered.insert name c⟩

/-- Both registries' components; those of `overlay` win. -/
def merge (base overlay : Registry) : Registry :=
  ⟨Dict.merge base.entries overlay.entries, base.ordered.merge overlay.entries⟩

def get? (r : Registry) (name : String) : Option Component := Dict.get? name r.entries

def contains (r : Registry) (name : String) : Bool := (r.get? name).isSome

def names (r : Registry) : List String := Dict.keys r.entries

def size (r : Registry) : Nat := r.entries.length

end Registry

end ServerUi
