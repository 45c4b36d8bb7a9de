import ServerUi.Component.Basic
import ServerUi.Binding.ValueTemplate

/-!
# ServerUi.Blueprint — nodes ready to be shown

A blueprint is a node whose strings have been read for bindings and whose handlers of events nobody
wires are gone.  It is made once and gives a view of any number of documents.

Every blueprint has a view.  A closed gate shows nothing, a component nobody registered shows a
placeholder, and neither disturbs the siblings.  A child without a key is identified by its parent's
identity and its index.
-/

namespace ServerUi

mutual

/-- A node whose bindings were read and whose handlers are all wired. -/
structure Blueprint where
  component : String
  key : Option String
  gate : Option Gate
  props : MemberTemplates
  handlers : Handlers
  content : BlueprintContent

/-- Text or nodes, ready to be shown. -/
inductive BlueprintContent where
  | absent
  | text (template : Template)
  | nodes (nodes : List Blueprint)

end

/-- The handlers of events that are wired. -/
def Handlers.wired (handlers : Handlers) : Handlers := handlers.filter (·.1.isWired)

mutual

/-- Make a node ready to be shown. -/
def Node.blueprint : Node → Blueprint
  | ⟨component, props, content, key, gate, handlers⟩ =>
    { component, key, gate
      props := ValueTemplate.ofMembers (props.getD [])
      handlers := Handlers.wired (handlers.getD [])
      content := content.blueprint }

def Content.blueprint : Content → BlueprintContent
  | .absent => .absent
  | .text source => .text (Template.ofString source)
  | .nodes nodes => .nodes (blueprints nodes)

def blueprints : List Node → List Blueprint
  | [] => []
  | n :: rest => n.blueprint :: blueprints rest

end

/-! ### Identities -/

/-- The identity of a root without a key. -/
def rootIdentity : String := "root"

/-- The identity of a blueprint that is shown as a root. -/
def Blueprint.identity (b : Blueprint) : String := b.key.getD rootIdentity

/-- Append `~` until the key is none of the taken ones; `fuel` bounds how often. -/
def avoid (taken : List String) : Nat → String → String
  | 0, key => key
  | fuel + 1, key => if taken.contains key then avoid taken fuel (key ++ "~") else key

/-- The identity of the child without a key at `index`, distinct from the keys of its siblings.
One `~` for each of them is enough. -/
def positionalKey (parent : String) (index : Nat) (taken : List String) : String :=
  avoid taken taken.length (parent ++ "." ++ toString index)

/-- The keys given to siblings by the schema. -/
def givenKeys (siblings : List Blueprint) : List String := siblings.filterMap Blueprint.key

/-! ### Views -/

mutual

/-- The view of a blueprint under an identity. -/
def Blueprint.view (registry : Registry) (document : Value) : Blueprint → String → View
  | ⟨component, _, gate, props, handlers, content⟩, key =>
    if gate.all (·.opens document) then
      match registry.get? component with
      | none => .placeholder (.unknownComponent component)
      | some c => c.view
        { component, key, document
          props := ValueTemplate.fillMembers document props
          handlers := handlers.map fun (event, action) => .wire event action
          -- no views are made of content that is not going to be shown
          children := if isChildless component then none else content.views registry document key }
    else .empty

/-- The views of the content under the identity of its parent. -/
def BlueprintContent.views (registry : Registry) (document : Value) :
    BlueprintContent → String → Option (List View)
  | .absent, _ => none
  | .text template, _ => some [.text (template.fill document)]
  | .nodes nodes, parent =>
    some (viewSiblings registry document parent (givenKeys nodes) nodes 0)

/-- The views of siblings from `index` on. -/
def viewSiblings (registry : Registry) (document : Value) (parent : String) (taken : List String) :
    List Blueprint → Nat → List View
  | [], _ => []
  | b :: rest, index =>
    b.view registry document (b.key.getD (positionalKey parent index taken)) ::
      viewSiblings registry document parent taken rest (index + 1)

end

/-- The view of a node as a root. -/
def Node.view (registry : Registry) (document : Value) (n : Node) : View :=
  n.blueprint.view registry document n.blueprint.identity

end ServerUi
