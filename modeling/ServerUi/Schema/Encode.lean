import ServerUi.Schema.Basic

/-!
# ServerUi.Schema.Encode — schemas as JSON

A record is an object with its fields in the order of its declaration; an absent field is left out.
A gate's expected value is written when it is present, `null` included.
-/

namespace ServerUi

/-- The member of an optional field. -/
def optionalMember (name : String) : Option Value → Members
  | none => []
  | some v => [(name, v)]

/-- A gate as JSON. -/
def Gate.toValue (g : Gate) : Value :=
  .obj ([("path", .str g.path), ("operator", .str g.operator.spelling)] ++
    optionalMember "value" g.value)

/-- An action as JSON. -/
def Action.toValue (a : Action) : Value :=
  .obj (("type", .str a.kind.spelling) :: optionalMember "payload" (a.payload.map .obj))

/-- Handlers as JSON, under the spellings of their events. -/
def Handlers.toValue (handlers : Handlers) : Value :=
  .obj (handlers.map fun (event, action) => (event.spelling, action.toValue))

mutual

/-- A node as JSON. -/
def Node.toValue : Node → Value
  | ⟨component, props, content, key, gate, handlers⟩ =>
    .obj (("type", .str component) :: optionalMember "props" (props.map .obj) ++
      optionalMember "children" content.toValue? ++ optionalMember "key" (key.map .str) ++
      optionalMember "when" (gate.map Gate.toValue) ++
      optionalMember "on" (handlers.map Handlers.toValue))

/-- Content as JSON; absent content has none. -/
def Content.toValue? : Content → Option Value
  | .absent => none
  | .text source => some (.str source)
  | .nodes nodes => some (.arr (nodesToValues nodes))

def nodesToValues : List Node → List Value
  | [] => []
  | n :: rest => n.toValue :: nodesToValues rest

end

/-- Metadata as JSON: its fields, then what else it keeps. -/
def Page.Metadata.toValue (m : Page.Metadata) : Value :=
  .obj (optionalMember "description" (m.description.map .str) ++
    optionalMember "keywords" (m.keywords.map fun ks => .arr (ks.map .str)) ++ m.extra)

/-- A page as JSON. -/
def Page.toValue (p : Page) : Value :=
  .obj (("id", .str p.id) :: optionalMember "title" (p.title.map .str) ++
    optionalMember "meta" (p.metadata.map Page.Metadata.toValue) ++
    optionalMember "data" (p.data.map .obj) ++ [("root", p.root.toValue)])

/-- A schema as JSON. Its kind is not written, as a root tells it. -/
def Schema.toValue : Schema → Value
  | .node n => n.toValue
  | .page p => p.toValue

end ServerUi
