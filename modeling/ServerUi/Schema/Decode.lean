import ServerUi.Schema.Basic
import ServerUi.Schema.Mismatch

/-!
# ServerUi.Schema.Decode — schemas from JSON

A record is read from an object, whatever the order of its members, or from an array that lists its
fields in the order of their declaration.  Unknown members are passed over and optional fields may
be absent or `null`.

Of several flaws in an object the one whose key comes first is reported; a required field that is
missing is noticed last.

Readers of this kind are derived from the declarations of the records.  What a derived reader
accepts and how it words a mismatch is modelled after the documentation of the library that derives
it.
-/

namespace ServerUi

/-- What a value is read as, or why it is not. -/
abbrev Decoded (α : Type) := Except Mismatch α

namespace Decode

def wrong {α : Type} (v : Value) (expected : Shape) : Decoded α :=
  .error (.wrongType (.ofValue v) expected)

def text : Value → Decoded String
  | .str s => .ok s
  | v => wrong v .string

def table : Value → Decoded Members
  | .obj members => .ok members
  | v => wrong v .map

/-- A field that may be absent. -/
def present {α : Type} (read : Value → Decoded α) : Option Value → Decoded (Option α)
  | none => .ok none
  | some v => (read v).map some

/-- A field that may be absent or `null`. -/
def nullable {α : Type} (read : Value → Decoded α) : Option Value → Decoded (Option α)
  | none | some .null => .ok none
  | some v => (read v).map some

/-- A field that has to be there. -/
def required {α : Type} (field : String) : Option α → Decoded α
  | none => .error (.missingField field)
  | some a => .ok a

/-- The item at a place of a record that is written as a list. -/
def item {α : Type} (record : Record) (read : Value → Decoded α) (items : List Value) (i : Nat) :
    Decoded α :=
  match items[i]? with
  | none => .error (.tooShort i record)
  | some v => read v

/-- A list may not be longer than the record. -/
def atMost (record : Record) (items : List Value) : Decoded Unit :=
  if items.length ≤ record.size then .ok () else .error (.tooLong items.length)

end Decode

open Decode

/-! ### Gates and actions -/

/-- A gate from the members of an object. -/
def Gate.ofMembers (members : Members) : Decoded Gate := do
  let operator ← present text (Dict.get? "operator" members)
  let path ← present text (Dict.get? "path" members)
  let path ← required "path" path
  let operator ← required "operator" operator
  return ⟨path, .ofSpelling operator, Dict.get? "value" members⟩

/-- A gate from a list of its fields. -/
def Gate.ofItems (items : List Value) : Decoded Gate := do
  let path ← item .gate text items 0
  let operator ← item .gate text items 1
  atMost .gate items
  return ⟨path, .ofSpelling operator, items[2]?⟩

def Gate.ofValue : Value → Decoded Gate
  | .obj members => Gate.ofMembers members
  | .arr items => Gate.ofItems items
  | v => wrong v (.record .gate)

/-- An action from the members of an object. -/
def Action.ofMembers (members : Members) : Decoded Action := do
  let payload ← nullable table (Dict.get? "payload" members)
  let kind ← present text (Dict.get? "type" members)
  let kind ← required "type" kind
  return ⟨.ofSpelling kind, payload⟩

/-- An action from a list of its fields. -/
def Action.ofItems (items : List Value) : Decoded Action := do
  let kind ← item .action text items 0
  let payload ← nullable table items[1]?
  atMost .action items
  return ⟨.ofSpelling kind, payload⟩

def Action.ofValue : Value → Decoded Action
  | .obj members => Action.ofMembers members
  | .arr items => Action.ofItems items
  | v => wrong v (.record .action)

/-- Every entry has to be an action; the entries are put in event order. -/
def Handlers.ofMembers (members : Members) : Decoded Handlers := do
  let actions ← members.mapM fun (name, v) => do
    return (Event.ofSpelling name, ← Action.ofValue v)
  return Dict.ofList actions

def Handlers.ofValue : Value → Decoded Handlers
  | .obj members => Handlers.ofMembers members
  | v => wrong v .map

/-! ### Nodes -/

/-- A node from the members of an object, its content read already. -/
def Node.ofMembers (members : Members) (content : Decoded Content) : Decoded Node := do
  -- in the order of the keys, so that the first flaw is the one reported
  let content ← content
  let key ← nullable text (Dict.get? "key" members)
  let handlers ← nullable Handlers.ofValue (Dict.get? "on" members)
  let props ← nullable table (Dict.get? "props" members)
  let component ← present text (Dict.get? "type" members)
  let gate ← nullable Gate.ofValue (Dict.get? "when" members)
  let component ← required "type" component
  return { component, props, content, key, gate, handlers }

/-- A node from a list of its fields, its content read already. -/
def Node.ofItems (items : List Value) (content : Decoded Content) : Decoded Node := do
  let component ← item .node text items 0
  let props ← nullable table items[1]?
  let content ← content
  let key ← nullable text items[3]?
  let gate ← nullable Gate.ofValue items[4]?
  let handlers ← nullable Handlers.ofValue items[5]?
  atMost .node items
  return { component, props, content, key, gate, handlers }

mutual

/-- A node from JSON. -/
def Node.ofValue : Value → Decoded Node
  | .obj members => Node.ofMembers members (contentMember members)
  | .arr items => Node.ofItems items (contentItem items)
  | v => wrong v (.record .node)

/-- The content among the members of a node. -/
def contentMember : Members → Decoded Content
  | [] => .ok .absent
  | (name, v) :: rest => if name = "children" then Content.ofValue v else contentMember rest

/-- The content among the fields of a node in order. -/
def contentItem : List Value → Decoded Content
  | _ :: _ :: v :: _ => Content.ofValue v
  | _ => .ok .absent

/-- Content from JSON. A flaw in one of the nodes is a flaw of the content. -/
def Content.ofValue : Value → Decoded Content
  | .null => .ok .absent
  | .str source => .ok (.text source)
  | .arr items =>
    match nodesOfValues items with
    | .ok nodes => .ok (.nodes nodes)
    | .error _ => .error .noContent
  | _ => .error .noContent

def nodesOfValues : List Value → Decoded (List Node)
  | [] => .ok []
  | v :: rest => do
    let n ← Node.ofValue v
    return n :: (← nodesOfValues rest)

end

/-! ### Pages -/

def Decode.texts : Value → Decoded (List String)
  | .arr items => items.mapM text
  | v => wrong v .sequence

/-- Metadata from JSON. Members that are no fields are kept. -/
def Page.Metadata.ofValue : Value → Decoded Page.Metadata
  | .obj members => do
    let description ← nullable text (Dict.get? "description" members)
    let keywords ← nullable texts (Dict.get? "keywords" members)
    let extra := Dict.erase "keywords" (Dict.erase "description" members)
    return { description, keywords, extra }
  | v => wrong v (.record .metadata)

/-- A page from the members of an object; its identifier may be left out. -/
def Page.ofMembers (members : Members) : Decoded Page := do
  let data ← nullable table (Dict.get? "data" members)
  let id ← present text (Dict.get? "id" members)
  let metadata ← nullable Page.Metadata.ofValue (Dict.get? "meta" members)
  let root ← present Node.ofValue (Dict.get? "root" members)
  let title ← nullable text (Dict.get? "title" members)
  let root ← required "root" root
  return { id := id.getD "", title, metadata, data, root }

/-- A page from a list of its fields. -/
def Page.ofItems (items : List Value) : Decoded Page := do
  let id ← present text items[0]?
  let title ← nullable text items[1]?
  let metadata ← nullable Page.Metadata.ofValue items[2]?
  let data ← nullable table items[3]?
  let root ← item .page Node.ofValue items 4
  atMost .page items
  return { id := id.getD "", title, metadata, data, root }

def Page.ofValue : Value → Decoded Page
  | .obj members => Page.ofMembers members
  | .arr items => Page.ofItems items
  | v => wrong v (.record .page)

end ServerUi
