import ServerUi.Json.Skip
import ServerUi.Schema.Load

/-!
# ServerUi.Schema.Streamed — records read straight from text

A node or an action can be read from text in one pass.  Fields come in the order of the text, the
first flaw met is reported with its position, and a field written twice is one.  The content of a
node is held back until it is complete: any flaw of shape inside it is one flaw of the content.
-/

namespace ServerUi

/-- A reader that may find a value of the wrong shape. -/
abbrev FieldReader (α : Type) := Json.Reader Mismatch α

namespace Streamed

open Json Json.Reader

/-! ### Values of a known shape -/

/-- Report the value ahead as being of the wrong type.  Scalars are read for the report. -/
def wrongType {α : Type} (expected : Shape) : FieldReader α := placed do
  let wrong (found : Found) : FieldReader α := mismatch (.wrongType found expected)
  match ← peek? with
  | some 'n' => advance; word "ull".toList; wrong .null
  | some 't' => advance; word "rue".toList; wrong (.boolean true)
  | some 'f' => advance; word "alse".toList; wrong (.boolean false)
  | some '-' => advance; wrong (.ofNumber (← number false))
  | some '"' => advance; wrong (.string (← string))
  | some '[' => wrong .sequence
  | some '\x7b' => wrong .map
  | some c => if c.isDigit then wrong (.ofNumber (← number true)) else failAhead .expectedValue
  | none => failAhead .expectedValue

def text : FieldReader String := placed do
  match ← next? with
  | none => failAhead .eofInValue
  | some '"' => advance; string
  | some _ => wrongType .string

/-- `null`, or a value. -/
def nullable {α : Type} (read : FieldReader α) : FieldReader (Option α) := do
  match ← next? with
  | some 'n' => advance; word "ull".toList; return none
  | _ => return some (← read)

/-- The inside of a container, one level deeper, and its closing bracket. -/
def nested {α : Type} (depth : Nat) (inside : FieldReader α) (close : FieldReader Unit) :
    FieldReader α := do
  if depth ≤ 1 then failAhead .nestedTooDeeply
  else
    advance
    closedBy inside close

/-- An object read by `inside`. -/
def map {α : Type} (depth : Nat) (inside : FieldReader α) : FieldReader α := placed do
  match ← next? with
  | none => failAhead .eofInValue
  | some '\x7b' => nested depth inside endObject
  | some _ => wrongType .map

/-- A record: an object read by `members` or an array read by `items`. -/
def record {α : Type} (r : Record) (depth : Nat) (members items : FieldReader α) :
    FieldReader α := placed do
  match ← next? with
  | none => failAhead .eofInValue
  | some '[' => nested depth items endList
  | some '\x7b' => nested depth members endObject
  | some _ => wrongType (.record r)

/-- An object of any members. -/
def table (depth : Nat) : FieldReader Members :=
  map depth do
    let read ← Reader.members (2 * (← get).rest.length + 2) (depth - 1) true
    return Dict.ofList (Value.normalizeMembers read)

/-- Read the members of an object into a draft; `field` reads the value of one key. -/
def fields {δ : Type} (field : String → δ → FieldReader δ) :
    Nat → Bool → δ → FieldReader δ
  | 0, _, draft => return draft
  | fuel + 1, first, draft => do
    if ← nextKey first then
      let key ← string
      let draft ← field key draft
      fields field fuel false draft
    else return draft

/-- All members of the object ahead. -/
def draft {δ : Type} (empty : δ) (field : String → δ → FieldReader δ) : FieldReader δ := do
  fields field ((← get).rest.length + 1) true empty

/-- A field that may be written once. -/
def once {α : Type} (name : String) (old : Option α) (read : FieldReader α) :
    FieldReader (Option α) := do
  if old.isSome then mismatch (.repeatedField name)
  else
    colon
    return some (← read)

/-- A member without a meaning. -/
def ignored {δ : Type} (draft : δ) : FieldReader δ := do
  colon
  skip
  return draft

/-- A field that has to be there. -/
def required {α : Type} (name : String) : Option α → FieldReader α
  | none => mismatch (.missingField name)
  | some a => return a

/-- The item at a place of a record in array form that has to be there. -/
def needed {α : Type} (r : Record) (i : Nat) (read : FieldReader α) : FieldReader α := do
  if ← nextItem (i == 0) then read else mismatch (.tooShort i r)

/-- An item of a record in array form that may be left out at the end. -/
def trailing {α : Type} (read : FieldReader α) : FieldReader (Option α) := do
  if ← nextItem false then return some (← read) else return none

/-! ### Records -/

/-- The fields of a gate that were read so far. -/
structure GateDraft where
  path : Option String := none
  operator : Option String := none
  value : Option Value := none

/-- A gate; its expected value may be anything. -/
def gate (depth : Nat) : FieldReader Gate :=
  record .gate depth
    (do
      let d : GateDraft ← draft {} fun key d => do
        match key with
        | "path" => return { d with path := ← once key d.path text }
        | "operator" => return { d with operator := ← once key d.operator text }
        | "value" => return { d with value := ← once key d.value (ordered (depth - 1)) }
        | _ => ignored d
      let path ← required "path" d.path
      let operator ← required "operator" d.operator
      return ⟨path, .ofSpelling operator, d.value⟩)
    (do
      let path ← needed .gate 0 text
      let operator ← needed .gate 1 text
      let value ← trailing (ordered (depth - 1))
      return ⟨path, .ofSpelling operator, value⟩)

/-- The fields of an action that were read so far. -/
structure ActionDraft where
  kind : Option String := none
  payload : Option (Option Members) := none

/-- An action; its payload is a table. -/
def action (depth : Nat) : FieldReader Action :=
  record .action depth
    (do
      let d : ActionDraft ← draft {} fun key d => do
        match key with
        | "type" => return { d with kind := ← once key d.kind text }
        | "payload" =>
          return { d with payload := ← once key d.payload (nullable (table (depth - 1))) }
        | _ => ignored d
      let kind ← required "type" d.kind
      return ⟨.ofSpelling kind, d.payload.join⟩)
    (do
      let kind ← needed .action 0 text
      let payload ← trailing (nullable (table (depth - 1)))
      return ⟨.ofSpelling kind, payload.join⟩)

/-- The handlers of a node; of entries for one event the last counts. -/
def handlers (depth : Nat) : FieldReader Handlers :=
  map depth do
    draft [] fun key d => do
      colon
      let a ← action (depth - 1)
      return Dict.insert (Event.ofSpelling key) a d

/-! ### Content held back -/

/-- Whether an object has one of the fields twice. -/
def repeatsField (names : List String) (members : Members) : Bool :=
  names.any fun name => 1 < (members.filter (·.1 = name)).length

def repeatsInGate : Option Value → Bool
  | some (.obj members) => repeatsField ["path", "operator", "value"] members
  | _ => false

def repeatsInAction : Value → Bool
  | .obj members => repeatsField ["type", "payload"] members
  | _ => false

/-- Whether an entry repeats a field or is no action, superseded entries included. -/
def badHandlers : Option Value → Bool
  | some (.obj members) => members.any fun (_, v) =>
    repeatsInAction v || !(Action.ofValue v.normalize).toBool
  | _ => false

mutual

/-- Whether a record of a node, as written, cannot be read in one pass. -/
def repeatsInNode : Value → Bool
  | .obj members =>
    repeatsField ["type", "props", "children", "key", "when", "on"] members ||
      repeatsInGate (Dict.get? "when" members) || badHandlers (Dict.get? "on" members) ||
      repeatsInMember members
  | .arr items =>
    repeatsInGate items[4]? || badHandlers items[5]? || repeatsInItem items
  | _ => false

def repeatsInMember : Members → Bool
  | [] => false
  | (name, v) :: rest => if name = "children" then repeatsInContent v else repeatsInMember rest

def repeatsInItem : List Value → Bool
  | _ :: _ :: v :: _ => repeatsInContent v
  | _ => false

/-- Content that is no list has no records to repeat a field in. -/
def repeatsInContent : Value → Bool
  | .arr items => repeatsInNodes items
  | _ => false

def repeatsInNodes : List Value → Bool
  | [] => false
  | v :: rest => repeatsInNode v || repeatsInNodes rest

end

/-- Content that is complete but not yet understood. -/
def content (depth : Nat) : FieldReader Content := do
  let v ← written depth
  match repeatsInContent v, Content.ofValue v.normalize with
  | false, .ok content => return content
  | _, _ => mismatch .noContent

/-- The fields of a node that were read so far. -/
structure NodeDraft where
  component : Option String := none
  props : Option (Option Members) := none
  content : Option (Option Content) := none
  key : Option (Option String) := none
  gate : Option (Option Gate) := none
  handlers : Option (Option Handlers) := none

/-- A node; its content is held back until it is complete. -/
def node (depth : Nat) : FieldReader Node :=
  let inner := depth - 1
  record .node depth
    (do
      let d : NodeDraft ← draft {} fun key d => do
        match key with
        | "type" => return { d with component := ← once key d.component text }
        | "props" => return { d with props := ← once key d.props (nullable (table inner)) }
        | "children" => return { d with content := ← once key d.content (nullable (content inner)) }
        | "key" => return { d with key := ← once key d.key (nullable text) }
        | "when" => return { d with gate := ← once key d.gate (nullable (gate inner)) }
        | "on" => return { d with handlers := ← once key d.handlers (nullable (handlers inner)) }
        | _ => ignored d
      let component ← required "type" d.component
      return { component, props := d.props.join, content := d.content.join.getD .absent,
               key := d.key.join, gate := d.gate.join, handlers := d.handlers.join })
    (do
      let component ← needed .node 0 text
      let props ← trailing (nullable (table inner))
      let content ← trailing (nullable (content inner))
      let key ← trailing (nullable text)
      let gate ← trailing (nullable (gate inner))
      let handlers ← trailing (nullable (handlers inner))
      return { component, props := props.join, content := content.join.getD .absent,
               key := key.join, gate := gate.join, handlers := handlers.join })

end Streamed

/-! ### Whole texts -/

/-- A text that could not be read: the flaw and, where it is known, its position. -/
structure TextError where
  flaw : Json.Flaw Misfit
  position : Option Json.Position
  deriving DecidableEq, Repr

namespace TextError

def describe : Json.Flaw Misfit → String
  | .text fault => fault.message
  | .shape m => m.message

def message (e : TextError) : String :=
  match e.position with
  | some p => p.describe (describe e.flaw)
  | none => describe e.flaw

end TextError

namespace Streamed

/-- Read a text that holds nothing but what `read` reads. -/
def whole {μ α : Type} (misfit : μ → Misfit) (read : Json.Reader μ α) (text : String) :
    Except TextError α :=
  let reader : Json.Reader μ α := do
    let a ← read
    Json.Reader.endOfText
    return a
  match reader (Json.Cursor.ofString text) with
  | .ok a _ => .ok a
  | .error e _ => .error ⟨e.cause.map misfit, e.position⟩

/-- A schema read as one value, so that a misfit has no position. -/
def schema : Json.Reader Misfit Schema := do
  match Schema.ofValue (← Json.Reader.ordered Json.Reader.depthLimit) with
  | .ok s => return s
  | .error m => Json.Reader.mismatch m

end Streamed

/-- Read a node from text in one pass. -/
def Node.ofText : String → Except TextError Node :=
  Streamed.whole .mismatch (Streamed.node Json.Reader.depthLimit)

/-- Read an action from text in one pass. -/
def Action.ofText : String → Except TextError Action :=
  Streamed.whole .mismatch (Streamed.action Json.Reader.depthLimit)

/-- A schema whose text may be part of a larger one. -/
def Schema.embedded : String → Except TextError Schema := Streamed.whole id Streamed.schema

end ServerUi
