import ServerUi.Json.Value

/-!
# ServerUi.Document.Path — places in a document

A path is a list of segments, written with dots between them.  A segment names a member of an
object or, as a decimal number within range, an item of an array.

`Value.get?` follows a path and answers `none` where it leads nowhere.  `Value.set` writes at a
path and always lands: an array that is not indexed by the segment becomes an object keyed by
index, and anything that holds no members makes room for an object.
-/

namespace ServerUi

/-- The segments of a path, from the outside in. -/
abbrev Path := List String

namespace Path

/-- The pieces of a text between dots. -/
def split : List Char → List (List Char)
  | [] => [[]]
  | c :: rest =>
    if c = '.' then [] :: split rest
    else match split rest with
      | [] => [[c]]
      | piece :: pieces => (c :: piece) :: pieces

/-- The segments of a written path. -/
def ofString (s : String) : Path := (split s.toList).map String.ofList

/-- The array index a segment stands for, when it is below `length`. -/
def position? (segment : String) (length : Nat) : Option Nat :=
  let digits := segment.toList
  if digits ≠ [] ∧ digits.all Char.isDigit then
    let i := Nat.ofDigitChars 10 digits 0
    if i < length then some i else none
  else none

end Path

namespace Value

/-- The member or item a segment names. -/
def child? (v : Value) (segment : String) : Option Value :=
  match v with
  | .obj members => Dict.get? segment members
  | .arr items => (Path.position? segment items.length).bind (items[·]?)
  | _ => none

/-- The value at the end of a path. -/
def follow? (v : Value) : Path → Option Value
  | [] => some v
  | segment :: rest => (v.child? segment).bind (follow? · rest)

/-- The value at a written path. -/
def get? (v : Value) (path : String) : Option Value := v.follow? (Path.ofString path)

/-- The items of an array as members keyed by index. -/
def keyedByIndex (items : List Value) : Members :=
  Dict.ofList (items.zipIdx.map fun (v, i) => (toString i, v))

/-- The members a value holds or turns into. -/
def membersOf : Option Value → Members
  | some (.obj members) => members
  | some (.arr items) => keyedByIndex items
  | _ => []

/-- Write `value` at the end of a path below `target`. -/
def write (target : Option Value) (path : Path) (value : Value) : Value :=
  match path with
  | [] => value
  | segment :: rest =>
    -- what the path leads through becomes an object if it is no array with the item
    let asMember :=
      let members := membersOf target
      .obj (Dict.insert segment (write (Dict.get? segment members) rest value) members)
    match target with
    | some (.arr items) =>
      match Path.position? segment items.length with
      | some i => .arr (items.set i (write items[i]? rest value))
      | none => asMember
    | _ => asMember

/-- The document with `value` at a written path. -/
def set (v : Value) (path : String) (value : Value) : Value :=
  write (some v) (Path.ofString path) value

end Value

end ServerUi
