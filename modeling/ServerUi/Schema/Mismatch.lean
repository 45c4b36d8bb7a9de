import ServerUi.Json.Fault
import ServerUi.Text.Quoted

/-!
# ServerUi.Schema.Mismatch — JSON of the wrong shape

A mismatch says what was found and what was expected there.
-/

namespace ServerUi

/-- What stood in the place of something else. -/
inductive Found where
  | null
  | boolean (b : Bool)
  | integer (i : Int)
  | float (x : Binary64)
  | string (s : String)
  | sequence
  | map
  deriving DecidableEq, Repr

namespace Found

def ofNumber : Number → Found
  | .int i => integer i
  | .float x => float x

def ofValue : Value → Found
  | .null => null
  | .bool b => boolean b
  | .num n => ofNumber n
  | .str s => string s
  | .arr _ => sequence
  | .obj _ => map

def describe : Found → String
  | null => "null"
  | boolean b => "boolean `" ++ (if b then "true" else "false") ++ "`"
  | integer i => "integer `" ++ toString i ++ "`"
  | float x => "floating point `" ++ x.positional ++ "`"
  | string s => "string " ++ Text.quoted s
  | sequence => "sequence"
  | map => "map"

end Found

/-- The records a schema is made of. -/
inductive Record where
  | node
  | gate
  | action
  | page
  | metadata
  deriving DecidableEq, Repr

namespace Record

def describe : Record → String
  | node => "struct SduiNode"
  | gate => "struct Condition"
  | action => "struct Action"
  | page => "struct PageSchema"
  | metadata => "struct PageMeta"

/-- How many fields the record has. -/
def size : Record → Nat
  | node => 6
  | gate => 3
  | action => 2
  | page => 5
  | metadata => 3

end Record

/-- What was expected. -/
inductive Shape where
  | string
  | map
  | sequence
  | record (r : Record)
  deriving DecidableEq, Repr

def Shape.describe : Shape → String
  | string => "a string"
  | map => "a map"
  | sequence => "a sequence"
  | record r => r.describe

/-- Why a value is not what was expected. -/
inductive Mismatch where
  | wrongType (found : Found) (expected : Shape)
  /-- A list that ends before a field the record needs. -/
  | tooShort (length : Nat) (record : Record)
  /-- A list with more items than the record has fields. -/
  | tooLong (length : Nat)
  | missingField (field : String)
  | repeatedField (field : String)
  /-- Content that is neither text nor a list of nodes. -/
  | noContent
  deriving DecidableEq, Repr

def Mismatch.message : Mismatch → String
  | wrongType found expected =>
    "invalid type: " ++ found.describe ++ ", expected " ++ expected.describe
  | tooShort length record =>
    "invalid length " ++ toString length ++ ", expected " ++ record.describe ++ " with " ++
      toString record.size ++ " elements"
  | tooLong length =>
    "invalid length " ++ toString length ++ ", expected fewer elements in array"
  | missingField field => "missing field `" ++ field ++ "`"
  | repeatedField field => "duplicate field `" ++ field ++ "`"
  | noContent => "data did not match any variant of untagged enum Children"

end ServerUi
