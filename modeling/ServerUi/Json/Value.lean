import ServerUi.Dict
import ServerUi.Number.Shortest

/-!
# ServerUi.Json.Value — JSON documents

An object is a list of members.  Objects read from text are in key order with no key twice; records
written for output keep the order in which their members are listed.

Integers from `-2⁶³` to `2⁶⁴ - 1` are exact; every other number is a double.  The two kinds stay
apart: `1` and `1.0` are different values that are equal as numbers.
-/

namespace ServerUi

/-- An exact integer or a double. -/
inductive Number where
  | int (i : Int)
  | float (x : Binary64)
  deriving DecidableEq, Repr, Inhabited

namespace Number

/-- The number as a double: an integer is rounded. -/
def rounded : Number → Rounded
  | .int i => Rounded.ofInt i
  | .float x => x.toRounded

/-- The number as JSON. -/
def text : Number → String
  | .int i => toString i
  | .float x => x.text

/-- Equality within a kind: integers as integers, doubles by value. -/
def same : Number → Number → Bool
  | .int i, .int j => i == j
  | .float x, .float y => x.same y.toRounded
  | _, _ => false

end Number

/-- A JSON document. -/
inductive Value where
  | null
  | bool (b : Bool)
  | num (n : Number)
  | str (s : String)
  | arr (items : List Value)
  | obj (members : List (String × Value))
  deriving Inhabited, Repr

/-- Members of an object: props, payloads, data documents. -/
abbrev Members := List (String × Value)

namespace Value

def asString? : Value → Option String
  | .str s => some s
  | _ => none

def asMembers? : Value → Option Members
  | .obj members => some members
  | _ => none

def isNumber : Value → Bool
  | .num _ => true
  | _ => false

/-- The double of a number, whichever of the two kinds it is. -/
def asRounded? : Value → Option Rounded
  | .num n => some n.rounded
  | _ => none

/-! ### Equality -/

mutual

/-- Equality of values as data: members in order, numbers by kind and value. -/
def same : Value → Value → Bool
  | .null, .null => true
  | .bool a, .bool b => a == b
  | .num a, .num b => a.same b
  | .str a, .str b => a == b
  | .arr a, .arr b => sameItems a b
  | .obj a, .obj b => sameMembers a b
  | _, _ => false

def sameItems : List Value → List Value → Bool
  | [], [] => true
  | a :: as, b :: bs => a.same b && sameItems as bs
  | _, _ => false

def sameMembers : Members → Members → Bool
  | [], [] => true
  | (k, a) :: as, (l, b) :: bs => k == l && a.same b && sameMembers as bs
  | _, _ => false

end

mutual

/-- Equality as decided for `DecidableEq`, the two zeros apart. -/
def beq : Value → Value → Bool
  | .null, .null => true
  | .bool a, .bool b => a == b
  | .num a, .num b => a == b
  | .str a, .str b => a == b
  | .arr a, .arr b => beqItems a b
  | .obj a, .obj b => beqMembers a b
  | _, _ => false

def beqItems : List Value → List Value → Bool
  | [], [] => true
  | a :: as, b :: bs => a.beq b && beqItems as bs
  | _, _ => false

def beqMembers : Members → Members → Bool
  | [], [] => true
  | (k, a) :: as, (l, b) :: bs => k == l && a.beq b && beqMembers as bs
  | _, _ => false

end

mutual

theorem beq_iff : ∀ a b : Value, a.beq b = true ↔ a = b
  | .null, b => by cases b <;> simp [beq]
  | .bool _, b => by cases b <;> simp [beq]
  | .num _, b => by cases b <;> simp [beq]
  | .str _, b => by cases b <;> simp [beq]
  | .arr as, b => by
    cases b with
    | arr bs => simpa [beq] using beqItems_iff as bs
    | _ => simp [beq]
  | .obj as, b => by
    cases b with
    | obj bs => simpa [beq] using beqMembers_iff as bs
    | _ => simp [beq]

theorem beqItems_iff : ∀ as bs : List Value, beqItems as bs = true ↔ as = bs
  | [], bs => by cases bs <;> simp [beqItems]
  | a :: as, [] => by simp [beqItems]
  | a :: as, b :: bs => by simp [beqItems, beq_iff a b, beqItems_iff as bs]

theorem beqMembers_iff : ∀ as bs : Members, beqMembers as bs = true ↔ as = bs
  | [], bs => by cases bs <;> simp [beqMembers]
  | (_, _) :: as, [] => by simp [beqMembers]
  | (k, a) :: as, (l, b) :: bs => by
    simp [beqMembers, beq_iff a b, beqMembers_iff as bs]

end

instance : DecidableEq Value := fun a b => decidable_of_iff _ (beq_iff a b)

/-! ### Key order -/

mutual

/-- Put the members of every object in key order; of members with one key the last counts. -/
def normalize : Value → Value
  | .arr items => .arr (normalizeItems items)
  | .obj members => .obj (Dict.ofList (normalizeMembers members))
  | v => v

def normalizeItems : List Value → List Value
  | [] => []
  | v :: rest => v.normalize :: normalizeItems rest

def normalizeMembers : Members → Members
  | [] => []
  | (k, v) :: rest => (k, v.normalize) :: normalizeMembers rest

end

mutual

/-- Every object in the value is in key order. -/
def Ordered : Value → Prop
  | .arr items => OrderedItems items
  | .obj members => Dict.Ordered members ∧ OrderedMembers members
  | _ => True

def OrderedItems : List Value → Prop
  | [] => True
  | v :: rest => v.Ordered ∧ OrderedItems rest

def OrderedMembers : Members → Prop
  | [] => True
  | (_, v) :: rest => v.Ordered ∧ OrderedMembers rest

end

end Value

end ServerUi
