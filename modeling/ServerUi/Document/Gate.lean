import ServerUi.Document.Path

/-!
# ServerUi.Document.Gate — gates on the document

A gate compares the value at a path of the document with an expected value.  Either may be
undefined, which differs from `null`.  Order is numeric and holds only between numbers.  A gate
whose operator is not known is always open, so that a newer schema shows content rather than hides
it.
-/

namespace ServerUi

/-- How a gate compares. -/
inductive Operator where
  | eq
  | neq
  | gt
  | lt
  | gte
  | lte
  | exist
  | notExist
  | unknown (spelling : String)
  deriving DecidableEq, Repr

namespace Operator

def spelling : Operator → String
  | eq => "eq"
  | neq => "neq"
  | gt => "gt"
  | lt => "lt"
  | gte => "gte"
  | lte => "lte"
  | exist => "exists"
  | notExist => "notExists"
  | unknown s => s

def known : List Operator := [eq, neq, gt, lt, gte, lte, exist, notExist]

/-- The operator with a spelling. -/
def ofSpelling (s : String) : Operator := (known.find? (·.spelling = s)).getD (unknown s)

/-- Whether the operator orders numbers. -/
def isOrdering : Operator → Bool
  | gt | lt | gte | lte => true
  | _ => false

end Operator

/-- `value` is `none` when no value is expected at all, and `some null` when `null` is. -/
structure Gate where
  path : String
  operator : Operator
  value : Option Value
  deriving DecidableEq, Repr

/-- Equality of values that may be undefined: numbers by value, everything else as data. -/
def agree : Option Value → Option Value → Bool
  | none, none => true
  | some (.num a), some (.num b) => a.rounded.same b.rounded
  | some a, some b => a.same b
  | _, _ => false

/-- Present and not null. -/
def isPresent : Option Value → Bool
  | none | some .null => false
  | some _ => true

/-- The order of two numbers; `none` when either side is not a number. -/
def order? (a b : Option Value) : Option Ordering := do
  let x ← (← a).asRounded?
  let y ← (← b).asRounded?
  return compare x.units y.units

namespace Gate

/-- Whether the gate lets a node pass. -/
def opens (g : Gate) (document : Value) : Bool :=
  let found := document.get? g.path
  match g.operator with
  | .eq => agree found g.value
  | .neq => !agree found g.value
  | .gt => (order? found g.value).any Ordering.isGT
  | .lt => (order? found g.value).any Ordering.isLT
  | .gte => (order? found g.value).any Ordering.isGE
  | .lte => (order? found g.value).any Ordering.isLE
  | .exist => isPresent found
  | .notExist => !isPresent found
  | .unknown _ => true

end Gate

end ServerUi
