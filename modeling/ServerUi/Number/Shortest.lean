import ServerUi.Number.Binary64

/-!
# ServerUi.Number.Shortest — the fewest decimal digits that read back

The reals that round to a double form an interval around it, its ends included when the
significand is even.  For one digit, two digits and so on, the two neighbours of the double on that
decimal grid are tested against the interval.  The first grid with a neighbour inside wins; of two
such neighbours the nearer is taken, and of two equally near the even one.

Two layouts write the digits: `text` turns to an exponent for very large and very small values,
`positional` never does.
-/

namespace ServerUi

/-- The decimal number `coefficient · 10 ^ exponent`. -/
structure Decimal where
  coefficient : Nat
  exponent : Int
  deriving DecidableEq, Repr, Inhabited

namespace Decimal

/-- Drop trailing zeros of the coefficient, at most `fuel` of them. -/
def trim : Nat → Decimal → Decimal
  | 0, d => d
  | fuel + 1, d =>
    if d.coefficient ≠ 0 ∧ d.coefficient % 10 = 0 then
      trim fuel ⟨d.coefficient / 10, d.exponent + 1⟩
    else d

/-- The digits of the coefficient. -/
def digits (d : Decimal) : List Char := Nat.toDigits 10 d.coefficient

/-- Where the decimal point stands: the value is `0.d₁d₂… · 10 ^ point`. -/
def point (d : Decimal) : Int := d.digits.length + d.exponent

end Decimal

namespace Binary64

open Rounded (unit)

/-- The least `k` with `num / den < 10 ^ k`, for a positive quotient. -/
def decimalPoint (num den : Nat) : Int :=
  if den ≤ num then (Nat.toDigits 10 (num / den)).length
  else
    let inverse := (den + num - 1) / num
    1 - ((Nat.toDigits 10 (inverse - 1)).length : Int)

/-- The quotient `num / den` times `10 ^ e`, as a numerator and a denominator. -/
def scaled (num den : Nat) (e : Int) : Nat × Nat :=
  if 0 ≤ e then (num * Nat.pow 10 e.toNat, den) else (num, den * Nat.pow 10 (-e).toNat)

/-- Whether `c · 10 ^ e` rounds to the positive double `x`. -/
def roundsTo (x : Binary64) (c : Nat) (e : Int) : Bool :=
  let below := if x.significand = Nat.pow 2 52 ∧ x.exponent ≠ 0 then 1 else 2
  let low := (4 * x.significand - below) * Nat.pow 2 x.exponent
  let high := (4 * x.significand + 2) * Nat.pow 2 x.exponent
  let (num, den) := scaled (c * (4 * unit)) 1 e
  if x.significand % 2 = 0 then decide (low * den ≤ num) && decide (num ≤ high * den)
  else decide (low * den < num) && decide (num < high * den)

/-- The better of the two neighbours of `x` on the grid of step `10 ^ e`, if one rounds to `x`. -/
def onGrid? (x : Binary64) (e : Int) : Option Decimal :=
  let (num, den) := scaled x.magnitude unit (-e)
  let c := num / den
  match x.roundsTo c e, x.roundsTo (c + 1) e with
  | true, true =>
    let distance := 2 * (num - c * den)
    if distance < den then some ⟨c, e⟩
    else if den < distance then some ⟨c + 1, e⟩
    else if c % 2 = 0 then some ⟨c, e⟩ else some ⟨c + 1, e⟩
  | true, false => some ⟨c, e⟩
  | false, true => some ⟨c + 1, e⟩
  | false, false => none

/-- The shortest decimal that rounds to `x`; seventeen digits always suffice. -/
def shortest (x : Binary64) : Decimal :=
  let point := decimalPoint x.magnitude unit
  let found := (List.range 17).findSome? fun n => x.onGrid? (point - ((n + 1 : Nat) : Int))
  (found.getD ⟨0, 0⟩).trim 20

/-! ### Layouts -/

/-- Digits with the decimal point at `point`, zero-filled on either side where needed. -/
def placePoint (digits : List Char) (point : Int) : List Char :=
  if point ≤ 0 then '0' :: '.' :: List.replicate (-point).toNat '0' ++ digits
  else if digits.length ≤ point.toNat then
    digits ++ List.replicate (point.toNat - digits.length) '0' ++ ['.', '0']
  else digits.take point.toNat ++ '.' :: digits.drop point.toNat

/-- One digit before the point, then the power of ten after `e`. -/
def withExponent (digits : List Char) (point : Int) : List Char :=
  let mantissa := match digits with
    | [d] => [d]
    | d :: rest => d :: '.' :: rest
    | [] => []
  mantissa ++ 'e' :: (toString (point - 1)).toList

def signed (x : Binary64) (digits : List Char) : String :=
  String.ofList (if x.negative then '-' :: digits else digits)

/-- The text of a double: positional when the point falls within sixteen digits to the right of the
first digit or five places to its left, otherwise with an exponent.  A point is always present in
the positional form. -/
def text (x : Binary64) : String :=
  if x.isZero then x.signed ['0', '.', '0']
  else
    let d := x.shortest
    x.signed <|
      if -5 < d.point ∧ d.point ≤ 16 then placePoint d.digits d.point
      else withExponent d.digits d.point

/-- The text of a double without an exponent, whatever its size. -/
def positional (x : Binary64) : String :=
  if x.isZero then x.signed ['0', '.', '0']
  else
    let d := x.shortest
    x.signed (placePoint d.digits d.point)

end Binary64

end ServerUi
