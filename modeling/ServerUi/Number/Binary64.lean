/-!
# ServerUi.Number.Binary64 — finite double-precision numbers

A finite double is a sign, a significand and an exponent that counts from the smallest positive
double, `2⁻¹⁰⁷⁴`.  Every operation is exact arithmetic on naturals followed by one rounding, so
nothing here depends on the machine's floating point.

* `Rounded` is what a rounding leaves: a significand of 53 bits, and a smaller one only where the
  exponent is the least.  The exponent may be too large for a double; `Rounded.finite?` decides.
* `Binary64` is a rounded number within the range of doubles.
* `Rounded.round num den` is the rounded number nearest to `num / den`, a tie going to the even
  significand.
* `Rounded.units` is the value itself as an integer multiple of `2⁻¹⁰⁷⁴`; equality and order of
  doubles are equality and order of their units, so the two zeros are equal.
-/

namespace ServerUi

/-- The number `± significand · 2 ^ exponent · 2⁻¹⁰⁷⁴`, rounded to 53 significant bits. -/
structure Rounded where
  negative : Bool
  significand : Nat
  exponent : Nat
  bounded : significand < Nat.pow 2 53
  /-- Bits are missing only where the exponent cannot be lowered. -/
  normal : exponent = 0 ∨ Nat.pow 2 52 ≤ significand
  deriving DecidableEq, Repr

namespace Rounded

/-- The absolute value in units of `2⁻¹⁰⁷⁴`. -/
def magnitude (x : Rounded) : Nat := x.significand * Nat.pow 2 x.exponent

/-- The value in units of `2⁻¹⁰⁷⁴`. -/
def units (x : Rounded) : Int := if x.negative then -(x.magnitude : Int) else x.magnitude

/-- How many units make one: `1 = unit · 2⁻¹⁰⁷⁴`. -/
def unit : Nat := Nat.pow 2 1074

def isZero (x : Rounded) : Bool := x.significand == 0

/-- The value with its sign turned round; `neg` of zero is the other zero. -/
def neg (x : Rounded) : Rounded := { x with negative := !x.negative }

/-! ### Rounding -/

/-- `num / den` to the nearest natural, a half to the even neighbour. -/
def roundDiv (num den : Nat) : Nat :=
  let quotient := num / den
  let remainder := num % den
  if 2 * remainder < den then quotient
  else if den < 2 * remainder then quotient + 1
  else if quotient % 2 = 0 then quotient else quotient + 1

/-- Rounding goes down from at most half way and up from at least half way, and half way it goes to
the even neighbour. -/
theorem roundDiv_cases (a d : Nat) :
    roundDiv a d = a / d ∧ 2 * (a % d) ≤ d ∧ (2 * (a % d) = d → a / d % 2 = 0) ∨
      roundDiv a d = a / d + 1 ∧ d ≤ 2 * (a % d) ∧ (2 * (a % d) = d → (a / d + 1) % 2 = 0) := by
  unfold roundDiv
  dsimp only
  split
  · exact .inl ⟨rfl, by omega, by omega⟩
  · split
    · exact .inr ⟨rfl, by omega, by omega⟩
    · split
      · next heven => exact .inl ⟨rfl, by omega, fun _ => heven⟩
      · exact .inr ⟨rfl, by omega, by omega⟩

theorem div_le_roundDiv (a d : Nat) : a / d ≤ roundDiv a d := by
  obtain ⟨h, -⟩ | ⟨h, -⟩ := roundDiv_cases a d <;> omega

theorem roundDiv_le_succ_div (a d : Nat) : roundDiv a d ≤ a / d + 1 := by
  obtain ⟨h, -⟩ | ⟨h, -⟩ := roundDiv_cases a d <;> omega

/-- The exponent of `num / den` units: it leaves 53 bits of them, or all. -/
def exponentOf (num den : Nat) : Nat := (num / den).log2 - 52

/-- A quotient with its exponent taken off keeps 53 bits at most.  Rounding may still carry it to
the power of two above. -/
theorem roundDiv_exponentOf_le (num den : Nat) :
    roundDiv num (den * Nat.pow 2 (exponentOf num den)) ≤ Nat.pow 2 53 := by
  have hbits : num / den < 2 ^ (53 + exponentOf num den) :=
    Nat.lt_of_lt_of_le Nat.lt_log2_self
      (Nat.pow_le_pow_right Nat.zero_lt_two (by unfold exponentOf; omega))
  have hquotient : num / (den * 2 ^ exponentOf num den) < 2 ^ 53 := by
    rw [← Nat.div_div_eq_div_mul, Nat.div_lt_iff_lt_mul (Nat.two_pow_pos _), ← Nat.pow_add]
    exact hbits
  exact Nat.le_trans (roundDiv_le_succ_div _ _) hquotient

/-- Where an exponent is taken off, all 53 bits are left. -/
theorem le_roundDiv_exponentOf (num den : Nat) :
    exponentOf num den = 0 ∨
      Nat.pow 2 52 ≤ roundDiv num (den * Nat.pow 2 (exponentOf num den)) := by
  by_cases hzero : exponentOf num den = 0
  · exact .inl hzero
  have hlog : (num / den).log2 = 52 + exponentOf num den := by
    unfold exponentOf at hzero ⊢
    omega
  have hne : num / den ≠ 0 := by
    intro h
    rw [h, Nat.log2_zero] at hlog
    omega
  have hbits : 2 ^ 52 ≤ num / (den * 2 ^ exponentOf num den) := by
    rw [← Nat.div_div_eq_div_mul, Nat.le_div_iff_mul_le (Nat.two_pow_pos _), ← Nat.pow_add, ← hlog]
    exact Nat.log2_self_le hne
  exact .inr (Nat.le_trans hbits (div_le_roundDiv _ _))

/-- The nearest to `num / den` units. -/
def roundUnits (num den : Nat) : Rounded :=
  let exponent := exponentOf num den
  let significand := roundDiv num (den * Nat.pow 2 exponent)
  -- rounding up may carry over into a bit more
  if h : significand = Nat.pow 2 53 then
    { negative := false, significand := Nat.pow 2 52, exponent := exponent + 1
      bounded := by decide
      normal := .inr (Nat.le_refl _) }
  else
    { negative := false, significand, exponent
      bounded := Nat.lt_of_le_of_ne (roundDiv_exponentOf_le num den) h
      normal := le_roundDiv_exponentOf num den }

/-- The nearest to `num / den`. -/
def round (num den : Nat) : Rounded := roundUnits (num * unit) den

/-- The nearest to a natural number. -/
def ofNat (n : Nat) : Rounded := round n 1

/-- The nearest to an integer; zero is positive. -/
def ofInt (i : Int) : Rounded := { ofNat i.natAbs with negative := i < 0 }

/-- The nearest to the product of two positive numbers. -/
def mul (x y : Rounded) : Rounded := roundUnits (x.magnitude * y.magnitude) unit

/-- The nearest to the quotient of two positive numbers. -/
def div (x y : Rounded) : Rounded := roundUnits (x.magnitude * unit) y.magnitude

/-! ### Comparison and integers -/

/-- Equality of values: the two zeros are one value. -/
def same (x y : Rounded) : Bool := x.units == y.units

/-- Whether the value is a whole number. -/
def isIntegral (x : Rounded) : Bool := x.magnitude % unit == 0

/-- The whole part of the absolute value. -/
def wholePart (x : Rounded) : Nat := x.magnitude / unit

end Rounded

/-- A finite double: the exponent of the largest is `2045`. -/
structure Binary64 extends Rounded where
  inRange : exponent ≤ 2045
  deriving DecidableEq, Repr

/-- The double that a rounded number is, unless it is out of range. -/
def Rounded.finite? (x : Rounded) : Option Binary64 :=
  if h : x.exponent ≤ 2045 then some ⟨x, h⟩ else none

namespace Binary64

/-- One of the two zeros. -/
def zero (negative : Bool) : Binary64 :=
  { negative, significand := 0, exponent := 0, bounded := by decide, normal := .inl rfl
    inRange := by decide }

instance : Inhabited Binary64 := ⟨zero false⟩

end Binary64

end ServerUi
