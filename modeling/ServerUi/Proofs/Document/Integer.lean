import ServerUi.Proofs.Document.Comparison
import ServerUi.Proofs.Number.Rounding

/-!
# ServerUi.Proofs.Document.Integer — gates between integers

Integers are compared as the doubles nearest to them.  A gate so says of two integers what holds of
them, unless they differ and are rounded to one double; below `2⁵³` no two are
(`Gate.opens_integer`).
-/

namespace ServerUi

/-- An operator sees no more of two integers than which is less and whether they are equal. -/
theorem Operator.holds_congr {x y m n : Int} (hlt : x < y ↔ m < n) (heq : x = y ↔ m = n)
    (operator : Operator) : operator.holds x y = operator.holds m n := by
  have hgt : y < x ↔ n < m := by omega
  cases operator <;> simp only [holds, decide_eq_decide] <;> omega

/-- An operator holds in whatever unit two integers are counted. -/
theorem Operator.holds_mul_right {c : Int} (hc : 0 < c) (x y : Int) (operator : Operator) :
    operator.holds (x * c) (y * c) = operator.holds x y :=
  holds_congr (Int.mul_lt_mul_right hc) (Int.mul_eq_mul_right_iff hc.ne') operator

namespace IsNearestDouble

variable {m n x y : Int}

/-- If two integers have different nearest doubles, an operator holds of the doubles as it does of
the integers. -/
theorem holds_of_ne (hx : IsNearestDouble m x) (hy : IsNearestDouble n y) (h : x ≠ y)
    (operator : Operator) : operator.holds x y = operator.holds m n := by
  have hne : m ≠ n := by
    rintro rfl
    exact h (hx.unique hy)
  refine Operator.holds_congr ⟨fun hlt => ?_, fun hlt => ?_⟩ (iff_of_false h hne) operator
  · by_contra hge
    have hle := hy.mono hx (by omega)
    omega
  · have hle := hx.mono hy hlt.le
    omega

/-- Doubles stand for integers, unless two integers have one double. -/
theorem holds_iff (hx : IsNearestDouble m x) (hy : IsNearestDouble n y) :
    (∀ operator : Operator, operator.holds x y = operator.holds m n) ↔ m = n ∨ x ≠ y := by
  constructor
  · intro hholds
    by_cases hxy : x = y
    · have heq : decide (x = y) = decide (m = n) := hholds .eq
      exact .inl ((decide_eq_decide.mp heq).mp hxy)
    · exact .inr hxy
  · rintro (rfl | hne) operator
    · obtain rfl := hx.unique hy
      exact Operator.holds_congr (by omega) (by omega) operator
    · exact hx.holds_of_ne hy hne operator

end IsNearestDouble

/-- A gate between two integers compares the doubles nearest to them.  It is exact unless they
differ and have one nearest double. -/
theorem Gate.opens_integer {document : Value} {path : String} {m : Int}
    (h : document.get? path = some (.num (.int m))) (n : Int) :
    ∃ x y : Int, IsNearestDouble m x ∧ IsNearestDouble n y ∧
      (∀ operator, opens ⟨path, operator, some (.num (.int n))⟩ document = operator.holds x y) ∧
      agree (some (.num (.int m))) (some (.num (.int n))) = decide (x = y) ∧
      ((∀ operator, opens ⟨path, operator, some (.num (.int n))⟩ document = operator.holds m n) ↔
        m = n ∨ x ≠ y) ∧
      (m.natAbs ≤ 2 ^ 53 → n.natAbs ≤ 2 ^ 53 →
        ∀ operator, opens ⟨path, operator, some (.num (.int n))⟩ document =
          operator.holds m n) := by
  -- both sides are rounded before they are compared
  obtain ⟨x, hx, hunits⟩ := Rounded.exists_isNearestDouble m
  obtain ⟨y, hy, hunits'⟩ := Rounded.exists_isNearestDouble n
  have hunit : (0 : Int) < Rounded.unit := Int.natCast_pos.mpr Rounded.unit_pos
  have hopens (operator : Operator) :
      opens ⟨path, operator, some (.num (.int n))⟩ document = operator.holds x y := by
    rw [opens_num h, Number.rounded, Number.rounded, hunits, hunits',
      Operator.holds_mul_right hunit]
  refine ⟨x, y, hx, hy, hopens, ?_, ?_, ?_⟩
  · have hagree : agree (some (.num (.int m))) (some (.num (.int n))) =
        Operator.eq.holds (Rounded.ofInt m).units (Rounded.ofInt n).units := rfl
    rw [hagree, hunits, hunits', Operator.holds_mul_right hunit, Operator.holds]
  · simp only [hopens]
    exact hx.holds_iff hy
  · intro hm hn operator
    rw [hopens, hx.eq_of_isDouble (isDouble_of_natAbs_le hm),
      hy.eq_of_isDouble (isDouble_of_natAbs_le hn)]

/-- Two integers next to each other, of which the second is no double. -/
def Value.neighbours : Value :=
  .obj [("first", .num (.int 9007199254740992)), ("second", .num (.int 9007199254740993))]

theorem Gate.opens_integer_neighbours :
    (∃ x, IsNearestDouble 9007199254740992 x ∧ IsNearestDouble 9007199254740993 x) ∧
      (∀ operator, opens ⟨"second", operator, some (.num (.int 9007199254740995))⟩
        Value.neighbours = operator.holds 9007199254740993 9007199254740995) ∧
      ∀ operator, opens ⟨"first", operator, some (.num (.int (-7)))⟩ Value.neighbours =
        operator.holds 9007199254740992 (-7) := by
  have hfirst : Value.neighbours.get? "first" = some (.num (.int 9007199254740992)) := by
    decide +kernel
  have hsecond : Value.neighbours.get? "second" = some (.num (.int 9007199254740993)) := by
    decide +kernel
  refine ⟨?_, ?_, ?_⟩
  · obtain ⟨x, y, hx, hy, -, hagree, -⟩ := opens_integer hfirst 9007199254740993
    have hxy : true = decide (x = y) := by
      rw [← hagree]
      decide +kernel
    obtain rfl := of_decide_eq_true hxy.symm
    exact ⟨x, hx, hy⟩
  · obtain ⟨x, y, -, -, -, hagree, hexact, -⟩ := opens_integer hsecond 9007199254740995
    have hxy : false = decide (x = y) := by
      rw [← hagree]
      decide +kernel
    exact hexact.mpr (.inr (of_decide_eq_false hxy.symm))
  · obtain ⟨-, -, -, -, -, -, -, hsmall⟩ := opens_integer hfirst (-7)
    exact hsmall (by decide) (by decide)

/-- Two different integers are equal to a gate. -/
theorem Gate.opens_different_integers :
    Value.neighbours.get? "first" = some (.num (.int 9007199254740992)) ∧
      (9007199254740992 : Int) ≠ 9007199254740993 ∧
      Gate.opens ⟨"first", .eq, some (.num (.int 9007199254740993))⟩ Value.neighbours = true := by
  decide +kernel

end ServerUi
