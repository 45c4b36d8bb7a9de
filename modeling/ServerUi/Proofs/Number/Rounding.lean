import Mathlib.Tactic.Ring
import ServerUi.Number.Binary64

/-!
# ServerUi.Proofs.Number.Rounding — the double nearest to an integer

An integer is a double if it has 53 significant bits at most.  `IsNearestDouble` says which double
is nearest to an integer, a tie going to the even significand.  There is just one, it grows with
the integer, and `Rounded.ofInt` is it (`exists_isNearestDouble`).
-/

namespace ServerUi

/-! ### Nearest multiples -/

namespace Rounded

/-- Where a multiple lies in relation to the two that enclose a number. -/
theorem mul_cases (k q d : Nat) :
    k * d + d ≤ q * d ∨ k = q ∨ k = q + 1 ∨ q * d + 2 * d ≤ k * d := by
  obtain h | h | h | h : k + 1 ≤ q ∨ k = q ∨ k = q + 1 ∨ q + 2 ≤ k := by omega
  · left
    simpa only [Nat.add_mul, Nat.one_mul] using Nat.mul_le_mul_right d h
  · exact .inr (.inl h)
  · exact .inr (.inr (.inl h))
  · right; right; right
    simpa only [Nat.add_mul] using Nat.mul_le_mul_right d h

/-- No multiple is nearer than the one that is rounded to. -/
theorem roundDiv_nearest {a d : Nat} (hd : 0 < d) (k : Nat) :
    ((a : Int) - (roundDiv a d * d : Nat)).natAbs ≤ ((a : Int) - (k * d : Nat)).natAbs := by
  have hsplit := Nat.div_add_mod' a d
  have hmod := Nat.mod_lt a hd
  have hnext : (a / d + 1) * d = a / d * d + d := Nat.succ_mul _ _
  obtain ⟨hround, hhalf, -⟩ | ⟨hround, hhalf, -⟩ := roundDiv_cases a d <;> rw [hround] <;>
    obtain h | rfl | rfl | h := mul_cases k (a / d) d <;> omega

/-- Of two multiples that are equally near the even one is taken. -/
theorem roundDiv_even {a d k : Nat} (hd : 0 < d) (hk : k ≠ roundDiv a d)
    (htie : ((a : Int) - (k * d : Nat)).natAbs = ((a : Int) - (roundDiv a d * d : Nat)).natAbs) :
    roundDiv a d % 2 = 0 ∧ k % 2 = 1 := by
  have hsplit := Nat.div_add_mod' a d
  have hmod := Nat.mod_lt a hd
  have hnext : (a / d + 1) * d = a / d * d + d := Nat.succ_mul _ _
  obtain ⟨hround, hhalf, heven⟩ | ⟨hround, hhalf, heven⟩ := roundDiv_cases a d <;>
    rw [hround] at hk htie ⊢ <;>
    obtain h | rfl | rfl | h := mul_cases k (a / d) d <;> omega

/-- A quotient is rounded in whatever unit it is given. -/
theorem roundDiv_mul_right {c : Nat} (hc : 0 < c) (a d : Nat) :
    roundDiv (a * c) (d * c) = roundDiv a d := by
  have hmod : a * c % (d * c) = a % d * c := Nat.mul_mod_mul_right c a d
  have hdouble : 2 * (a % d * c) = 2 * (a % d) * c := (Nat.mul_assoc ..).symm
  unfold roundDiv
  dsimp only
  rw [Nat.mul_div_mul_right a d hc, hmod, hdouble]
  simp only [Nat.mul_lt_mul_right hc]

theorem roundDiv_mul_self {d : Nat} (hd : 0 < d) (k : Nat) : roundDiv (k * d) d = k := by
  unfold roundDiv
  dsimp only
  rw [Nat.mul_mod_left, Nat.mul_div_cancel k hd, if_pos (by omega)]

/-! ### Significands of 53 bits -/

/-- The distance of doubles next to a natural number of more than 53 bits, and one below that. -/
def spacing (n : Nat) : Nat := 2 ^ (n.log2 - 52)

/-- The natural number rounded to 53 significant bits. -/
def roundNat (n : Nat) : Nat := roundDiv n (spacing n) * spacing n

theorem spacing_pos (n : Nat) : 0 < spacing n := Nat.two_pow_pos _

theorem roundNat_eq_self {n : Nat} (h : spacing n ∣ n) : roundNat n = n := by
  have hround := roundDiv_mul_self (spacing_pos n) (n / spacing n)
  rw [Nat.div_mul_cancel h] at hround
  rw [roundNat, hround, Nat.div_mul_cancel h]

theorem log2_mul_two_pow {n : Nat} (hn : n ≠ 0) (k : Nat) : (n * 2 ^ k).log2 = n.log2 + k := by
  induction k with
  | zero => rw [Nat.pow_zero, Nat.mul_one, Nat.add_zero]
  | succ k ih =>
    have hne : n * 2 ^ k ≠ 0 := Nat.mul_ne_zero hn (Nat.ne_of_gt (Nat.two_pow_pos k))
    rw [Nat.pow_succ', Nat.mul_left_comm, Nat.log2_two_mul hne, ih, Nat.add_assoc]

/-- Rounding does not see a power of two. -/
theorem roundNat_mul_two_pow (n k : Nat) : roundNat (n * 2 ^ k) = roundNat n * 2 ^ k := by
  by_cases hn : n = 0
  · rw [hn, Nat.zero_mul, roundNat_eq_self (Nat.dvd_zero _), Nat.zero_mul]
  have hlog := log2_mul_two_pow hn k
  obtain hsmall | hlarge := Nat.le_total n.log2 52
  · -- both are doubles already
    have hself : spacing n ∣ n := by
      rw [spacing, Nat.sub_eq_zero_of_le hsmall, Nat.pow_zero]
      exact Nat.one_dvd n
    have hself' : spacing (n * 2 ^ k) ∣ n * 2 ^ k := by
      rw [spacing, hlog]
      exact Nat.dvd_mul_left_of_dvd (Nat.pow_dvd_pow 2 (by omega)) n
    rw [roundNat_eq_self hself, roundNat_eq_self hself']
  · have hspacing : spacing (n * 2 ^ k) = spacing n * 2 ^ k := by
      rw [spacing, spacing, hlog, ← Nat.pow_add, Nat.sub_add_comm hlarge]
    rw [roundNat, roundNat, hspacing, roundDiv_mul_right (Nat.two_pow_pos k), Nat.mul_assoc]

/-- The value of a quotient that was rounded, carried over or not. -/
theorem magnitude_roundUnits (num den : Nat) :
    (roundUnits num den).magnitude =
      roundDiv num (den * 2 ^ exponentOf num den) * 2 ^ exponentOf num den := by
  unfold roundUnits
  dsimp only
  split
  · next hcarry =>
    -- half the significand under the next exponent is the same number
    have hcarry : roundDiv num (den * 2 ^ exponentOf num den) = 2 ^ 53 := hcarry
    calc 2 ^ 52 * 2 ^ (exponentOf num den + 1) = 2 ^ 53 * 2 ^ exponentOf num den := by ring
      _ = _ := by rw [hcarry]
  · rfl

theorem magnitude_roundUnits_one (n : Nat) : (roundUnits n 1).magnitude = roundNat n := by
  rw [magnitude_roundUnits, exponentOf, Nat.div_one, Nat.one_mul, roundNat, spacing]

theorem unit_pos : 0 < unit := by
  unfold unit
  generalize 1074 = k
  exact Nat.two_pow_pos k

/-- A natural number is rounded to 53 significant bits. -/
theorem magnitude_ofNat (n : Nat) : (ofNat n).magnitude = roundNat n * unit := by
  rw [ofNat, round, magnitude_roundUnits_one]
  unfold unit
  -- no power of this size shall be computed
  generalize 1074 = k
  exact roundNat_mul_two_pow n k

theorem magnitude_withSign (x : Rounded) (negative : Bool) :
    magnitude { x with negative } = x.magnitude := rfl

end Rounded

/-! ### Nearest doubles -/

/-- An integer of 53 significant bits at most, which is the value of a double. -/
def IsDouble (r : Int) : Prop := ∃ significand exponent : Nat,
  significand ≤ 2 ^ 53 ∧ r.natAbs = significand * 2 ^ exponent

/-- The integer to which `m` is rounded as a double. -/
structure IsNearestDouble (m r : Int) : Prop where
  isDouble : IsDouble r
  le : ∀ t, IsDouble t → (m - r).natAbs ≤ (m - t).natAbs
  /-- Of two that are equally near, the significand of the one that is taken is even. -/
  even : ∀ t, IsDouble t → (m - t).natAbs = (m - r).natAbs → t ≠ r →
    ∃ exponent : Nat, (2 ^ exponent : Int) ∣ r ∧ ¬(2 ^ exponent : Int) ∣ t

theorem isDouble_of_natAbs_le {m : Int} (h : m.natAbs ≤ 2 ^ 53) : IsDouble m :=
  ⟨m.natAbs, 0, h, by rw [Nat.pow_zero, Nat.mul_one]⟩

theorem IsDouble.neg {r : Int} (h : IsDouble r) : IsDouble (-r) := by
  obtain ⟨significand, exponent, hle, heq⟩ := h
  exact ⟨significand, exponent, hle, by rw [Int.natAbs_neg, heq]⟩

namespace IsNearestDouble

theorem neg {m r : Int} (h : IsNearestDouble m r) : IsNearestDouble (-m) (-r) where
  isDouble := h.isDouble.neg
  le t ht := by
    have hle := h.le (-t) ht.neg
    omega
  even t ht htie hne := by
    obtain ⟨exponent, hr, ht⟩ := h.even (-t) ht.neg (by omega) (by omega)
    exact ⟨exponent, (Int.dvd_neg).mpr hr, fun hdvd => ht ((Int.dvd_neg).mpr hdvd)⟩

/-- There is one nearest double: of two equally near ones the significand of each would be even. -/
theorem unique {m r r' : Int} (h : IsNearestDouble m r) (h' : IsNearestDouble m r') : r = r' := by
  by_contra hne
  have htie : (m - r').natAbs = (m - r).natAbs :=
    Nat.le_antisymm (h'.le r h.isDouble) (h.le r' h'.isDouble)
  obtain ⟨e, hr, hr'⟩ := h.even r' h'.isDouble htie (Ne.symm hne)
  obtain ⟨e', hs', hs⟩ := h'.even r h.isDouble htie.symm hne
  obtain hle | hle := Nat.le_total e e'
  · exact hr' ((pow_dvd_pow 2 hle).trans hs')
  · exact hs ((pow_dvd_pow 2 hle).trans hr)

/-- A larger integer has no smaller nearest double. -/
theorem mono {m n x y : Int} (hx : IsNearestDouble m x) (hy : IsNearestDouble n y) (h : m ≤ n) :
    x ≤ y := by
  by_contra hlt
  have hmx := hx.le y hy.isDouble
  have hny := hy.le x hx.isDouble
  obtain rfl : m = n := by omega
  exact hlt (hx.unique hy).le

theorem eq_of_isDouble {m x : Int} (h : IsNearestDouble m x) (hm : IsDouble m) : x = m := by
  have hle := h.le m hm
  omega

end IsNearestDouble

/-! ### Rounding to the nearest double -/

namespace Rounded

/-- Rounding leaves 53 bits, or the power of two above. -/
theorem roundDiv_spacing_le (n : Nat) : roundDiv n (spacing n) ≤ 2 ^ 53 := by
  have h := roundDiv_exponentOf_le n 1
  rwa [exponentOf, Nat.div_one, Nat.one_mul] at h

/-- Some multiple of the spacing is as near to `n` as a double. -/
theorem exists_multiple_near (n : Nat) {t : Int} (ht : IsDouble t) :
    ∃ k : Nat, ((n : Int) - (k * spacing n : Nat)).natAbs ≤ ((n : Int) - t).natAbs ∧
      (((n : Int) - t).natAbs ≤ ((n : Int) - (k * spacing n : Nat)).natAbs →
        t = (k * spacing n : Nat)) := by
  obtain hneg | hpos := Int.lt_or_le t 0
  · refine ⟨0, ?_, ?_⟩ <;> simp <;> omega
  obtain ⟨a, f, ha, ht⟩ := ht
  obtain hfine | hcoarse := Nat.lt_or_ge f (n.log2 - 52)
  · -- `n` has more bits than `t`, which is no larger than the multiple just below the bits of `n`
    have hn : n ≠ 0 := by
      rintro rfl
      rw [Nat.log2_zero] at hfine
      omega
    have hbelow : a * 2 ^ f ≤ 2 ^ 52 * spacing n := by
      calc a * 2 ^ f ≤ 2 ^ 53 * 2 ^ f := Nat.mul_le_mul_right _ ha
        _ = 2 ^ (53 + f) := (Nat.pow_add ..).symm
        _ ≤ 2 ^ (52 + (n.log2 - 52)) := Nat.pow_le_pow_right (by decide) (by omega)
        _ = 2 ^ 52 * spacing n := Nat.pow_add ..
    have habove : 2 ^ 52 * spacing n ≤ n := by
      rw [spacing, ← Nat.pow_add, Nat.add_sub_cancel' (by omega)]
      exact Nat.log2_self_le hn
    exact ⟨2 ^ 52, by omega, by omega⟩
  · have hmultiple : a * 2 ^ f = a * 2 ^ (f - (n.log2 - 52)) * spacing n := by
      rw [spacing, Nat.mul_assoc, ← Nat.pow_add, Nat.sub_add_cancel hcoarse]
    exact ⟨a * 2 ^ (f - (n.log2 - 52)), by omega, by omega⟩

theorem two_pow_succ_dvd_iff (k e : Nat) :
    (2 ^ (e + 1) : Int) ∣ (k * 2 ^ e : Nat) ↔ k % 2 = 0 := by
  have hpow : (2 ^ (e + 1) : Int) = (2 ^ (e + 1) : Nat) := by push_cast; rfl
  rw [hpow, Int.natCast_dvd_natCast, Nat.pow_succ', Nat.mul_dvd_mul_iff_right (Nat.two_pow_pos e),
    Nat.dvd_iff_mod_eq_zero]

/-- A natural number is rounded to the nearest double, and half way to the even one. -/
theorem isNearestDouble_roundNat (n : Nat) : IsNearestDouble n (roundNat n : Nat) where
  isDouble := ⟨_, _, roundDiv_spacing_le n, Int.natAbs_natCast _⟩
  le t ht := by
    obtain ⟨k, hk, -⟩ := exists_multiple_near n ht
    exact (roundDiv_nearest (spacing_pos n) k).trans hk
  even t ht htie hne := by
    obtain ⟨k, hk, heq⟩ := exists_multiple_near n ht
    have hnear := roundDiv_nearest (a := n) (spacing_pos n) k
    rw [roundNat] at htie hne ⊢
    -- a double that is as near is itself a multiple of the spacing
    obtain rfl := heq (by omega)
    have hk' : k ≠ roundDiv n (spacing n) := by
      rintro rfl
      exact hne rfl
    obtain ⟨heven, hodd⟩ := roundDiv_even (spacing_pos n) hk' htie
    refine ⟨n.log2 - 52 + 1, (two_pow_succ_dvd_iff _ _).mpr heven, fun hdvd => ?_⟩
    have heven' := (two_pow_succ_dvd_iff k _).mp hdvd
    omega

/-- An integer is rounded to the nearest double. -/
theorem exists_isNearestDouble (i : Int) :
    ∃ r, IsNearestDouble i r ∧ (ofInt i).units = r * unit := by
  have hnearest := isNearestDouble_roundNat i.natAbs
  rw [units, ofInt, magnitude_withSign, magnitude_ofNat]
  obtain hneg | hpos := Int.lt_or_le i 0
  · refine ⟨-(roundNat i.natAbs : Nat), ?_, ?_⟩
    · rw [Int.ofNat_natAbs_of_nonpos hneg.le] at hnearest
      simpa using hnearest.neg
    · rw [if_pos (decide_eq_true hneg), Int.natCast_mul, Int.neg_mul]
  · refine ⟨(roundNat i.natAbs : Nat), ?_, ?_⟩
    · rwa [Int.natAbs_of_nonneg hpos] at hnearest
    · rw [if_neg (by simpa using hpos), Int.natCast_mul]

end Rounded

end ServerUi
