import Mathlib.Logic.Function.Basic

/-!
# ServerUi.Proofs.Number.Decimal — decimal digits and their value

Every number has one decimal form (`toDigits_injective`), and digits are the decimal form of their
value unless they have a zero in front that they do not need (`toDigits_ofDigitChars`).  A decimal
form in front of a text is read back if no digit follows it (`toDigits_append_inj`), and so are
numbers with a text between them (`flatMap_toDigits_injective`).
-/

namespace ServerUi

namespace Decimal

/-- A number can be read back from its digits. -/
theorem toDigits_injective : Function.Injective (Nat.toDigits 10) := by
  intro i j h
  simpa using congrArg (fun ds => Nat.ofDigitChars 10 ds 0) h

theorem toList_toString (i : Nat) : (toString i).toList = Nat.toDigits 10 i := Nat.toList_repr

theorem toString_injective : Function.Injective (toString : Nat → String) := by
  intro i j h
  apply toDigits_injective
  rw [← toList_toString, ← toList_toString, h]

theorem toDigits_of_isDigit {c : Char} (hc : c.isDigit = true) :
    c.toNat - '0'.toNat < 10 ∧ Nat.toDigits 10 (c.toNat - '0'.toNat) = [c] := by
  have hrange : 48 ≤ c.toNat ∧ c.toNat ≤ 57 := by simpa [Char.isDigit_iff_toNat] using hc
  have hzero : '0'.toNat = 48 := rfl
  have hlt : c.toNat - '0'.toNat < 10 := by omega
  refine ⟨hlt, ?_⟩
  rw [Nat.toDigits_of_lt_base hlt, List.singleton_inj, ← Char.toNat_inj,
    Nat.toNat_digitChar_of_lt_ten hlt]
  omega

/-- Digits read after the decimal form of a number continue it. -/
theorem toDigits_append {digits : List Char} (hdigits : ∀ c ∈ digits, c.isDigit = true)
    {n : Nat} (hn : 0 < n) :
    Nat.toDigits 10 n ++ digits = Nat.toDigits 10 (Nat.ofDigitChars 10 digits n) := by
  induction digits generalizing n with
  | nil => simp
  | cons c digits ih =>
    obtain ⟨hc, hrest⟩ := List.forall_mem_cons.mp hdigits
    obtain ⟨hlt, hwritten⟩ := toDigits_of_isDigit hc
    calc Nat.toDigits 10 n ++ c :: digits
        = Nat.toDigits 10 n ++ Nat.toDigits 10 (c.toNat - '0'.toNat) ++ digits := by
          rw [hwritten, List.append_assoc, List.singleton_append]
      _ = Nat.toDigits 10 (10 * n + (c.toNat - '0'.toNat)) ++ digits := by
          rw [Nat.toDigits_append_toDigits (by omega) hn hlt]
      _ = Nat.toDigits 10 (Nat.ofDigitChars 10 (c :: digits) n) := by
          rw [ih hrest (by omega), Nat.ofDigitChars_cons]

/-- Digits without a zero in front are the numeral of what they are read as. -/
theorem toDigits_ofDigitChars {digits : List Char} (hne : digits ≠ [])
    (hdigits : ∀ c ∈ digits, c.isDigit = true)
    (hpad : digits.head? = some '0' → digits.length = 1) :
    Nat.toDigits 10 (Nat.ofDigitChars 10 digits 0) = digits := by
  obtain ⟨c, rest, rfl⟩ := List.exists_cons_of_ne_nil hne
  obtain ⟨hc, hrest⟩ := List.forall_mem_cons.mp hdigits
  obtain ⟨-, hfirst⟩ := toDigits_of_isDigit hc
  -- a zero in front stands alone, and otherwise the rest is appended to a positive number
  by_cases hzero : c = '0'
  · have hshort : rest = [] := by simpa [hzero] using hpad
    rw [hshort, hzero]
    rfl
  · have hpos : 0 < c.toNat - '0'.toNat := by
      refine Nat.pos_of_ne_zero fun h => hzero ?_
      rw [h] at hfirst
      exact (List.singleton_inj.mp hfirst).symm
    rw [Nat.ofDigitChars_cons, Nat.mul_zero, Nat.zero_add, ← toDigits_append hrest hpos, hfirst,
      List.singleton_append]

/-! ### Decimal forms within a text -/

/-- The text does not begin with a digit. -/
def EndsDigits (rest : List Char) : Prop := ∀ c, rest.head? = some c → c.isDigit = false

theorem takeWhile_toDigits_append {rest : List Char} (h : EndsDigits rest) (i : Nat) :
    (Nat.toDigits 10 i ++ rest).takeWhile Char.isDigit = Nat.toDigits 10 i := by
  have hrest : rest.takeWhile Char.isDigit = [] := by
    cases rest with
    | nil => rfl
    | cons c rest => exact List.takeWhile_cons_of_neg (by simp [h c rfl])
  rw [List.takeWhile_append_of_pos fun c hc =>
    Nat.isDigit_of_mem_toDigits (by omega) (by omega) hc, hrest, List.append_nil]

/-- Of a numeral and what follows both can be read back. -/
theorem toDigits_append_inj {i j : Nat} {rest rest' : List Char} (hrest : EndsDigits rest)
    (hrest' : EndsDigits rest') (h : Nat.toDigits 10 i ++ rest = Nat.toDigits 10 j ++ rest') :
    i = j ∧ rest = rest' := by
  have hdigits := congrArg (List.takeWhile Char.isDigit) h
  rw [takeWhile_toDigits_append hrest, takeWhile_toDigits_append hrest'] at hdigits
  obtain rfl := toDigits_injective hdigits
  exact ⟨rfl, List.append_cancel_left h⟩

/-- Numbers that are written one after the other can be read back if what stands between them ends a
numeral. -/
theorem flatMap_toDigits_injective {before after : List Char} (hne : before ≠ [])
    (hends : EndsDigits (after ++ before)) :
    Function.Injective (List.flatMap fun i => before ++ (Nat.toDigits 10 i ++ after)) := by
  -- behind each numeral comes something that ends it, or nothing
  have hafter (is : List Nat) :
      EndsDigits (after ++ is.flatMap fun i => before ++ (Nat.toDigits 10 i ++ after)) := by
    cases after with
    | cons c after => exact hends
    | nil =>
      obtain ⟨c, before, rfl⟩ := List.exists_cons_of_ne_nil hne
      cases is with
      | nil => exact fun _ h => nomatch h
      | cons i is => exact hends
  intro is js h
  induction is generalizing js with
  | nil =>
    cases js with
    | nil => rfl
    | cons j js => simp [hne] at h
  | cons i is ih =>
    cases js with
    | nil => simp [hne] at h
    | cons j js =>
      simp only [List.flatMap_cons, List.append_assoc] at h
      obtain ⟨rfl, hrest⟩ :=
        toDigits_append_inj (hafter is) (hafter js) (List.append_cancel_left h)
      rw [ih (List.append_cancel_left hrest)]

end Decimal

end ServerUi
