import ServerUi.Json.Value

/-!
# ServerUi.Proofs.Number.Text — the characters of a number

The text of a number consists of digits, signs, a point and the letter of an exponent.
-/

namespace ServerUi

/-- A character of the text of a number. -/
def isNumeric (c : Char) : Bool := c.isDigit || c = '-' || c = '.' || c = 'e'

theorem isNumeric_of_isDigit {c : Char} (h : c.isDigit = true) : isNumeric c = true := by
  simp [isNumeric, h]

theorem isNumeric_of_mem_toDigits {n : Nat} {c : Char} (h : c ∈ Nat.toDigits 10 n) :
    isNumeric c = true :=
  isNumeric_of_isDigit (Nat.isDigit_of_mem_toDigits (by omega) (by omega) h)

/-- The text of an integer has digits and perhaps a sign. -/
theorem isNumeric_of_mem_toString (i : Int) {c : Char} (h : c ∈ (toString i).toList) :
    isNumeric c = true := by
  cases i with
  | ofNat n =>
    have hn : toString (Int.ofNat n) = n.repr := rfl
    rw [hn, Nat.toList_repr] at h
    exact isNumeric_of_mem_toDigits h
  | negSucc n =>
    have hn : toString (Int.negSucc n) = "-" ++ (n + 1).repr := rfl
    rw [hn, String.toList_append, Nat.toList_repr, List.mem_append] at h
    obtain h | h := h
    · obtain rfl : c = '-' := by simpa using h
      rfl
    · exact isNumeric_of_mem_toDigits h

namespace Binary64

theorem isNumeric_of_mem_placePoint {digits : List Char} (hd : ∀ c ∈ digits, isNumeric c = true)
    (point : Int) : ∀ c ∈ placePoint digits point, isNumeric c = true := by
  have hzeros (n : Nat) : ∀ c ∈ List.replicate n '0', isNumeric c = true := by
    intro c hc
    rw [List.eq_of_mem_replicate hc]
    rfl
  unfold placePoint
  split
  · simp only [List.cons_append, List.forall_mem_cons, List.forall_mem_append]
    exact ⟨rfl, rfl, hzeros _, hd⟩
  · split
    · simp only [List.forall_mem_append, List.forall_mem_cons]
      exact ⟨⟨hd, hzeros _⟩, rfl, rfl, List.forall_mem_nil _⟩
    · simp only [List.forall_mem_append, List.forall_mem_cons]
      exact ⟨fun c hc => hd c (List.mem_of_mem_take hc), rfl,
        fun c hc => hd c (List.mem_of_mem_drop hc)⟩

theorem isNumeric_of_mem_withExponent {digits : List Char}
    (hd : ∀ c ∈ digits, isNumeric c = true) (point : Int) :
    ∀ c ∈ withExponent digits point, isNumeric c = true := by
  unfold withExponent
  simp only [List.forall_mem_append, List.forall_mem_cons]
  refine ⟨?_, rfl, fun c hc => isNumeric_of_mem_toString _ hc⟩
  split
  · exact hd
  · obtain ⟨h, hrest⟩ := List.forall_mem_cons.mp hd
    simp only [List.forall_mem_cons]
    exact ⟨h, rfl, hrest⟩
  · exact hd

theorem isNumeric_of_mem_signed (x : Binary64) {digits : List Char}
    (hd : ∀ c ∈ digits, isNumeric c = true) :
    ∀ c ∈ (x.signed digits).toList, isNumeric c = true := by
  unfold signed
  rw [String.toList_ofList]
  split
  · rw [List.forall_mem_cons]
    exact ⟨rfl, hd⟩
  · exact hd

/-- The text of a double consists of characters of numbers. -/
theorem isNumeric_of_mem_text (x : Binary64) : ∀ c ∈ x.text.toList, isNumeric c = true := by
  have hdigits : ∀ c ∈ x.shortest.digits, isNumeric c = true :=
    fun c hc => isNumeric_of_mem_toDigits hc
  unfold text
  split
  · exact isNumeric_of_mem_signed x (List.all_eq_true.mp (by decide))
  · refine isNumeric_of_mem_signed x ?_
    split
    · exact isNumeric_of_mem_placePoint hdigits _
    · exact isNumeric_of_mem_withExponent hdigits _

end Binary64

/-- The text of a number consists of characters of numbers. -/
theorem Number.isNumeric_of_mem_text : ∀ n : Number, ∀ c ∈ n.text.toList, isNumeric c = true
  | .int i => fun _ hc => isNumeric_of_mem_toString i hc
  | .float x => x.isNumeric_of_mem_text

end ServerUi
