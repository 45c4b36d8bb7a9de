import Mathlib.Logic.ExistsUnique
import Mathlib.Tactic.SplitIfs
import ServerUi.Document.Gate

/-!
# ServerUi.Proofs.Document.Comparison — how the operators of gates fit together

Equality and order of numbers are those of the doubles they are rounded to, so a gate between two
numbers says what its operator says of two integers (`Gate.opens_num`).  A double has one form, but
zero has two (`Rounded.form_of_magnitude_eq`).  So two values agree if one canonical form is compared
of them (`agree_iff`), which makes agreement an equivalence.
-/

namespace ServerUi

/-! ### Order -/

/-- What an operator says of two numbers. -/
def Operator.holds (operator : Operator) (x y : Int) : Bool :=
  match operator with
  | eq => x = y
  | neq => x ≠ y
  | gt => y < x
  | lt => x < y
  | gte => y ≤ x
  | lte => x ≤ y
  | exist => true
  | notExist => false
  | unknown _ => true

theorem isNumber_iff {v : Option Value} :
    v.any Value.isNumber = true ↔ ∃ n, v = some (.num n) := by
  rcases v with _ | v
  · simp
  · cases v <;> simp [Value.isNumber]

theorem order?_num (m n : Number) :
    order? (some (.num m)) (some (.num n)) =
      some (compare m.rounded.units n.rounded.units) := rfl

/-- There is no order unless both sides are numbers. -/
theorem order?_eq_none_of_not_numbers {a b : Option Value}
    (h : ¬(a.any Value.isNumber = true ∧ b.any Value.isNumber = true)) : order? a b = none := by
  rcases a with _ | a
  · rfl
  · rcases b with _ | b
    · cases a <;> rfl
    · cases a <;> cases b <;> first | rfl | exact absurd ⟨rfl, rfl⟩ h

/-- A gate between two numbers compares their doubles. -/
theorem Gate.opens_num {document : Value} {path : String} {m : Number}
    (h : document.get? path = some (.num m)) (n : Number) (operator : Operator) :
    opens ⟨path, operator, some (.num n)⟩ document =
      operator.holds m.rounded.units n.rounded.units := by
  unfold opens Operator.holds
  rw [h]
  cases operator with
  | eq | exist | notExist | unknown => rfl
  | neq => exact (decide_not).symm
  | gt | lt | gte | lte =>
    simp only [order?_num, Option.any_some, Int.compare_eq_ite_lt]
    split_ifs <;> simp <;> omega

/-- Nothing but numbers is in any order. -/
theorem Gate.opens_of_not_numbers {document : Value} {path : String} {value : Option Value}
    (h : ¬((document.get? path).any Value.isNumber = true ∧ value.any Value.isNumber = true))
    {operator : Operator} (hordering : operator.isOrdering = true) :
    opens ⟨path, operator, value⟩ document = false := by
  have hnone := order?_eq_none_of_not_numbers h
  cases operator with
  | gt | lt | gte | lte =>
    simp only [opens, hnone, Option.any_none]
  | _ => cases hordering

/-- Of two integers exactly one is less than, equal to or greater than the other. -/
theorem Operator.existsUnique_holds (x y : Int) :
    ∃! operator, operator ∈ [lt, eq, gt] ∧ operator.holds x y = true := by
  obtain ⟨operator, hmem, hholds⟩ : ∃ operator ∈ [lt, eq, gt], operator.holds x y = true := by
    simpa [holds] using Int.lt_trichotomy x y
  refine ⟨operator, ⟨hmem, hholds⟩, ?_⟩
  rintro other ⟨hother, hholds'⟩
  simp only [List.mem_cons, List.not_mem_nil, or_false] at hmem hother
  obtain rfl | rfl | rfl := hmem <;> obtain rfl | rfl | rfl := hother <;>
    simp [holds] at hholds hholds' ⊢ <;> omega

theorem Operator.holds_lte (x y : Int) : lte.holds x y = (lt.holds x y || eq.holds x y) := by
  simp [holds, Int.le_iff_lt_or_eq]

theorem Operator.holds_gte (x y : Int) : gte.holds x y = (gt.holds x y || eq.holds x y) := by
  simp [holds, Int.le_iff_lt_or_eq, eq_comm]

/-! ### Equality -/

namespace Rounded

variable {x y : Rounded}

/-- The larger exponent needs 53 bits, and so the larger value. -/
theorem exponent_le_of_magnitude_eq (h : x.magnitude = y.magnitude) : y.exponent ≤ x.exponent := by
  refine Nat.le_of_not_lt fun hlt => ?_
  -- the larger exponent is not the least, so no bit is missing under it
  have hbits : 2 ^ 52 ≤ y.significand := y.normal.resolve_left (by omega)
  have hless : x.magnitude < y.magnitude := by
    calc x.significand * 2 ^ x.exponent
        < 2 ^ 53 * 2 ^ x.exponent := Nat.mul_lt_mul_of_pos_right x.bounded (Nat.two_pow_pos _)
      _ = 2 ^ 52 * 2 ^ (x.exponent + 1) := by rw [← Nat.pow_add, ← Nat.pow_add]; congr 1; omega
      _ ≤ y.significand * 2 ^ y.exponent :=
          Nat.mul_le_mul hbits (Nat.pow_le_pow_right (by decide) (by omega))
  exact absurd h (Nat.ne_of_lt hless)

/-- An absolute value has one form. -/
theorem form_of_magnitude_eq (h : x.magnitude = y.magnitude) :
    x.significand = y.significand ∧ x.exponent = y.exponent := by
  have hexponent : x.exponent = y.exponent :=
    Nat.le_antisymm (exponent_le_of_magnitude_eq h.symm) (exponent_le_of_magnitude_eq h)
  refine ⟨Nat.eq_of_mul_eq_mul_right (Nat.two_pow_pos x.exponent) ?_, hexponent⟩
  rw [magnitude, magnitude, ← hexponent] at h
  exact h

theorem natAbs_units (x : Rounded) : x.units.natAbs = x.magnitude := by
  unfold units
  split <;> omega

/-- One of the two zeros for both, and every other number as it is. -/
def canonical (x : Rounded) : Rounded := { x with negative := x.units < 0 }

/-- The canonical form has the same value. -/
theorem units_canonical (x : Rounded) : x.canonical.units = x.units := by
  have hmagnitude : x.canonical.magnitude = x.units.natAbs := x.natAbs_units.symm
  rw [units, hmagnitude, canonical]
  by_cases h : x.units < 0
  · rw [if_pos (decide_eq_true h)]
    omega
  · rw [if_neg (by simpa using h)]
    omega

/-- Two numbers have one value exactly if they have one canonical form. -/
theorem same_iff : x.same y = true ↔ x.canonical = y.canonical := by
  rw [same, beq_iff_eq]
  constructor
  · intro h
    obtain ⟨hsignificand, hexponent⟩ := form_of_magnitude_eq (x := x) (y := y) (by
      rw [← natAbs_units, h, natAbs_units])
    simp only [canonical, h, hsignificand, hexponent]
  · intro h
    rw [← x.units_canonical, h, y.units_canonical]

end Rounded

/-- One of the two zeros for both, and every other double as it is. -/
def Binary64.canonical (x : Binary64) : Binary64 where
  toRounded := x.toRounded.canonical
  inRange := by
    rw [Rounded.canonical]
    exact x.inRange

theorem Binary64.same_iff {x y : Binary64} :
    x.same y.toRounded = true ↔ x.canonical = y.canonical := by
  rw [Rounded.same_iff, canonical, canonical, Binary64.mk.injEq]

/-- The number with one zero for both. -/
def Number.canonical : Number → Number
  | .int i => .int i
  | .float x => .float x.canonical

theorem Number.same_iff {m n : Number} : m.same n = true ↔ m.canonical = n.canonical := by
  cases m <;> cases n <;> simp [same, canonical, Binary64.same_iff]

namespace Value

mutual

/-- The value with its doubles in canonical form. -/
def canonical : Value → Value
  | .null => .null
  | .bool b => .bool b
  | .num n => .num n.canonical
  | .str s => .str s
  | .arr items => .arr (canonicalItems items)
  | .obj members => .obj (canonicalMembers members)

def canonicalItems : List Value → List Value
  | [] => []
  | v :: rest => v.canonical :: canonicalItems rest

def canonicalMembers : Members → Members
  | [] => []
  | (k, v) :: rest => (k, v.canonical) :: canonicalMembers rest

end

mutual

/-- Two values are equal as data exactly if they have one canonical form. -/
theorem same_iff : ∀ a b : Value, a.same b = true ↔ a.canonical = b.canonical
  | .null, b => by cases b <;> simp [same, canonical]
  | .bool _, b => by cases b <;> simp [same, canonical]
  | .num _, b => by cases b <;> simp [same, canonical, Number.same_iff]
  | .str _, b => by cases b <;> simp [same, canonical]
  | .arr as, b => by
    cases b with
    | arr bs => simpa [same, canonical] using sameItems_iff as bs
    | _ => simp [same, canonical]
  | .obj as, b => by
    cases b with
    | obj bs => simpa [same, canonical] using sameMembers_iff as bs
    | _ => simp [same, canonical]

theorem sameItems_iff : ∀ as bs : List Value,
    sameItems as bs = true ↔ canonicalItems as = canonicalItems bs
  | [], bs => by cases bs <;> simp [sameItems, canonicalItems]
  | a :: as, [] => by simp [sameItems, canonicalItems]
  | a :: as, b :: bs => by simp [sameItems, canonicalItems, same_iff a b, sameItems_iff as bs]

theorem sameMembers_iff : ∀ as bs : Members,
    sameMembers as bs = true ↔ canonicalMembers as = canonicalMembers bs
  | [], bs => by cases bs <;> simp [sameMembers, canonicalMembers]
  | (_, _) :: as, [] => by simp [sameMembers, canonicalMembers]
  | (k, a) :: as, (l, b) :: bs => by
    simp [sameMembers, canonicalMembers, same_iff a b, sameMembers_iff as bs, and_assoc]

end

/-- What is compared of a whole value: the rounded number, of whatever kind the number is, or else
the canonical form. -/
def comparable : Value → Value ⊕ Rounded
  | .num n => .inr n.rounded.canonical
  | v => .inl v.canonical

end Value

/-- Values agree exactly if the same is compared of both. -/
theorem agree_iff {a b : Option Value} :
    agree a b = true ↔ a.map Value.comparable = b.map Value.comparable := by
  rcases a with _ | a
  · cases b <;> simp [agree]
  · rcases b with _ | b
    · cases a <;> simp [agree]
    · cases a <;> cases b <;>
        simp [agree, Value.comparable, Value.same_iff, Value.canonical, Rounded.same_iff]

/-- Agreement is an equivalence, being equality of what is compared. -/
theorem agree_equivalence : Equivalence fun a b => agree a b = true where
  refl _ := agree_iff.mpr rfl
  symm h := agree_iff.mpr (agree_iff.mp h).symm
  trans h h' := agree_iff.mpr ((agree_iff.mp h).trans (agree_iff.mp h'))

theorem agree_none_iff {v : Option Value} : agree v none = true ↔ v = none := by
  cases v <;> simp [agree]

theorem agree_null_iff {v : Option Value} : agree v (some .null) = true ↔ v = some .null := by
  rcases v with _ | v
  · simp [agree]
  · cases v <;> simp [agree, Value.same]

/-! ### Operators -/

/-- Of two numbers one is less, equal or greater, and anything else is in no order.  An operator and
its negation exclude each other, what is undefined equals only what is undefined and `null` only
`null`, and agreement is an equivalence. -/
theorem Gate.operators_coherent (document : Value) (path : String) (value : Option Value) :
    let found := document.get? path
    let opens operator := Gate.opens ⟨path, operator, value⟩ document
    (found.any Value.isNumber = true ∧ value.any Value.isNumber = true →
        (∃! operator, operator ∈ [.lt, .eq, .gt] ∧ opens operator = true) ∧
        opens .lte = (opens .lt || opens .eq) ∧ opens .gte = (opens .gt || opens .eq)) ∧
      (¬(found.any Value.isNumber = true ∧ value.any Value.isNumber = true) →
        opens .lt = false ∧ opens .lte = false ∧ opens .gt = false ∧ opens .gte = false) ∧
      opens .neq = !opens .eq ∧ opens .notExist = !opens .exist ∧
      (value = none → (opens .eq = true ↔ found = none)) ∧
      (value = some .null → (opens .eq = true ↔ found = some .null)) ∧
      Equivalence fun a b => agree a b = true := by
  intro found opens
  refine ⟨?_, ?_, rfl, rfl, ?_, ?_, agree_equivalence⟩
  · rintro ⟨hfound, hvalue⟩
    obtain ⟨m, hm⟩ := isNumber_iff.mp hfound
    obtain ⟨n, rfl⟩ := isNumber_iff.mp hvalue
    have hopens : opens = fun operator => operator.holds m.rounded.units n.rounded.units :=
      funext fun operator => opens_num hm n operator
    rw [hopens]
    exact ⟨Operator.existsUnique_holds _ _, Operator.holds_lte _ _, Operator.holds_gte _ _⟩
  · intro h
    exact ⟨opens_of_not_numbers h rfl, opens_of_not_numbers h rfl, opens_of_not_numbers h rfl,
      opens_of_not_numbers h rfl⟩
  · rintro rfl
    exact agree_none_iff
  · rintro rfl
    exact agree_null_iff

/-- An integer, a text of digits and `null`. -/
def Value.assortment : Value :=
  .obj [("count", .num (.int 2)), ("name", .str "2"), ("nothing", .null)]

theorem Gate.operators_coherent_assortment :
    let two := Value.num (.float ⟨Rounded.ofNat 2, by decide +kernel⟩)
    (∃! operator, operator ∈ [.lt, .eq, .gt] ∧
        Gate.opens ⟨"count", operator, some two⟩ Value.assortment = true) ∧
      Gate.opens ⟨"count", .eq, some two⟩ Value.assortment = true ∧
      Gate.opens ⟨"name", .gte, some two⟩ Value.assortment = false ∧
      Gate.opens ⟨"gone", .eq, none⟩ Value.assortment = true ∧
      Gate.opens ⟨"nothing", .eq, none⟩ Value.assortment = false ∧
      Gate.opens ⟨"nothing", .eq, some .null⟩ Value.assortment = true := by
  intro two
  obtain ⟨hnumbers, -⟩ := operators_coherent Value.assortment "count" (some two)
  obtain ⟨-, hothers, -⟩ := operators_coherent Value.assortment "name" (some two)
  obtain ⟨-, -, -, -, hundefined, -⟩ := operators_coherent Value.assortment "gone" none
  obtain ⟨-, -, -, -, hpresent, -⟩ := operators_coherent Value.assortment "nothing" none
  obtain ⟨-, -, -, -, -, hnull, -⟩ := operators_coherent Value.assortment "nothing" (some .null)
  refine ⟨(hnumbers (by decide +kernel)).1, by decide +kernel,
    (hothers (by decide +kernel)).2.2.2, (hundefined rfl).mpr (by decide +kernel), ?_,
    (hnull rfl).mpr (by decide +kernel)⟩
  rw [Bool.eq_false_iff, ne_eq, hpresent rfl]
  decide +kernel

end ServerUi
