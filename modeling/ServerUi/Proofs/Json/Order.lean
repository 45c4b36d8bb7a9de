import ServerUi.Json.Value
import ServerUi.Proofs.Dict.Order

/-!
# ServerUi.Proofs.Json.Order — documents in key order

`normalize` leaves a document alone whose objects are in key order.  The members of a normalized
object are looked up as those of the object itself (`get?_normalized`), provided no key stands
twice.
-/

namespace ServerUi

namespace Value

theorem orderedItems_iff : ∀ {items : List Value}, OrderedItems items ↔ ∀ v ∈ items, v.Ordered
  | [] => by simp [OrderedItems]
  | v :: items => by
    rw [OrderedItems, @orderedItems_iff items]
    simp

theorem orderedMembers_iff : ∀ {ms : Members}, OrderedMembers ms ↔ ∀ p ∈ ms, p.2.Ordered
  | [] => by simp [OrderedMembers]
  | (k, v) :: ms => by
    rw [OrderedMembers, @orderedMembers_iff ms]
    simp

theorem ordered_of_get? {ms : Members} (h : OrderedMembers ms) {k : String} {v : Value}
    (hv : Dict.get? k ms = some v) : v.Ordered :=
  orderedMembers_iff.mp h _ (Dict.mem_of_get? hv)

/-- Normalizing members keeps their keys and their order. -/
theorem normalizeMembers_eq : ∀ ms : Members, normalizeMembers ms = Dict.mapValues normalize ms
  | [] => rfl
  | (k, v) :: ms => by
    rw [normalizeMembers, normalizeMembers_eq ms]
    rfl

/-! ### Checking the order -/

mutual

/-- Whether a value is in key order at every depth is decided by walking it. -/
def decidableOrdered : (v : Value) → Decidable v.Ordered
  | .null | .bool _ | .num _ | .str _ => .isTrue trivial
  | .arr items => decidableOrderedItems items
  | .obj ms =>
    have := decidableOrderedMembers ms
    inferInstanceAs (Decidable ((Dict.keys ms).Pairwise (· < ·) ∧ OrderedMembers ms))

/-- The same for items. -/
def decidableOrderedItems : (items : List Value) → Decidable (OrderedItems items)
  | [] => .isTrue trivial
  | v :: rest =>
    have := decidableOrdered v
    have := decidableOrderedItems rest
    inferInstanceAs (Decidable (v.Ordered ∧ OrderedItems rest))

/-- The same for members. -/
def decidableOrderedMembers : (ms : Members) → Decidable (OrderedMembers ms)
  | [] => .isTrue trivial
  | (_, v) :: rest =>
    have := decidableOrdered v
    have := decidableOrderedMembers rest
    inferInstanceAs (Decidable (v.Ordered ∧ OrderedMembers rest))

end

instance : DecidablePred Ordered := decidableOrdered

/-! ### Normalizing what is in order -/

mutual

/-- A value in key order is normal. -/
theorem normalize_eq_self : ∀ v : Value, v.Ordered → v.normalize = v
  | .null, _ => rfl
  | .bool _, _ => rfl
  | .num _, _ => rfl
  | .str _, _ => rfl
  | .arr items, h => by
    rw [normalize, normalizeItems_eq_self items h]
  | .obj ms, h => by
    rw [normalize, normalizeMembers_eq_self ms h.2, Dict.ofList_eq_self h.1]

theorem normalizeItems_eq_self : ∀ items, OrderedItems items → normalizeItems items = items
  | [], _ => rfl
  | v :: items, h => by
    rw [normalizeItems, normalize_eq_self v h.1, normalizeItems_eq_self items h.2]

theorem normalizeMembers_eq_self : ∀ ms, OrderedMembers ms → normalizeMembers ms = ms
  | [], _ => rfl
  | (k, v) :: ms, h => by
    rw [normalizeMembers, normalize_eq_self v h.1, normalizeMembers_eq_self ms h.2]

end

/-- The members of an object once it is normalized. -/
def normalized (ms : Members) : Members := Dict.ofList (normalizeMembers ms)

theorem normalize_obj (ms : Members) : (Value.obj ms).normalize = .obj (normalized ms) := rfl

/-- Normalizing members with no key twice normalizes what is found under each key. -/
theorem get?_normalized {ms : Members} (hd : (Dict.keys ms).Nodup) (k : String) :
    Dict.get? k (normalized ms) = (Dict.get? k ms).map normalize := by
  rw [normalized, normalizeMembers_eq, Dict.get?_ofList (by rwa [Dict.keys_mapValues]),
    Dict.get?_mapValues]

end Value

end ServerUi
