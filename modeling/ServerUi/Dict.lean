/-!
# ServerUi.Dict — finite maps as lists in key order

A map is a list of pairs.  `insert` overwrites a key where it stands and puts a new key before the
first greater one, so a list built by `insert` alone is in strictly increasing key order
(`Ordered.insert`, `Ordered.merge`).  The lookup laws hold for every list, ordered or not; `Ordered`
is needed only where two maps with the same entries have to be the same list.
-/

namespace ServerUi

namespace Dict

variable {κ α : Type} [DecidableEq κ]

/-- The value of the first pair with the key. -/
def get? (key : κ) : List (κ × α) → Option α
  | [] => none
  | (k, v) :: rest => if key = k then some v else get? key rest

def contains (key : κ) (entries : List (κ × α)) : Bool := (get? key entries).isSome

/-- Overwrite the first pair with the key. -/
def overwrite (key : κ) (value : α) : List (κ × α) → List (κ × α)
  | [] => []
  | (k, v) :: rest => if key = k then (k, value) :: rest else (k, v) :: overwrite key value rest

/-- Put a pair before the first greater key. -/
def place [LT κ] [DecidableLT κ] (key : κ) (value : α) : List (κ × α) → List (κ × α)
  | [] => [(key, value)]
  | (k, v) :: rest =>
    if key < k then (key, value) :: (k, v) :: rest else (k, v) :: place key value rest

/-- Overwrite the key where it stands, or place it. -/
def insert [LT κ] [DecidableLT κ] (key : κ) (value : α) (entries : List (κ × α)) : List (κ × α) :=
  if contains key entries then overwrite key value entries else place key value entries

/-- Insert every pair of `overlay`, in order, so that its values win. -/
def merge [LT κ] [DecidableLT κ] (base overlay : List (κ × α)) : List (κ × α) :=
  overlay.foldl (fun entries pair => insert pair.1 pair.2 entries) base

/-- The map of a list of pairs; the last pair of a key counts. -/
def ofList [LT κ] [DecidableLT κ] (pairs : List (κ × α)) : List (κ × α) := merge [] pairs

def erase (key : κ) (entries : List (κ × α)) : List (κ × α) :=
  entries.filter fun pair => pair.1 ≠ key

def keys (entries : List (κ × α)) : List κ := entries.map Prod.fst

/-- Keys strictly increase, so no key stands twice. -/
def Ordered [LT κ] (entries : List (κ × α)) : Prop := (keys entries).Pairwise (· < ·)

/-! ### Lookup after an update -/

@[simp] theorem get?_nil (key : κ) : get? key ([] : List (κ × α)) = none := rfl

theorem get?_cons (key k : κ) (v : α) (rest : List (κ × α)) :
    get? key ((k, v) :: rest) = if key = k then some v else get? key rest := rfl

theorem get?_overwrite (key key' : κ) (value : α) :
    ∀ entries : List (κ × α), get? key (overwrite key' value entries) =
      if key = key' ∧ contains key' entries then some value else get? key entries
  | [] => by simp [overwrite, contains]
  | (k, v) :: rest => by
    have ih := get?_overwrite key key' value rest
    by_cases h : key' = k
    · subst h
      by_cases hk : key = key' <;> simp [overwrite, contains, get?_cons, hk]
    · by_cases hk : key = k
      · have hne : ¬key = key' := fun e => h (e ▸ hk)
        subst hk
        simp [overwrite, get?_cons, h, hne]
      · simp [overwrite, contains, get?_cons, h, hk] at ih ⊢
        exact ih

variable [LT κ] [DecidableLT κ]

theorem get?_place (key key' : κ) (value : α) :
    ∀ entries : List (κ × α), contains key' entries = false →
      get? key (place key' value entries) = if key = key' then some value else get? key entries
  | [], _ => by simp [place, get?_cons]
  | (k, v) :: rest, h => by
    have hk' : key' ≠ k := fun e => by simp [contains, get?_cons, e] at h
    have hrest : contains key' rest = false := by simpa [contains, get?_cons, hk'] using h
    have ih := get?_place key key' value rest hrest
    by_cases hlt : key' < k
    · simp [place, hlt, get?_cons]
    · by_cases hk : key = k
      · have hne : key ≠ key' := fun e => hk' (e ▸ hk)
        subst hk
        simp [place, hlt, get?_cons, hne]
      · simp [place, hlt, get?_cons, hk, ih]

theorem get?_insert (key key' : κ) (value : α) (entries : List (κ × α)) :
    get? key (insert key' value entries) = if key = key' then some value else get? key entries := by
  unfold insert
  by_cases h : contains key' entries = true
  · rw [if_pos h, get?_overwrite]
    simp [h]
  · rw [if_neg h, get?_place]
    simpa using h

/-! ### Key order -/

omit [LT κ] [DecidableLT κ] in
theorem get?_eq_none_iff {key : κ} :
    ∀ {entries : List (κ × α)}, get? key entries = none ↔ key ∉ keys entries
  | [] => by simp [keys]
  | (k, v) :: rest => by
    by_cases h : key = k
    · simp [get?_cons, keys, h]
    · have ih : get? key rest = none ↔ key ∉ keys rest := get?_eq_none_iff
      simpa [get?_cons, keys, h] using ih

omit [LT κ] [DecidableLT κ] in
theorem contains_iff {key : κ} {entries : List (κ × α)} :
    contains key entries = true ↔ key ∈ keys entries := by
  unfold contains
  rw [Option.isSome_iff_ne_none, ne_eq, get?_eq_none_iff, Decidable.not_not]

omit [LT κ] [DecidableLT κ] in
theorem keys_overwrite (key : κ) (value : α) (entries : List (κ × α)) :
    keys (overwrite key value entries) = keys entries := by
  induction entries with
  | nil => rfl
  | cons pair entries ih =>
    obtain ⟨k, v⟩ := pair
    unfold keys at ih ⊢
    by_cases h : key = k <;> simp [overwrite, h, ih]

omit [DecidableEq κ] in
theorem mem_keys_place {x key : κ} {value : α} {entries : List (κ × α)} :
    x ∈ keys (place key value entries) ↔ x = key ∨ x ∈ keys entries := by
  induction entries with
  | nil => simp [place, keys]
  | cons pair entries ih =>
    obtain ⟨k, v⟩ := pair
    unfold keys at ih ⊢
    by_cases h : key < k
    · simp [place, h]
    · simp only [place, h, if_false, List.map_cons, List.mem_cons, ih]
      exact or_left_comm

namespace Ordered

variable {entries : List (κ × α)}

omit [DecidableEq κ] [DecidableLT κ] in
theorem nil : Ordered ([] : List (κ × α)) := List.Pairwise.nil

omit [DecidableLT κ] in
/-- Overwriting leaves the keys as they are. -/
theorem overwrite (h : Ordered entries) (key : κ) (value : α) :
    Ordered (overwrite key value entries) := by
  unfold Ordered
  rw [keys_overwrite]
  exact h

variable [Trans (· < · : κ → κ → Prop) (· < ·) (· < ·)] [Std.Trichotomous (· < · : κ → κ → Prop)]

omit [DecidableEq κ] in
theorem place (h : Ordered entries) {key : κ} (hkey : key ∉ keys entries) (value : α) :
    Ordered (place key value entries) := by
  induction entries with
  | nil => simp [Dict.place, Ordered, keys]
  | cons pair entries ih =>
    obtain ⟨k, v⟩ := pair
    obtain ⟨hk, hentries⟩ := List.pairwise_cons.mp h
    obtain ⟨hne, hkey⟩ : key ≠ k ∧ key ∉ keys entries := by simpa [keys] using hkey
    by_cases hlt : key < k
    · rw [Dict.place, if_pos hlt]
      refine List.pairwise_cons.mpr ⟨fun x hx => ?_, h⟩
      obtain rfl | hx := List.mem_cons.mp hx
      · exact hlt
      · exact Trans.trans hlt (hk x hx)
    · rw [Dict.place, if_neg hlt]
      refine List.pairwise_cons.mpr ⟨fun x hx => ?_, ih hentries hkey⟩
      obtain rfl | hx := mem_keys_place.mp hx
      · -- the new key is neither below this one nor equal to it
        exact Decidable.byContradiction fun hgt =>
          hne (Std.Trichotomous.trichotomous _ _ hlt hgt)
      · exact hk x hx

theorem insert (h : Ordered entries) (key : κ) (value : α) :
    Ordered (insert key value entries) := by
  unfold Dict.insert
  split
  · exact h.overwrite key value
  · next hnot => exact h.place (fun hmem => hnot (contains_iff.mpr hmem)) value

theorem merge (h : Ordered entries) (overlay : List (κ × α)) : Ordered (merge entries overlay) := by
  induction overlay generalizing entries with
  | nil => exact h
  | cons pair overlay ih => exact ih (h.insert pair.1 pair.2)

end Ordered

end Dict

end ServerUi
