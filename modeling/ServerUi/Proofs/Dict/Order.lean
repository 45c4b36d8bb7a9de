import Mathlib.Data.List.Nodup
import Mathlib.Data.String.Basic
import ServerUi.Dict

/-!
# ServerUi.Proofs.Dict.Order — maps in key order

A map in key order is determined by what it answers to `get?` (`Ordered.ext`).  In every list of
pairs the second of two values put under a key counts (`insert_insert`), and putting back what is
there changes nothing (`insert_eq_self`).  Values put under two keys may be put in any order
(`insert_comm`).  For a list of pairs with no key twice, `ofList` is the same pairs in key order
(`ofList_perm`) and answers as the list does (`get?_ofList`).
-/

namespace ServerUi

namespace Dict

variable {κ α β : Type}

/-- Every value replaced by a function of it. -/
def mapValues (f : α → β) (es : List (κ × α)) : List (κ × β) := es.map fun p => (p.1, f p.2)

theorem keys_mapValues (f : α → β) (es : List (κ × α)) : keys (mapValues f es) = keys es := by
  simp [keys, mapValues]

theorem mem_keys_of_mem {k : κ} {v : α} {es : List (κ × α)} (h : (k, v) ∈ es) : k ∈ keys es :=
  List.mem_map_of_mem (f := Prod.fst) h

theorem nodup_of_keys {es : List (κ × α)} (h : (keys es).Nodup) : es.Nodup := List.Nodup.of_map _ h

variable [DecidableEq κ]

/-! ### Lookup as membership -/

theorem mem_of_get? {k : κ} {v : α} : ∀ {es : List (κ × α)}, get? k es = some v → (k, v) ∈ es
  | [], h => by simp at h
  | (l, w) :: es, h => by
    by_cases hk : k = l
    · subst hk
      simp [get?_cons] at h
      simp [h]
    · rw [get?_cons, if_neg hk] at h
      exact List.mem_cons_of_mem _ (mem_of_get? h)

/-- A pair whose key stands nowhere else is found by its key. -/
theorem get?_of_mem {k : κ} {v : α} :
    ∀ {es : List (κ × α)}, (keys es).Nodup → (k, v) ∈ es → get? k es = some v
  | (l, w) :: es, hd, h => by
    obtain ⟨hl, hd⟩ := List.nodup_cons.mp hd
    rcases List.mem_cons.mp h with h | h
    · cases h
      simp [get?_cons]
    · have hk : k ≠ l := fun e => hl (e ▸ mem_keys_of_mem h)
      rw [get?_cons, if_neg hk]
      exact get?_of_mem hd h

/-- If no key stands twice, lookup is membership. -/
theorem get?_eq_some_iff {k : κ} {v : α} {es : List (κ × α)} (hd : (keys es).Nodup) :
    get? k es = some v ↔ (k, v) ∈ es :=
  ⟨mem_of_get?, get?_of_mem hd⟩

theorem get?_append (k : κ) (es fs : List (κ × α)) :
    get? k (es ++ fs) = (get? k es).or (get? k fs) := by
  induction es with
  | nil => simp
  | cons p es ih =>
    obtain ⟨l, v⟩ := p
    by_cases h : k = l <;> simp [get?_cons, h, ih]

/-- Lookup does not depend on the order of the pairs when no key stands twice. -/
theorem get?_perm {es fs : List (κ × α)} (h : es.Perm fs) (hd : (keys es).Nodup) (k : κ) :
    get? k es = get? k fs := by
  have hd' : (keys fs).Nodup := (h.map Prod.fst).nodup hd
  ext v
  rw [get?_eq_some_iff hd, get?_eq_some_iff hd', h.mem_iff]

/-! ### Lookup after a change -/

theorem get?_mapValues (f : α → β) (k : κ) (es : List (κ × α)) :
    get? k (mapValues f es) = (get? k es).map f := by
  induction es with
  | nil => rfl
  | cons p es ih =>
    obtain ⟨l, v⟩ := p
    by_cases h : k = l
    · simp [mapValues, get?_cons, h]
    · simpa [mapValues, get?_cons, h] using ih

theorem erase_cons (l k : κ) (v : α) (es : List (κ × α)) :
    erase l ((k, v) :: es) = if k = l then erase l es else (k, v) :: erase l es := by
  by_cases h : k = l <;> simp [erase, h]

theorem get?_erase (k l : κ) (es : List (κ × α)) :
    get? k (erase l es) = if k = l then none else get? k es := by
  induction es with
  | nil => simp [erase]
  | cons p es ih =>
    obtain ⟨m, v⟩ := p
    by_cases hm : m = l
    · subst hm
      rw [erase_cons, if_pos rfl, ih]
      by_cases hk : k = m <;> simp [get?_cons, hk]
    · by_cases hk : k = m
      · subst hk
        simp [erase_cons, get?_cons, hm]
      · simp [erase_cons, get?_cons, hm, hk, ih]

theorem mem_erase {p : κ × α} {l : κ} {es : List (κ × α)} :
    p ∈ erase l es ↔ p ∈ es ∧ p.1 ≠ l := by
  simp [erase]

theorem erase_eq_self {l : κ} {es : List (κ × α)} (h : l ∉ keys es) : erase l es = es := by
  unfold erase
  rw [List.filter_eq_self]
  intro p hp
  have hne : p.1 ≠ l := fun e => h (e ▸ mem_keys_of_mem hp)
  simpa using hne

/-! ### Entries of an update -/

variable [LT κ]

theorem Ordered.erase {es : List (κ × α)} (h : Ordered es) (l : κ) : Ordered (erase l es) :=
  h.sublist (List.filter_sublist.map _)

omit [LT κ] in
theorem mem_overwrite {p : κ × α} {k : κ} {v : α} {es : List (κ × α)}
    (h : p ∈ overwrite k v es) : p = (k, v) ∨ p ∈ es := by
  induction es with
  | nil => simp [overwrite] at h
  | cons q es ih =>
    obtain ⟨l, w⟩ := q
    by_cases hl : k = l
    · subst hl
      rw [overwrite, if_pos rfl] at h
      rcases List.mem_cons.mp h with h | h <;> simp [h]
    · rw [overwrite, if_neg hl] at h
      rcases List.mem_cons.mp h with rfl | h
      · simp
      · rcases ih h with h | h <;> simp [h]

variable [DecidableLT κ]

omit [DecidableEq κ] in
theorem mem_place {p : κ × α} {k : κ} {v : α} {es : List (κ × α)} (h : p ∈ place k v es) :
    p = (k, v) ∨ p ∈ es := by
  induction es with
  | nil => simpa [place] using h
  | cons q es ih =>
    by_cases hl : k < q.1
    · simpa [place, hl] using h
    · rw [place, if_neg hl] at h
      rcases List.mem_cons.mp h with rfl | h
      · simp
      · rcases ih h with h | h <;> simp [h]

theorem mem_insert {p : κ × α} {k : κ} {v : α} {es : List (κ × α)} (h : p ∈ insert k v es) :
    p = (k, v) ∨ p ∈ es := by
  unfold insert at h
  split_ifs at h
  · exact mem_overwrite h
  · exact mem_place h

omit [LT κ] [DecidableLT κ] in
theorem overwrite_overwrite (k : κ) (v w : α) (es : List (κ × α)) :
    overwrite k w (overwrite k v es) = overwrite k w es := by
  induction es with
  | nil => rfl
  | cons p es ih =>
    obtain ⟨l, x⟩ := p
    by_cases h : k = l
    · simp [overwrite, h]
    · simp [overwrite, h, ih]

theorem overwrite_place {k : κ} {es : List (κ × α)} (h : k ∉ keys es) (v w : α) :
    overwrite k w (place k v es) = place k w es := by
  induction es with
  | nil => simp [place, overwrite]
  | cons p es ih =>
    obtain ⟨l, x⟩ := p
    obtain ⟨hkl, hk⟩ : k ≠ l ∧ k ∉ keys es := by simpa [keys] using h
    by_cases hlt : k < l
    · simp [place, overwrite, hlt]
    · simp [place, overwrite, hlt, hkl, ih hk]

omit [LT κ] [DecidableLT κ] in
theorem overwrite_eq_self {k : κ} {v : α} {es : List (κ × α)} (h : get? k es = some v) :
    overwrite k v es = es := by
  induction es with
  | nil => rfl
  | cons p es ih =>
    obtain ⟨l, x⟩ := p
    by_cases hkl : k = l
    · simp_all [overwrite, get?_cons]
    · rw [get?_cons, if_neg hkl] at h
      rw [overwrite, if_neg hkl, ih h]

/-- Of two values put under a key the second counts. -/
theorem insert_insert (k : κ) (v w : α) (es : List (κ × α)) :
    insert k w (insert k v es) = insert k w es := by
  have hc : contains k (insert k v es) = true := by simp [contains, get?_insert]
  rw [insert, if_pos hc]
  unfold insert
  split_ifs with h
  · exact overwrite_overwrite k v w es
  · exact overwrite_place (fun hk => h (contains_iff.mpr hk)) v w

/-- Putting under a key what is there already changes nothing. -/
theorem insert_eq_self {k : κ} {v : α} {es : List (κ × α)} (h : get? k es = some v) :
    insert k v es = es := by
  have hc : contains k es = true := by simp [contains, h]
  rw [insert, if_pos hc, overwrite_eq_self h]

theorem mem_merge {p : κ × α} {es fs : List (κ × α)} (h : p ∈ merge es fs) : p ∈ fs ∨ p ∈ es := by
  induction fs generalizing es with
  | nil => exact .inr h
  | cons q fs ih =>
    rcases ih h with h | h
    · exact .inl (List.mem_cons_of_mem _ h)
    · rcases mem_insert h with rfl | h <;> simp_all

theorem mem_ofList {p : κ × α} {es : List (κ × α)} (h : p ∈ ofList es) : p ∈ es := by
  simpa using mem_merge h

/-- The last pair of the overlay answers first, then the base. -/
theorem get?_merge (k : κ) (es fs : List (κ × α)) :
    get? k (merge es fs) = (get? k fs.reverse).or (get? k es) := by
  induction fs generalizing es with
  | nil => simp [merge]
  | cons p fs ih =>
    have hstep : merge es (p :: fs) = merge (insert p.1 p.2 es) fs := rfl
    rw [hstep, ih, get?_insert, List.reverse_cons, get?_append]
    have hsingle : get? k [p] = if k = p.1 then some p.2 else none := get?_cons k p.1 p.2 []
    rw [hsingle]
    by_cases h : k = p.1 <;> cases get? k fs.reverse <;> simp [h]

/-- A map put over another answers first. -/
theorem get?_merge_of_nodup {fs : List (κ × α)} (hd : (keys fs).Nodup) (k : κ)
    (es : List (κ × α)) : get? k (merge es fs) = (get? k fs).or (get? k es) := by
  rw [get?_merge, ← get?_perm (List.reverse_perm fs).symm hd]

/-- A list of pairs put over a map answers first, with the last value of a key. -/
theorem get?_merge_ofList (k : κ) (es fs : List (κ × α)) :
    get? k (merge es fs) = (get? k (ofList fs)).or (get? k es) := by
  rw [ofList, get?_merge, get?_merge, get?_nil, Option.or_none]

/-- The map of a list with no key twice answers as the list does. -/
theorem get?_ofList {es : List (κ × α)} (hd : (keys es).Nodup) (k : κ) :
    get? k (ofList es) = get? k es := by
  rw [ofList, get?_merge_of_nodup hd, get?_nil, Option.or_none]

/-! ### Key order -/

variable [IsStrictTotalOrder κ (· < ·)]

omit [DecidableEq κ] [DecidableLT κ] in
theorem Ordered.nodup {es : List (κ × α)} (h : Ordered es) : (keys es).Nodup :=
  List.Pairwise.imp (fun {a b} (hab : a < b) (e : a = b) => irrefl_of (· < ·) b (e ▸ hab)) h

theorem ordered_ofList (es : List (κ × α)) : Ordered (ofList es) := Ordered.nil.merge es

omit [DecidableEq κ] [DecidableLT κ] in
/-- Two maps in key order with the same pairs are one list. -/
theorem Ordered.eq_of_mem_iff {es fs : List (κ × α)} (he : Ordered es) (hf : Ordered fs)
    (h : ∀ p, p ∈ es ↔ p ∈ fs) : es = fs := by
  have hperm : es.Perm fs :=
    (List.perm_ext_iff_of_nodup (nodup_of_keys he.nodup) (nodup_of_keys hf.nodup)).mpr h
  have hlt : ∀ {gs : List (κ × α)}, Ordered gs → gs.Pairwise fun p q => p.1 < q.1 :=
    fun hg => List.pairwise_map.mp hg
  refine hperm.eq_of_pairwise (fun p q _ _ hpq hqp => ?_) (hlt he) (hlt hf)
  exact absurd hqp (asymm_of (· < ·) hpq)

omit [DecidableLT κ] in
/-- Two maps in key order that answer alike are one list. -/
theorem Ordered.ext {es fs : List (κ × α)} (he : Ordered es) (hf : Ordered fs)
    (h : ∀ k, get? k es = get? k fs) : es = fs :=
  he.eq_of_mem_iff hf fun (k, v) => by
    rw [← get?_eq_some_iff he.nodup, ← get?_eq_some_iff hf.nodup, h k]

/-- The map of a list with no key twice has the same pairs. -/
theorem ofList_perm {es : List (κ × α)} (hd : (keys es).Nodup) : (ofList es).Perm es := by
  refine (List.perm_ext_iff_of_nodup (nodup_of_keys (ordered_ofList es).nodup)
    (nodup_of_keys hd)).mpr fun (k, v) => ?_
  rw [← get?_eq_some_iff (ordered_ofList es).nodup, ← get?_eq_some_iff hd, get?_ofList hd]

/-- The map of the pairs of a map, in whatever order they come, is the map. -/
theorem ofList_eq_of_perm {es fs : List (κ × α)} (h : fs.Perm es) (he : Ordered es) :
    ofList fs = es := by
  have hd : (keys fs).Nodup := (h.symm.map Prod.fst).nodup he.nodup
  refine (ordered_ofList fs).ext he fun k => ?_
  rw [get?_ofList hd, get?_perm h hd]

theorem ofList_eq_self {es : List (κ × α)} (h : Ordered es) : ofList es = es :=
  ofList_eq_of_perm (List.Perm.refl es) h

/-! ### Updates under two keys -/

omit [LT κ] [DecidableLT κ] [IsStrictTotalOrder κ (· < ·)] in
theorem overwrite_comm {k l : κ} (hne : k ≠ l) (v w : α) (es : List (κ × α)) :
    overwrite k v (overwrite l w es) = overwrite l w (overwrite k v es) := by
  induction es with
  | nil => rfl
  | cons p es ih =>
    obtain ⟨m, x⟩ := p
    by_cases hk : k = m
    · have hl : l ≠ m := fun e => hne (hk.trans e.symm)
      simp [overwrite, hk, hl]
    · by_cases hl : l = m <;> simp [overwrite, hk, hl, ih]

omit [IsStrictTotalOrder κ (· < ·)] in
/-- Overwriting one key and placing another commute, wherever the other is placed. -/
theorem overwrite_place_comm {k l : κ} (hne : k ≠ l) (v w : α) (es : List (κ × α)) :
    overwrite k v (place l w es) = place l w (overwrite k v es) := by
  induction es with
  | nil => simp [place, overwrite, hne]
  | cons p es ih =>
    obtain ⟨m, x⟩ := p
    by_cases hl : l < m
    · have hplace (y : α) (fs : List (κ × α)) : place l w ((m, y) :: fs) = (l, w) :: (m, y) :: fs :=
        if_pos hl
      rw [hplace, overwrite, if_neg hne, overwrite]
      split_ifs <;> rw [hplace]
    · by_cases hk : k = m <;> simp [place, overwrite, hl, hk, ih]

omit [DecidableEq κ] in
/-- Two new keys end up in their order, whichever is placed first. -/
theorem place_comm_of_lt {k l : κ} (h : k < l) (v w : α) (es : List (κ × α)) :
    place k v (place l w es) = place l w (place k v es) := by
  have hlk : ¬l < k := asymm_of (· < ·) h
  induction es with
  | nil => simp [place, h, hlk]
  | cons p es ih =>
    obtain ⟨m, x⟩ := p
    by_cases hl : l < m
    · have hk : k < m := trans_of (· < ·) h hl
      simp [place, h, hlk, hl, hk]
    · by_cases hk : k < m <;> simp [place, hlk, hl, hk, ih]

/-- The order of two insertions under different keys does not matter. -/
theorem insert_comm {k l : κ} (hne : k ≠ l) (v w : α) (es : List (κ × α)) :
    insert k v (insert l w es) = insert l w (insert k v es) := by
  have hplace : place k v (place l w es) = place l w (place k v es) := by
    rcases (trichotomous_of (· < ·) k l).imp_right (·.resolve_left hne) with h | h
    · exact place_comm_of_lt h v w es
    · exact (place_comm_of_lt h w v es).symm
  have hk : contains k (insert l w es) = contains k es := by
    simp [contains, get?_insert, hne]
  have hl : contains l (insert k v es) = contains l es := by
    simp [contains, get?_insert, hne.symm]
  rw [insert, insert.eq_def l w (insert k v es), hk, hl, insert, insert]
  -- each of the keys is overwritten or placed
  split_ifs
  · exact overwrite_comm hne v w es
  · exact overwrite_place_comm hne v w es
  · exact (overwrite_place_comm hne.symm w v es).symm
  · exact hplace

end Dict

end ServerUi
