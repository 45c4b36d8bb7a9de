import ServerUi.Document.Path
import ServerUi.Proofs.Dict.Order
import ServerUi.Proofs.Number.Decimal

/-!
# ServerUi.Proofs.Document.Lens — reading and writing at a path

Writing takes one step as reading does: the child a segment names is put back under the segment
(`write_cons`), and what is put under a segment is the child it names afterwards
(`child?_putChild`), whether the container stays an array, becomes an object or is made for it.
The laws of one step carry over to paths by induction, and to written paths since a text with a dot
in it splits there (`Path.ofString_append`).
-/

namespace ServerUi

/-! ### Written paths -/

namespace Path

theorem split_ne_nil (s : List Char) : split s ≠ [] := by
  cases s with
  | nil => simp [split]
  | cons c s =>
    unfold split
    split
    · exact List.cons_ne_nil _ _
    · split <;> exact List.cons_ne_nil _ _

/-- A text with a dot in it splits into the parts on either side. -/
theorem split_append (s t : List Char) : split (s ++ '.' :: t) = split s ++ split t := by
  induction s with
  | nil => simp [split]
  | cons c s ih =>
    rw [List.cons_append, split, split]
    by_cases hc : c = '.'
    · rw [if_pos hc, if_pos hc, ih]
      rfl
    · obtain ⟨piece, pieces, hs⟩ := List.exists_cons_of_ne_nil (split_ne_nil s)
      rw [if_neg hc, if_neg hc, ih, hs]
      rfl

/-- A path joined by a dot has the segments of both. -/
theorem ofString_append (p q : String) :
    ofString (p ++ "." ++ q) = ofString p ++ ofString q := by
  have hlist : (p ++ "." ++ q).toList = p.toList ++ '.' :: q.toList := by simp
  rw [ofString, hlist, split_append, List.map_append]
  rfl

/-! ### Positions in an array -/

theorem position?_lt {segment : String} {length i : Nat} (h : position? segment length = some i) :
    i < length := by
  simp only [position?] at h
  split_ifs at h with _ hlt
  exact Option.some.inj h ▸ hlt

/-- The number of an item names its position. -/
theorem position?_toString {i length : Nat} (h : i < length) :
    position? (toString i) length = some i := by
  have hall : (Nat.toDigits 10 i).all Char.isDigit = true :=
    List.all_eq_true.mpr fun _ hc => Nat.isDigit_of_mem_toDigits (by omega) (by omega) hc
  have hread : Nat.ofDigitChars 10 (Nat.toDigits 10 i) 0 = i :=
    Nat.ofDigitChars_ten_toDigits
  simp only [position?, Decimal.toList_toString]
  rw [if_pos ⟨Nat.toDigits_ne_nil, hall⟩, hread, if_pos h]

end Path

namespace Value

open ServerUi.Path

/-- The members of an array that becomes an object are its items, each under its position. -/
theorem get?_keyedByIndex_eq_some_iff {items : List Value} {key : String} {v : Value} :
    Dict.get? key (keyedByIndex items) = some v ↔
      ∃ i : Nat, items[i]? = some v ∧ key = toString i := by
  let pairs : Members := items.zipIdx.map fun p => (toString p.2, p.1)
  have hkeys : Dict.keys pairs = (List.range' 0 items.length).map toString := by
    rw [← List.zipIdx_map_snd, Dict.keys, List.map_map, List.map_map]
    rfl
  -- no two positions are written alike
  have hnodup : (Dict.keys pairs).Nodup :=
    hkeys ▸ List.Nodup.map Decimal.toString_injective List.nodup_range'
  have hlookup : Dict.get? key (keyedByIndex items) = Dict.get? key pairs :=
    Dict.get?_ofList hnodup key
  rw [hlookup, Dict.get?_eq_some_iff hnodup]
  constructor
  · intro hmem
    obtain ⟨⟨w, i⟩, hitem, hpair⟩ := List.mem_map.mp hmem
    obtain ⟨rfl, rfl⟩ := Prod.mk.inj hpair
    exact ⟨i, List.mem_zipIdx_iff_getElem?.mp hitem, rfl⟩
  · rintro ⟨i, hitem, rfl⟩
    exact List.mem_map.mpr ⟨(v, i), List.mem_zipIdx_iff_getElem?.mpr hitem, rfl⟩

/-- The keys of an array that becomes an object are positions in it. -/
theorem exists_position_of_get?_keyedByIndex {items : List Value} {segment : String} {v : Value}
    (h : Dict.get? segment (keyedByIndex items) = some v) :
    ∃ i, position? segment items.length = some i ∧ items[i]? = some v := by
  obtain ⟨i, hitem, rfl⟩ := get?_keyedByIndex_eq_some_iff.mp h
  obtain ⟨hlt, -⟩ := List.getElem?_eq_some_iff.mp hitem
  exact ⟨i, position?_toString hlt, hitem⟩

theorem get?_keyedByIndex_of_position?_eq_none {items : List Value} {segment : String}
    (h : position? segment items.length = none) :
    Dict.get? segment (keyedByIndex items) = none := by
  cases hget : Dict.get? segment (keyedByIndex items) with
  | none => rfl
  | some v =>
    obtain ⟨i, hi, -⟩ := exists_position_of_get?_keyedByIndex hget
    rw [h] at hi
    cases hi

/-! ### One step -/

/-- A value with a child put under a segment: in an array at that position, else as a member of the
object it holds or turns into. -/
def putChild (target : Option Value) (segment : String) (child : Value) : Value :=
  let asMember := .obj (Dict.insert segment child (membersOf target))
  match target with
  | some (.arr items) =>
    match position? segment items.length with
    | some i => .arr (items.set i child)
    | none => asMember
  | _ => asMember

theorem putChild_arr {items : List Value} {segment : String} {i : Nat}
    (hi : position? segment items.length = some i) (child : Value) :
    putChild (some (.arr items)) segment child = .arr (items.set i child) := by
  simp only [putChild, hi]

/-- Whether a child becomes an item or a member does not depend on the child. -/
theorem putChild_cases (target : Option Value) (segment : String) :
    (∃ items i, target = some (.arr items) ∧ position? segment items.length = some i ∧
      ∀ child, putChild target segment child = .arr (items.set i child)) ∨
    ∀ child,
      putChild target segment child = .obj (Dict.insert segment child (membersOf target)) := by
  rcases target with _ | v
  · exact .inr fun _ => rfl
  · cases v with
    | arr items =>
      cases hi : position? segment items.length with
      | some i => exact .inl ⟨items, i, rfl, hi, putChild_arr hi⟩
      | none => exact .inr fun child => by simp only [putChild, hi]
    | _ => exact .inr fun _ => rfl

/-- What is put under a segment is found there. -/
theorem child?_putChild (target : Option Value) (segment : String) (child : Value) :
    (putChild target segment child).child? segment = some child := by
  obtain ⟨items, i, -, hi, hput⟩ | hput := putChild_cases target segment
  · rw [hput, child?, List.length_set, hi]
    exact List.getElem?_set_self (position?_lt hi)
  · rw [hput, child?, Dict.get?_insert, if_pos rfl]

theorem putChild_putChild (target : Option Value) (segment : String) (child child' : Value) :
    putChild (some (putChild target segment child)) segment child' =
      putChild target segment child' := by
  obtain ⟨items, i, -, hi, hput⟩ | hput := putChild_cases target segment
  · rw [hput, hput, putChild_arr (by rwa [List.length_set]), List.set_set]
  · rw [hput, hput]
    simp only [putChild, membersOf, Dict.insert_insert]

/-- Putting a child where it stands changes nothing. -/
theorem putChild_eq_self {v child : Value} {segment : String} (h : v.child? segment = some child) :
    putChild (some v) segment child = v := by
  cases v with
  | obj members =>
    replace h : Dict.get? segment members = some child := h
    simp only [putChild, membersOf, Dict.insert_eq_self h]
  | arr items =>
    obtain ⟨i, hi, hitem⟩ := Option.bind_eq_some_iff.mp h
    obtain ⟨hlt, rfl⟩ := List.getElem?_eq_some_iff.mp hitem
    rw [putChild_arr hi, List.set_getElem_self]
  | _ => cases h

/-! ### Paths -/

/-- A write is a write to the child that the first segment names, put back under the segment. -/
theorem write_cons (target : Option Value) (segment : String) (rest : Path) (value : Value) :
    write target (segment :: rest) value =
      putChild target segment (write (target.bind (·.child? segment)) rest value) := by
  rcases target with _ | v
  · rfl
  · cases v with
    | arr items =>
      cases hi : position? segment items.length with
      | some i => simp only [write, putChild, Option.bind_some, child?, hi]
      | none =>
        have hget := get?_keyedByIndex_of_position?_eq_none hi
        simp only [write, putChild, membersOf, Option.bind_some, child?, hi, hget, Option.bind_none]
    | _ => rfl

theorem follow?_append (v : Value) (p q : Path) :
    v.follow? (p ++ q) = (v.follow? p).bind (·.follow? q) := by
  induction p generalizing v with
  | nil => rfl
  | cons segment rest ih =>
    rw [List.cons_append, follow?, follow?]
    cases v.child? segment with
    | none => rfl
    | some child => exact ih child

/-- What is written at a path is found there. -/
theorem follow?_write (target : Option Value) (p : Path) (value : Value) :
    (write target p value).follow? p = some value := by
  induction p generalizing target with
  | nil => rfl
  | cons segment rest ih =>
    rw [write_cons, follow?, child?_putChild]
    exact ih _

/-- Of two values written at one path the second counts. -/
theorem write_write (target : Option Value) (p : Path) (value value' : Value) :
    write (some (write target p value)) p value' = write target p value' := by
  induction p generalizing target with
  | nil => rfl
  | cons segment rest ih =>
    rw [write_cons target, write_cons, Option.bind_some, child?_putChild, ih, putChild_putChild,
      ← write_cons]

/-- Writing what is there changes nothing. -/
theorem write_follow? {v value : Value} {p : Path} (h : v.follow? p = some value) :
    write (some v) p value = v := by
  induction p generalizing v with
  | nil => exact (Option.some.inj h).symm
  | cons segment rest ih =>
    obtain ⟨child, hchild, hrest⟩ := Option.bind_eq_some_iff.mp h
    rw [write_cons, Option.bind_some, hchild, ih hrest, putChild_eq_self hchild]

/-! ### Documents -/

/-- What is written at a path is read back there and below, of two values written at a path the
second counts, and writing what is read changes nothing. -/
theorem set_lens (d : Value) (p : String) :
    (∀ v, (d.set p v).get? p = some v) ∧
    (∀ v q, (d.set p v).get? (p ++ "." ++ q) = v.get? q) ∧
    (∀ v w, (d.set p v).set p w = d.set p w) ∧
    ∀ v, d.get? p = some v → d.set p v = d := by
  refine ⟨fun v => follow?_write _ _ v, fun v q => ?_, fun v w => write_write _ _ v w,
    fun v h => write_follow? h⟩
  rw [get?, Path.ofString_append, follow?_append, set, follow?_write, Option.bind_some, get?]

/-- An array that is indexed with a leading zero and, past its end, becomes an object. -/
theorem set_lens_list :
    let d : Value := .obj [("list", .arr [.bool true, .null])]
    d.get? "list.01" = some .null ∧ d.set "list.01" .null = d ∧
      d.set "list.02" .null =
        .obj [("list", .obj [("0", .bool true), ("02", .null), ("1", .null)])] := by
  intro d
  have hread : d.get? "list.01" = some .null := by decide +kernel
  exact ⟨hread, (set_lens d "list.01").2.2.2 .null hread, by decide +kernel⟩

end Value

end ServerUi
