import ServerUi.Proofs.Document.Lens

/-!
# ServerUi.Proofs.Document.Frame — what a write leaves alone

Two paths diverge at the first segment where they differ.  The two segments there name different
children of every value, unless one of them is padded with zeros: `1` and `01` are one position of
an array and two keys of an object.  So a write at one path leaves alone what is read at the other
(`follow?_write_of_diverge`), and two writes may be made in either order (`write_comm`).  Both come
down to one step, that is to what a child put under a segment does to the others in an array, in an
object and in an array that becomes an object.
-/

namespace ServerUi

/-! ### Paths that diverge -/

namespace Path

/-- A decimal number with a zero in front that it does not need. -/
def IsPadded (segment : String) : Prop :=
  segment.toList.all Char.isDigit = true ∧ segment.toList.head? = some '0' ∧
    1 < segment.toList.length

instance (segment : String) : Decidable (IsPadded segment) :=
  inferInstanceAs (Decidable (_ ∧ _ ∧ _))

/-- Without padding every position has one segment. -/
theorem eq_toString_of_position? {segment : String} {length i : Nat} (hp : ¬IsPadded segment)
    (h : position? segment length = some i) : segment = toString i := by
  simp only [position?] at h
  split_ifs at h with hdigits hlt
  obtain ⟨hne, hall⟩ := hdigits
  have hvalue : Nat.ofDigitChars 10 segment.toList 0 = i := Option.some.inj h
  have hpad : segment.toList.head? = some '0' → segment.toList.length = 1 := by
    intro hzero
    have hlength : 0 < segment.toList.length := List.length_pos_of_ne_nil hne
    have hshort : ¬1 < segment.toList.length := fun hlong => hp ⟨hall, hzero, hlong⟩
    omega
  rw [← String.toList_inj, Decimal.toList_toString, ← hvalue,
    Decimal.toDigits_ofDigitChars hne (List.all_eq_true.mp hall) hpad]

/-- Two segments name two positions unless one of them is padded. -/
theorem position?_ne {a b : String} (hne : a ≠ b) (ha : ¬IsPadded a) (hb : ¬IsPadded b)
    {length i j : Nat} (hi : position? a length = some i) (hj : position? b length = some j) :
    i ≠ j := by
  rintro rfl
  exact hne ((eq_toString_of_position? ha hi).trans (eq_toString_of_position? hb hj).symm)

/-- Neither path leads to the other, and where they first differ neither segment is padded. -/
inductive Diverge : Path → Path → Prop
  | apart {a b : String} {p q : Path} (hne : a ≠ b) (ha : ¬IsPadded a) (hb : ¬IsPadded b) :
      Diverge (a :: p) (b :: q)
  | along (a : String) {p q : Path} (h : Diverge p q) : Diverge (a :: p) (a :: q)

/-- Paths diverge where they first differ, if neither segment is padded there. -/
theorem diverge_cons {a b : String} {p q : Path} :
    Diverge (a :: p) (b :: q) ↔ if a = b then Diverge p q else ¬IsPadded a ∧ ¬IsPadded b := by
  constructor
  · rintro (⟨hne, ha, hb⟩ | ⟨_, h⟩)
    · rw [if_neg hne]
      exact ⟨ha, hb⟩
    · rwa [if_pos rfl]
  · intro h
    split_ifs at h with heq
    · exact heq ▸ .along a h
    · exact .apart heq h.1 h.2

instance decidableDiverge : ∀ p q : Path, Decidable (Diverge p q)
  | [], _ => .isFalse nofun
  | _ :: _, [] => .isFalse nofun
  | _ :: p, _ :: q =>
    have := decidableDiverge p q
    decidable_of_iff _ diverge_cons.symm

end Path

namespace Value

open ServerUi.Path

/-! ### One step -/

/-- An array that becomes an object keeps its items under their positions. -/
theorem get?_keyedByIndex {items : List Value} {segment : String} (hp : ¬IsPadded segment) :
    Dict.get? segment (keyedByIndex items) = (Value.arr items).child? segment := by
  cases hi : position? segment items.length with
  | none => rw [get?_keyedByIndex_of_position?_eq_none hi, child?, hi, Option.bind_none]
  | some i =>
    have hlt : i < items.length := position?_lt hi
    have hitem : items[i]? = some items[i] := List.getElem?_eq_getElem hlt
    rw [child?, hi, Option.bind_some, hitem]
    exact get?_keyedByIndex_eq_some_iff.mpr ⟨i, hitem, eq_toString_of_position? hp hi⟩

/-- The members a value turns into are its children. -/
theorem get?_membersOf (target : Option Value) {segment : String} (hp : ¬IsPadded segment) :
    Dict.get? segment (membersOf target) = target.bind (·.child? segment) := by
  rcases target with _ | v
  · rfl
  · cases v with
    | arr items => exact get?_keyedByIndex hp
    | _ => rfl

/-- A child put under one segment leaves the children under others where they are. -/
theorem child?_putChild_of_ne {a b : String} (hne : a ≠ b) (ha : ¬IsPadded a) (hb : ¬IsPadded b)
    (target : Option Value) (child : Value) :
    (putChild target a child).child? b = target.bind (·.child? b) := by
  obtain ⟨items, i, rfl, hi, hput⟩ | hput := putChild_cases target a
  · rw [hput, child?, List.length_set, Option.bind_some, child?]
    cases hj : position? b items.length with
    | none => rfl
    | some j =>
      have hij : i ≠ j := position?_ne hne ha hb hi hj
      rw [Option.bind_some, Option.bind_some, List.getElem?_set_ne hij]
  · rw [hput, child?, Dict.get?_insert, if_neg hne.symm, get?_membersOf target hb]

/-- Changing an item and turning the array into an object may be done in either order. -/
theorem keyedByIndex_set {items : List Value} {i : Nat} (hi : i < items.length) (child : Value) :
    keyedByIndex (items.set i child) = Dict.insert (toString i) child (keyedByIndex items) := by
  have hordered : Dict.Ordered (keyedByIndex items) := Dict.ordered_ofList _
  -- maps in key order are equal if they answer alike
  refine (Dict.ordered_ofList _).ext (hordered.insert _ _) fun key => ?_
  ext v
  rw [Dict.get?_insert, ← keyedByIndex, get?_keyedByIndex_eq_some_iff]
  by_cases hkey : key = toString i
  · rw [if_pos hkey]
    constructor
    · rintro ⟨j, hitem, hj⟩
      obtain rfl : i = j := Decimal.toString_injective (hkey.symm.trans hj)
      rwa [List.getElem?_set_self hi] at hitem
    · intro hv
      exact ⟨i, by rw [List.getElem?_set_self hi, hv], hkey⟩
  · rw [if_neg hkey, get?_keyedByIndex_eq_some_iff]
    refine exists_congr fun j => and_congr_left fun hj => ?_
    have hij : i ≠ j := fun e => hkey (hj.trans (congrArg toString e.symm))
    rw [List.getElem?_set_ne hij]

/-- A segment that is no position turns an array into an object. -/
theorem putChild_arr_of_none {items : List Value} {segment : String}
    (hi : position? segment items.length = none) (child : Value) :
    putChild (some (.arr items)) segment child =
      .obj (Dict.insert segment child (keyedByIndex items)) := by
  simp only [putChild, hi, membersOf]

theorem putChild_obj (members : Members) (segment : String) (child : Value) :
    putChild (some (.obj members)) segment child = .obj (Dict.insert segment child members) := rfl

/-- An item is changed in an array and as a member of the object that the array becomes. -/
theorem putChild_comm_item {a b : String} (hne : a ≠ b) (ha : ¬IsPadded a) {items : List Value}
    {i : Nat} (hi : position? a items.length = some i) (hj : position? b items.length = none)
    (x y : Value) :
    putChild (some (putChild (some (.arr items)) a x)) b y =
      putChild (some (putChild (some (.arr items)) b y)) a x := by
  have hj' : position? b (items.set i x).length = none := by rwa [List.length_set]
  rw [putChild_arr hi, putChild_arr_of_none hj', putChild_arr_of_none hj, putChild_obj,
    keyedByIndex_set (position?_lt hi), ← eq_toString_of_position? ha hi,
    Dict.insert_comm hne.symm]

/-- Children put under different segments may be put in any order. -/
theorem putChild_comm {a b : String} (hne : a ≠ b) (ha : ¬IsPadded a) (hb : ¬IsPadded b)
    (target : Option Value) (x y : Value) :
    putChild (some (putChild target a x)) b y = putChild (some (putChild target b y)) a x := by
  -- all but arrays become objects, and so does an array if neither segment is a position
  have hobj (members : Members) :
      putChild (some (.obj (Dict.insert a x members))) b y =
        putChild (some (.obj (Dict.insert b y members))) a x := by
    rw [putChild_obj, putChild_obj, Dict.insert_comm hne.symm]
  rcases target with _ | v
  · exact hobj []
  · cases v with
    | arr items =>
      cases hi : position? a items.length with
      | some i =>
        cases hj : position? b items.length with
        | some j =>
          have hij : i ≠ j := position?_ne hne ha hb hi hj
          rw [putChild_arr hi, putChild_arr hj, putChild_arr (by rwa [List.length_set]),
            putChild_arr (by rwa [List.length_set]), List.set_comm x y hij]
        | none => exact putChild_comm_item hne ha hi hj x y
      | none =>
        cases hj : position? b items.length with
        | some j => exact (putChild_comm_item hne.symm hb hj hi y x).symm
        | none =>
          rw [putChild_arr_of_none hi, putChild_arr_of_none hj]
          exact hobj (keyedByIndex items)
    | obj members => exact hobj members
    | _ => exact hobj []

/-! ### Paths -/

/-- A write leaves what stands at every path that diverges. -/
theorem follow?_write_of_diverge {p q : Path} (h : p.Diverge q) (target : Option Value)
    (value : Value) : (write target p value).follow? q = target.bind (·.follow? q) := by
  induction h generalizing target with
  | apart hne ha hb =>
    rw [write_cons, follow?, child?_putChild_of_ne hne ha hb, Option.bind_assoc]
    rfl
  | along a _ ih =>
    rw [write_cons, follow?, child?_putChild, Option.bind_some, ih, Option.bind_assoc]
    rfl

/-- Writes at paths that diverge may be made in either order. -/
theorem write_comm {p q : Path} (h : p.Diverge q) (target : Option Value) (v w : Value) :
    write (some (write target p v)) q w = write (some (write target q w)) p v := by
  induction h generalizing target with
  | apart hne ha hb =>
    rw [write_cons, write_cons target, write_cons (some _), write_cons target, Option.bind_some,
      Option.bind_some, child?_putChild_of_ne hne ha hb, child?_putChild_of_ne hne.symm hb ha,
      putChild_comm hne ha hb]
  | along a _ ih =>
    rw [write_cons target, write_cons, write_cons target, write_cons (some _), Option.bind_some,
      Option.bind_some, child?_putChild, child?_putChild, ih, putChild_putChild, putChild_putChild]

/-- What a write makes of a value on its way. -/
theorem follow?_write_append (target : Option Value) (p q : Path) (value : Value) :
    (write target (p ++ q) value).follow? p = some (write (target.bind (·.follow? p)) q value) := by
  induction p generalizing target with
  | nil => cases target <;> rfl
  | cons segment rest ih =>
    rw [List.cons_append, write_cons, follow?, child?_putChild, Option.bind_some, ih,
      Option.bind_assoc]
    rfl

/-! ### Documents -/

/-- A write leaves alone what is read, or is not there, at paths that diverge from its own.  An
array that it turns into an object keeps its items, each under its position, and holds nothing else
but what is written. -/
theorem set_frame (d : Value) (p : String) (v : Value) :
    (∀ q, (Path.ofString p).Diverge (Path.ofString q) → (d.set p v).get? q = d.get? q) ∧
    ∀ parent segment rest items, Path.ofString p = parent ++ segment :: rest →
      d.follow? parent = some (.arr items) → position? segment items.length = none →
        ∃ members, (d.set p v).follow? parent = some (.obj members) ∧
          ∀ key item, key ≠ segment →
            (Dict.get? key members = some item ↔
              ∃ i : Nat, items[i]? = some item ∧ key = toString i) := by
  refine ⟨fun q h => follow?_write_of_diverge h (some d) v, ?_⟩
  intro parent segment rest items hp hparent hnone
  have hwritten := follow?_write_append (some d) parent (segment :: rest) v
  rw [Option.bind_some, hparent, write_cons, putChild_arr_of_none hnone, ← hp] at hwritten
  refine ⟨_, hwritten, fun key item hkey => ?_⟩
  rw [Dict.get?_insert, if_neg hkey, get?_keyedByIndex_eq_some_iff]

/-- A list of two that is written past its end. -/
theorem set_frame_list :
    let d : Value := .obj [("list", .arr [.bool true, .null])]
    (Path.ofString "list.2.id").Diverge (Path.ofString "list.1") ∧
      (d.set "list.2.id" (.bool false)).get? "list.1" = some .null ∧
      ∃ members, (d.set "list.2.id" (.bool false)).follow? ["list"] = some (.obj members) ∧
        Dict.get? "0" members = some (.bool true) ∧ Dict.get? "3" members = none := by
  intro d
  have hdiverge : (Path.ofString "list.2.id").Diverge (Path.ofString "list.1") := by decide +kernel
  obtain ⟨hframe, hitems⟩ := set_frame d "list.2.id" (.bool false)
  obtain ⟨members, hmembers, hkept⟩ := hitems ["list"] "2" ["id"] [.bool true, .null]
    (by decide +kernel) (by decide +kernel) (by decide +kernel)
  refine ⟨hdiverge, hframe "list.1" hdiverge, members, hmembers, ?_, ?_⟩
  · exact (hkept "0" _ (by decide)).mpr ⟨0, rfl, rfl⟩
  · rw [Option.eq_none_iff_forall_ne_some]
    intro item h
    obtain ⟨i, hitem, hi⟩ := (hkept "3" item (by decide)).mp h
    obtain rfl : 3 = i := Decimal.toString_injective hi
    cases hitem

end Value

end ServerUi
