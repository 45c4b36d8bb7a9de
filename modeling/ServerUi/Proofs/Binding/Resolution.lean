import ServerUi.Binding.ValueTemplate
import ServerUi.Proofs.Binding.Lossless

/-!
# ServerUi.Proofs.Binding.Resolution — values resolved without templates

`Value.resolve` takes the bindings of a value from a document in one pass over the value, with
nothing made ready beforehand.  A template keeps every part without bindings as it stands; that
changes nothing, as such a part resolves to itself, and it is kept just when no string in it has a
token (`ValueTemplate.fill_eq_resolve`).
-/

namespace ServerUi

/-- The value with every binding taken from a document: a string that is one binding becomes the
value at its path, another string is filled as text, an item without a value is `null` and a member
without one is left out. -/
def Value.resolve (v document : Value) : Option Value :=
  match v with
  | .str s =>
    match Template.ofString s with
    | [.binding path] => document.get? path
    | segments => some (.str (segments.fill document))
  | .arr items => some (.arr (items.map fun item => (item.resolve document).getD .null))
  | .obj members =>
    some (.obj (members.filterMap fun m => (m.2.resolve document).map (m.1, ·)))
  | scalar => some scalar
termination_by v
decreasing_by
  · have hlt := List.sizeOf_lt_of_mem ‹item ∈ items›
    rw [arr.sizeOf_spec]
    omega
  · have hlt := List.sizeOf_lt_of_mem ‹m ∈ members›
    cases m
    rw [Prod.mk.sizeOf_spec] at hlt
    rw [obj.sizeOf_spec]
    dsimp only
    omega

/-- A string that is the value or one of the values in it.  The names of members are none. -/
inductive Value.HasText (text : String) : Value → Prop
  | here : HasText text (.str text)
  | item {items : List Value} {v : Value} (hmem : v ∈ items) (h : HasText text v) :
      HasText text (.arr items)
  | member {members : Members} {m : String × Value} (hmem : m ∈ members) (h : HasText text m.2) :
      HasText text (.obj members)

/-- To show something of every value it is enough to show it of an array from its items and of an
object from the values of its members. -/
theorem Value.induction {motive : Value → Prop} (null : motive .null)
    (bool : ∀ b, motive (.bool b)) (num : ∀ n, motive (.num n)) (str : ∀ s, motive (.str s))
    (arr : ∀ items, (∀ v ∈ items, motive v) → motive (.arr items))
    (obj : ∀ members : Members, (∀ m ∈ members, motive m.2) → motive (.obj members)) (v : Value) :
    motive v := by
  induction v using resolve.induct with
  | case1 s | case2 s => exact str s
  | case3 items ih => exact arr items ih
  | case4 members ih => exact obj members ih
  | case5 v hstr harr hobj =>
    cases v with
    | null => exact null
    | bool b => exact bool b
    | num n => exact num n
    | str s => exact absurd rfl (hstr s)
    | arr items => exact absurd rfl (harr items)
    | obj members => exact absurd rfl (hobj members)

/-! ### Text of the document -/

namespace Template

/-- A template is one whole binding exactly if it is made of that binding and nothing else. -/
theorem soleBinding?_eq_some_iff {t : Template} {path : String} :
    t.soleBinding? = some path ↔ t = [.binding path] := by
  constructor
  · intro h
    unfold soleBinding? at h
    split at h
    · obtain rfl := Option.some.inj h
      rfl
    · cases h
  · rintro rfl
    rfl

theorem fill_append (t t' : Template) (document : Value) :
    (t ++ t').fill document = t.fill document ++ t'.fill document := by
  rw [fill, fill, fill, List.map_append, String.join_append]

end Template

/-- A string of the document stands in a text as it is. -/
theorem Segment.fill_of_get?_str {document : Value} {path text : String}
    (h : document.get? path = some (.str text)) : Segment.fill document (.binding path) = text := by
  rw [fill, h]
  rfl

namespace ValueTemplate

/-! ### Lists of templates -/

theorem ofItems_eq_map (items : List Value) : ofItems items = items.map ofValue := by
  induction items with
  | nil => rfl
  | cons v rest ih => rw [ofItems, ih, List.map_cons]

theorem ofMembers_eq_map (members : Members) :
    ofMembers members = members.map fun m => (m.1, ofValue m.2) := by
  induction members with
  | nil => rfl
  | cons m rest ih => rw [ofMembers, ih, List.map_cons]

/-- An item that is undefined becomes `null`. -/
theorem fillItems_eq_map (document : Value) (ts : List ValueTemplate) :
    fillItems document ts = ts.map fun t => (t.fill document).getD .null := by
  induction ts with
  | nil => rfl
  | cons t rest ih => rw [fillItems, ih, List.map_cons]

/-- A member that is undefined is left out. -/
theorem fillMembers_eq_filterMap (document : Value) (ts : MemberTemplates) :
    fillMembers document ts = ts.filterMap fun m => (m.2.fill document).map (m.1, ·) := by
  induction ts with
  | nil => rfl
  | cons m rest ih => cases h : m.2.fill document <;> simp [fillMembers, ih, h]

theorem pathsOfItems_eq_flatMap (ts : List ValueTemplate) : pathsOfItems ts = ts.flatMap paths := by
  induction ts with
  | nil => rfl
  | cons t rest ih => rw [pathsOfItems, ih, List.flatMap_cons]

theorem pathsOfMembers_eq_flatMap (ts : MemberTemplates) :
    pathsOfMembers ts = ts.flatMap fun m => m.2.paths := by
  induction ts with
  | nil => rfl
  | cons m rest ih => rw [pathsOfMembers, ih, List.flatMap_cons]

/-! ### Templates of values -/

/-- A string is fixed, one whole binding, or text with bindings in it. -/
theorem ofValue_str (s : String) :
    (Template.ofString s).isBound = false ∧ ofValue (.str s) = fixed (.str s) ∨
      (∃ path, Template.ofString s = [.binding path] ∧ ofValue (.str s) = bound path) ∨
      (Template.ofString s).isBound = true ∧ (∀ path, Template.ofString s ≠ [.binding path]) ∧
        ofValue (.str s) = text (Template.ofString s) := by
  rw [ofValue, ofString]
  cases hsole : (Template.ofString s).soleBinding? with
  | some path => exact .inr (.inl ⟨path, Template.soleBinding?_eq_some_iff.mp hsole, rfl⟩)
  | none =>
    cases hbound : (Template.ofString s).isBound with
    | false => exact .inl ⟨rfl, rfl⟩
    | true =>
      refine .inr (.inr ⟨rfl, fun path heq => ?_, rfl⟩)
      cases hsole.symm.trans (Template.soleBinding?_eq_some_iff.mpr heq)

/-- An array is fixed if all of its items are. -/
theorem ofValue_arr (items : List Value) :
    ofValue (.arr items) =
      if ∀ v ∈ items, (ofValue v).isFixed = true then fixed (.arr items)
      else array (items.map ofValue) := by
  rw [ofValue, ofItems_eq_map, List.all_map]
  simp only [List.all_eq_true, Function.comp_apply]

theorem ofValue_obj (members : Members) :
    ofValue (.obj members) =
      if ∀ m ∈ members, (ofValue m.2).isFixed = true then fixed (.obj members)
      else object (members.map fun m => (m.1, ofValue m.2)) := by
  rw [ofValue, ofMembers_eq_map, List.all_map]
  simp only [List.all_eq_true, Function.comp_apply]

/-! ### Fixed templates -/

theorem isFixed_str {s : String} :
    (ofValue (.str s)).isFixed = true ↔ (Template.ofString s).isBound = false := by
  obtain ⟨hbound, hs⟩ | ⟨path, hsole, hs⟩ | ⟨hbound, -, hs⟩ := ofValue_str s
  · rw [hs, hbound]
    exact iff_of_true rfl rfl
  · rw [hs, hsole]
    exact iff_of_false nofun nofun
  · rw [hs, hbound]
    exact iff_of_false nofun nofun

theorem isFixed_arr {items : List Value} :
    (ofValue (.arr items)).isFixed = true ↔ ∀ v ∈ items, (ofValue v).isFixed = true := by
  rw [ofValue_arr]
  split_ifs with h
  · exact iff_of_true rfl h
  · exact iff_of_false nofun h

theorem isFixed_obj {members : Members} :
    (ofValue (.obj members)).isFixed = true ↔ ∀ m ∈ members, (ofValue m.2).isFixed = true := by
  rw [ofValue_obj]
  split_ifs with h
  · exact iff_of_true rfl h
  · exact iff_of_false nofun h

/-- A fixed template holds the value it was made of. -/
theorem eq_fixed_of_isFixed {v : Value} (h : (ofValue v).isFixed = true) :
    ofValue v = fixed v := by
  cases v with
  | str s =>
    obtain ⟨-, hs⟩ | ⟨path, -, hs⟩ | ⟨-, -, hs⟩ := ofValue_str s
    · exact hs
    · rw [hs] at h
      cases h
    · rw [hs] at h
      cases h
  | arr items => rw [ofValue_arr, if_pos (isFixed_arr.mp h)]
  | obj members => rw [ofValue_obj, if_pos (isFixed_obj.mp h)]
  | _ => rfl

/-- A fixed template gives its value back for every document. -/
theorem fill_of_isFixed {v : Value} (h : (ofValue v).isFixed = true) (document : Value) :
    (ofValue v).fill document = some v := by
  rw [eq_fixed_of_isFixed h, fill]

theorem paths_of_isFixed {v : Value} (h : (ofValue v).isFixed = true) : (ofValue v).paths = [] := by
  rw [eq_fixed_of_isFixed h, paths]

/-- A template is fixed if no string in its value has a token. -/
theorem isFixed_ofValue_iff (v : Value) :
    (ofValue v).isFixed = true ↔
      ∀ text, v.HasText text → Template.NoToken text.toList [] := by
  induction v using Value.induction with
  | null | bool | num => exact iff_of_true rfl nofun
  | str s =>
    rw [isFixed_str, Template.isBound_eq_false_iff]
    constructor
    · rintro h _ ⟨⟩
      exact h
    · exact fun h => h s .here
  | arr items ih =>
    rw [isFixed_arr]
    constructor
    · rintro h text (_ | ⟨hmem, hv⟩)
      exact (ih _ hmem).mp (h _ hmem) text hv
    · exact fun h v hv => (ih v hv).mpr fun text htext => h text (.item hv htext)
  | obj members ih =>
    rw [isFixed_obj]
    constructor
    · rintro h text (_ | _ | ⟨hmem, hm⟩)
      exact (ih _ hmem).mp (h _ hmem) text hm
    · exact fun h m hm => (ih m hm).mpr fun text htext => h text (.member hm htext)

/-- A template that is not fixed reads the document. -/
theorem isFixed_iff_paths (v : Value) : (ofValue v).isFixed = true ↔ (ofValue v).paths = [] := by
  refine ⟨paths_of_isFixed, ?_⟩
  induction v using Value.induction with
  | null | bool | num => exact fun _ => rfl
  | str s =>
    intro hpaths
    obtain ⟨-, hs⟩ | ⟨path, -, hs⟩ | ⟨hbound, -, hs⟩ := ofValue_str s
    · rw [hs]
      rfl
    · rw [hs, paths] at hpaths
      cases hpaths
    · rw [hs, paths] at hpaths
      rw [Template.isBound, hpaths] at hbound
      cases hbound
  | arr items ih =>
    intro hpaths
    rw [isFixed_arr]
    rw [ofValue_arr] at hpaths
    -- an array that was not found to be fixed refers to the paths of its items
    split_ifs at hpaths with hfixed
    · exact hfixed
    · rw [paths, pathsOfItems_eq_flatMap, List.flatMap_map, List.flatMap_eq_nil_iff] at hpaths
      exact fun v hv => ih v hv (hpaths v hv)
  | obj members ih =>
    intro hpaths
    rw [isFixed_obj]
    rw [ofValue_obj] at hpaths
    split_ifs at hpaths with hfixed
    · exact hfixed
    · rw [paths, pathsOfMembers_eq_flatMap, List.flatMap_map, List.flatMap_eq_nil_iff] at hpaths
      exact fun m hm => ih m hm (hpaths m hm)

/-! ### Filling -/

theorem fill_str (s : String) (document : Value) :
    (ofValue (.str s)).fill document = (Value.str s).resolve document := by
  rw [Value.resolve]
  obtain ⟨hbound, hs⟩ | ⟨path, hsole, hs⟩ | ⟨-, hsole, hs⟩ := ofValue_str s <;> rw [hs, fill]
  · split
    · rename_i h
      rw [h] at hbound
      cases hbound
    · rw [Template.fill_ofString_of_not_isBound hbound]
  · rw [hsole]
  · split
    · rename_i h
      exact absurd h (hsole _)
    · rfl

/-- An array is filled item by item, whether or not it was found to be fixed. -/
theorem fill_arr (items : List Value) (document : Value) :
    (ofValue (.arr items)).fill document =
      some (.arr (items.map fun v => ((ofValue v).fill document).getD .null)) := by
  rw [ofValue_arr]
  split_ifs with hfixed
  · have hself : items.map (fun v => ((ofValue v).fill document).getD .null) = items :=
      (List.map_congr_left fun v hv => by
        rw [fill_of_isFixed (hfixed v hv), Option.getD_some, id_eq]).trans (List.map_id items)
    rw [fill, hself]
  · rw [fill, fillItems_eq_map, List.map_map]
    rfl

theorem fill_obj (members : Members) (document : Value) :
    (ofValue (.obj members)).fill document =
      some (.obj (members.filterMap fun m => ((ofValue m.2).fill document).map (m.1, ·))) := by
  rw [ofValue_obj]
  split_ifs with hfixed
  · have hself : members.filterMap (fun m => ((ofValue m.2).fill document).map (m.1, ·)) =
        members :=
      (List.filterMap_congr fun m hm => by
        rw [fill_of_isFixed (hfixed m hm), Option.map_some]).trans List.filterMap_some
    rw [fill, hself]
  · rw [fill, fillMembers_eq_filterMap, List.filterMap_map]
    rfl

/-- Filling what was made ready of a value is resolving the value. -/
theorem fill_ofValue (v document : Value) : (ofValue v).fill document = v.resolve document := by
  induction v using Value.induction with
  | null | bool | num => rw [Value.resolve, ofValue, fill] <;> nofun
  | str s => exact fill_str s document
  | arr items ih =>
    rw [fill_arr, Value.resolve]
    congr 2
    exact List.map_congr_left fun v hv => by rw [ih v hv]
  | obj members ih =>
    rw [fill_obj, Value.resolve]
    congr 2
    exact List.filterMap_congr fun m hm => by rw [ih m hm]

end ValueTemplate

/-- Props are resolved one by one, and those that are undefined are left out. -/
theorem Members.fill_eq_filterMap (members : Members) (document : Value) :
    fill members document = members.filterMap fun m => (m.2.resolve document).map (m.1, ·) := by
  rw [fill, ValueTemplate.ofMembers_eq_map, ValueTemplate.fillMembers_eq_filterMap,
    List.filterMap_map]
  exact List.filterMap_congr fun m _ => by rw [Function.comp_apply, ValueTemplate.fill_ofValue]

/-- Filling the template of a value resolves the value, and filling the members of an object
resolves the object; a string of the document is put into a text as it is.  A template is fixed if
it reads nothing and if no string in its value has a token, and then it is filled with the value
itself. -/
theorem ValueTemplate.fill_eq_resolve (v : Value) :
    (∀ document, (ofValue v).fill document = v.resolve document) ∧
      (∀ members document, v = .obj members →
        v.resolve document = some (.obj (Members.fill members document))) ∧
      (∀ source path text document before after,
        Template.ofString source = before ++ .binding path :: after →
        document.get? path = some (.str text) →
        Template.fillString source document =
          Template.fill before document ++ text ++ Template.fill after document) ∧
      ((ofValue v).isFixed = true ↔ (ofValue v).paths = []) ∧
      ((ofValue v).paths = [] ↔ ∀ text, v.HasText text → Template.NoToken text.toList []) ∧
      ((ofValue v).isFixed = true → ∀ document, (ofValue v).fill document = some v) := by
  refine ⟨fill_ofValue v, ?_, ?_, isFixed_iff_paths v,
    (isFixed_iff_paths v).symm.trans (isFixed_ofValue_iff v), fill_of_isFixed⟩
  · rintro members document rfl
    rw [Value.resolve, Members.fill_eq_filterMap]
  · intro source path text document before after hsource htext
    have hbinding : Template.fill (.binding path :: after) document =
        text ++ Template.fill after document := by
      rw [Template.fill, List.map_cons, String.join_cons, Segment.fill_of_get?_str htext]
      rfl
    rw [Template.fillString, hsource, Template.fill_append, hbinding, String.append_assoc]

/-- A member and an item that are undefined, a text, and a part with no token but in a name. -/
def Value.greetings : Value :=
  .obj
    [("gone", .str "\x7b\x7b gone \x7d\x7d"),
      ("lines", .arr [.str "\x7b\x7b a \x7d\x7d", .str "Hi \x7b\x7b a \x7d\x7d!",
        .str "\x7b\x7b gone \x7d\x7d"]),
      ("plain", .obj [("\x7b\x7b a \x7d\x7d", .str "\x7b\x7b")])]

theorem ValueTemplate.fill_eq_resolve_greetings :
    let document := Value.obj [("a", .str "\x7b\x7b b \x7d\x7d"), ("b", .null)]
    let plain := Value.obj [("\x7b\x7b a \x7d\x7d", .str "\x7b\x7b")]
    Value.greetings.resolve document = some (.obj
        [("lines", .arr [.str "\x7b\x7b b \x7d\x7d", .str "Hi \x7b\x7b b \x7d\x7d!", .null]),
          ("plain", plain)]) ∧
      (ofValue Value.greetings).paths = ["gone", "a", "a", "gone"] ∧
      Template.fillString "Hi \x7b\x7b a \x7d\x7d!" document = "Hi \x7b\x7b b \x7d\x7d!" ∧
      (ofValue plain).fill document = some plain := by
  intro document plain
  obtain ⟨-, hmembers, htext, -⟩ := fill_eq_resolve Value.greetings
  obtain ⟨-, -, -, -, -, hplain⟩ := fill_eq_resolve plain
  refine ⟨?_, by decide +kernel, ?_, hplain (by decide +kernel) document⟩
  · rw [hmembers _ document rfl]
    decide +kernel
  · have hsource : Template.ofString "Hi \x7b\x7b a \x7d\x7d!" =
        [.literal "Hi "] ++ .binding "a" :: [.literal "!"] := by decide +kernel
    rw [htext _ "a" "\x7b\x7b b \x7d\x7d" document _ _ hsource (by decide +kernel)]
    decide +kernel

end ServerUi
