import ServerUi.Proofs.Document.Lens
import ServerUi.Proofs.Schema.Loaded
import ServerUi.Proofs.Schema.Record

/-!
# ServerUi.Proofs.Schema.Extension — members that belong to no field

`Part.at?` tells what stands at a path in a schema document: a record, the content of a node or its
handlers.  A part may be replaced by one that is read the same without a change to what the
document is read as (`Part.keeps_write`), and a record is read the same with a member more that is
none of its fields (`Part.keeps_insert`).  Metadata is the exception, since it keeps such members.
-/

namespace ServerUi

open Decode

/-! ### Parts of a document -/

/-- A part of a schema document: a record, the content of a node, or its handlers. -/
inductive Part where
  | record (r : Record)
  | content
  | handlers
  deriving DecidableEq

namespace Part

/-- What a part is read as. -/
def Meaning : Part → Type
  | record .node => Node
  | record .gate => Gate
  | record .action => Action
  | record .page => Page
  | record .metadata => Page.Metadata
  | content => Content
  | handlers => Handlers

/-- How the part is read. -/
def read : (p : Part) → Value → Decoded p.Meaning
  | record .node => Node.ofValue
  | record .gate => Gate.ofValue
  | record .action => Action.ofValue
  | record .page => Page.ofValue
  | record .metadata => Page.Metadata.ofValue
  | content => Content.ofValue
  | handlers => Handlers.ofValue

/-- The part that a field of a record holds, if records can stand in it. -/
def ofField : Record → String → Option Part
  | .node, "children" => some content
  | .node, "when" => some (record .gate)
  | .node, "on" => some handlers
  | .page, "root" => some (record .node)
  | .page, "meta" => some (record .metadata)
  | _, _ => none

/-- The part that a segment names: a field by its name or, of a record that is given as an array, by
its position. -/
def child? : Part → Value → String → Option Part
  | record r, .obj _, segment => ofField r segment
  | record r, .arr items, segment =>
    (Path.position? segment items.length).bind fun i => r.fields[i]?.bind (ofField r)
  | content, .arr _, _ => some (record .node)
  | handlers, .obj _, _ => some (record .action)
  | _, _, _ => none

/-- The part at the end of a path. -/
def at? (p : Part) (v : Value) : Path → Option Part
  | [] => some p
  | segment :: rest =>
    (p.child? v segment).bind fun q => (v.child? segment).bind fun w => q.at? w rest

theorem at?_cons_eq_some {p q : Part} {v : Value} {segment : String} {rest : Path} :
    p.at? v (segment :: rest) = some q ↔ ∃ q' w, p.child? v segment = some q' ∧
      v.child? segment = some w ∧ q'.at? w rest = some q := by
  simp only [at?, Option.bind_eq_some_iff, exists_and_left]

theorem ofField_eq_some {r : Record} {name : String} {q : Part} (h : ofField r name = some q) :
    name ∈ r.fields ∧ r ≠ .metadata := by
  unfold ofField at h
  split at h
  case h_6 => cases h
  all_goals exact ⟨by decide, by decide⟩

/-- What is read from a value is read from another too, and neither is an absent field. -/
structure Keeps (p : Part) (v v' : Value) : Prop where
  ne_null : v ≠ .null
  ne_null' : v' ≠ .null
  read : ∀ {a}, p.read v = .ok a → p.read v' = .ok a

end Part

/-! ### Records -/

namespace Record

/-- Every field that could hold no record is the same, and every other field is so or keeps what is
read from it. -/
def KeepsFields (r : Record) (ms ms' : Members) : Prop :=
  ∀ name ∈ r.fields, Dict.get? name ms' = Dict.get? name ms ∨
    ∃ q w w', Part.ofField r name = some q ∧ Dict.get? name ms = some w ∧
      Dict.get? name ms' = some w' ∧ q.Keeps w w'

namespace KeepsFields

variable {r : Record} {ms ms' : Members} (h : r.KeepsFields ms ms') {name : String}
include h

theorem get?_eq (hname : name ∈ r.fields) (hpart : Part.ofField r name = none) :
    Dict.get? name ms' = Dict.get? name ms := by
  obtain hsame | ⟨q, w, w', hq, -⟩ := h name hname
  · exact hsame
  · rw [hpart] at hq
    cases hq

/-- A field that may be `null` is read as before if it keeps its meaning. -/
theorem nullable {q : Part} (hq : Part.ofField r name = some q) {y : Option q.Meaning}
    (hy : nullable q.read (Dict.get? name ms) = .ok y) :
    nullable q.read (Dict.get? name ms') = .ok y := by
  obtain hsame | ⟨q', w, w', hq', hw, hw', hkeeps⟩ := h name (Part.ofField_eq_some hq).1
  · rw [hsame]
    exact hy
  · obtain rfl := Option.some.inj (hq.symm.trans hq')
    obtain ⟨hnone | hnull, -⟩ | ⟨v, a, hv, -, ha, rfl⟩ := nullable_eq_ok.mp hy
    · rw [hw] at hnone
      cases hnone
    · exact absurd (Option.some.inj (hw.symm.trans hnull)) hkeeps.ne_null
    · obtain rfl := Option.some.inj (hw.symm.trans hv)
      exact nullable_eq_ok.mpr (.inr ⟨w', a, hw', hkeeps.ne_null', hkeeps.read ha, rfl⟩)

theorem read {q : Part} (hq : Part.ofField r name = some q) {v : Value} {a : q.Meaning}
    (hv : Dict.get? name ms = some v) (ha : q.read v = .ok a) :
    ∃ v', Dict.get? name ms' = some v' ∧ q.read v' = .ok a := by
  obtain hsame | ⟨q', w, w', hq', hw, hw', hkeeps⟩ := h name (Part.ofField_eq_some hq).1
  · exact ⟨v, hsame.trans hv, ha⟩
  · obtain rfl := Option.some.inj (hq.symm.trans hq')
    obtain rfl := Option.some.inj (hw.symm.trans hv)
    exact ⟨w', hw', hkeeps.read ha⟩

end KeepsFields

variable {r : Record}

/-- A member that is no field leaves the fields as they are. -/
theorem keepsFields_insert {k : String} (hk : k ∉ r.fields) (x : Value) (ms : Members) :
    r.KeepsFields ms (Dict.insert k x ms) := by
  intro name hname
  have hne : name ≠ k := fun h => hk (h ▸ hname)
  exact .inl (by rw [Dict.get?_insert, if_neg hne])

/-- A field whose value keeps its meaning keeps the record. -/
theorem keepsFields_insert_part {segment : String} {q : Part} {w w' : Value} {ms : Members}
    (hq : Part.ofField r segment = some q) (hw : Dict.get? segment ms = some w)
    (hkeeps : q.Keeps w w') : r.KeepsFields ms (Dict.insert segment w' ms) := by
  intro name _
  by_cases hname : name = segment
  · subst hname
    exact .inr ⟨q, w, w', hq, hw, by rw [Dict.get?_insert, if_pos rfl], hkeeps⟩
  · exact .inl (by rw [Dict.get?_insert, if_neg hname])

/-- A member that is no field may be deleted on both sides. -/
theorem KeepsFields.erase {ms ms' : Members} (h : r.KeepsFields ms ms') {k : String}
    (hk : k ∉ r.fields) : r.KeepsFields (Dict.erase k ms) (Dict.erase k ms') := by
  intro name hname
  have hne : name ≠ k := fun h => hk (h ▸ hname)
  simp only [Dict.get?_erase, if_neg hne]
  exact h name hname

/-- A property of members that their fields decide passes from one value to another. -/
theorem exists_lists_imp {v v' : Value} {P : Members → Prop}
    (h : ∀ ms, r.Lists v ms → ∃ ms', r.Lists v' ms' ∧ r.KeepsFields ms ms')
    (hP : ∀ {ms ms'}, P ms → r.KeepsFields ms ms' → P ms') :
    (∃ ms, r.Lists v ms ∧ P ms) → ∃ ms', r.Lists v' ms' ∧ P ms' := by
  rintro ⟨ms, hl, hms⟩
  obtain ⟨ms', hl', hkeeps⟩ := h ms hl
  exact ⟨ms', hl', hP hms hkeeps⟩

end Record

section Transport

variable {ms ms' : Members}

/-- A gate is read from other members as before if they keep its fields. -/
theorem Gate.ReadFrom.transport {g : Gate} (hg : g.ReadFrom ms)
    (h : Record.gate.KeepsFields ms ms') : g.ReadFrom ms' where
  path := (h.get?_eq (by decide) rfl).trans hg.path
  operator := by
    rw [h.get?_eq (by decide) rfl]
    exact hg.operator
  value := hg.value.trans (h.get?_eq (by decide) rfl).symm

theorem Action.ReadFrom.transport {a : Action} (ha : a.ReadFrom ms)
    (h : Record.action.KeepsFields ms ms') : a.ReadFrom ms' where
  kind := by
    rw [h.get?_eq (by decide) rfl]
    exact ha.kind
  payload := by
    rw [h.get?_eq (by decide) rfl]
    exact ha.payload

/-- A node is read from other members as before if they keep its fields: a part keeps its meaning,
any other field its value. -/
theorem Node.ReadFrom.transport {n : Node} (hn : n.ReadFrom ms)
    (h : Record.node.KeepsFields ms ms') : n.ReadFrom ms' where
  component := (h.get?_eq (by decide) rfl).trans hn.component
  props := by
    rw [h.get?_eq (by decide) rfl]
    exact hn.props
  content := by
    -- content is read by a reader of its own, so the lemma on optional fields does not apply
    obtain hsame | ⟨q, w, w', hq, hw, hw', hkeeps⟩ := h "children" (by decide)
    · rw [hsame]
      exact hn.content
    · obtain rfl := Option.some.inj hq
      have hc := hn.content
      rw [hw] at hc
      rw [hw']
      exact hkeeps.read hc
  key := by
    rw [h.get?_eq (by decide) rfl]
    exact hn.key
  gate := h.nullable (q := .record .gate) rfl hn.gate
  handlers := h.nullable (q := .handlers) rfl hn.handlers

theorem Page.ReadFrom.transport {p : Page} (hp : p.ReadFrom ms)
    (h : Record.page.KeepsFields ms ms') : p.ReadFrom ms' where
  id := by
    rw [h.get?_eq (by decide) rfl]
    exact hp.id
  title := by
    rw [h.get?_eq (by decide) rfl]
    exact hp.title
  metadata := h.nullable (q := .record .metadata) rfl hp.metadata
  data := by
    rw [h.get?_eq (by decide) rfl]
    exact hp.data
  root := by
    obtain ⟨v, hv, hroot⟩ := hp.root
    exact h.read (q := .record .node) rfl hv hroot

end Transport

namespace Part

/-- What a record is read as is read from its members alone. -/
theorem read_of_keepsFields {r : Record} (hr : r ≠ .metadata) {v v' : Value}
    (h : ∀ ms, r.Lists v ms → ∃ ms', r.Lists v' ms' ∧ r.KeepsFields ms ms')
    {a : (record r).Meaning} (ha : (record r).read v = .ok a) : (record r).read v' = .ok a := by
  cases r with
  | node =>
    have hread := Record.exists_lists_imp h Node.ReadFrom.transport (Node.ofValue_eq_ok.mp ha)
    exact Node.ofValue_eq_ok.mpr hread
  | gate =>
    have hread := Record.exists_lists_imp h Gate.ReadFrom.transport (Gate.ofValue_eq_ok.mp ha)
    exact Gate.ofValue_eq_ok.mpr hread
  | action =>
    have hread := Record.exists_lists_imp h Action.ReadFrom.transport (Action.ofValue_eq_ok.mp ha)
    exact Action.ofValue_eq_ok.mpr hread
  | page =>
    have hread := Record.exists_lists_imp h Page.ReadFrom.transport (Page.ofValue_eq_ok.mp ha)
    exact Page.ofValue_eq_ok.mpr hread
  | metadata => exact absurd rfl hr

/-- A record is read the same with a member more that is none of its fields. -/
theorem keeps_insert {r : Record} (hr : r ≠ .metadata) {k : String} (hk : k ∉ r.fields)
    (x : Value) (ms : Members) : (record r).Keeps (.obj ms) (.obj (Dict.insert k x ms)) := by
  refine ⟨by simp, by simp, fun ha => read_of_keepsFields hr (fun ms' hl => ?_) ha⟩
  cases hl with
  | object => exact ⟨_, .object _, Record.keepsFields_insert hk x ms⟩

/-! ### One step -/

/-- A change to a part of a record is a change to one of its members. -/
theorem lists_putChild {r : Record} {v w w' : Value} {segment : String} {q : Part}
    (hq : (record r).child? v segment = some q) (hw : v.child? segment = some w)
    (hkeeps : q.Keeps w w') {ms : Members} (hl : r.Lists v ms) :
    ∃ ms', r.Lists (Value.putChild (some v) segment w') ms' ∧ r.KeepsFields ms ms' := by
  cases hl with
  | object => exact ⟨_, .object _, Record.keepsFields_insert_part hq hw hkeeps⟩
  | @array items hlength =>
    obtain ⟨i, hi, hfield⟩ := Option.bind_eq_some_iff.mp hq
    obtain ⟨name, hname, hpart⟩ := Option.bind_eq_some_iff.mp hfield
    have hitem : items[i]? = some w := by
      simpa only [Value.child?, hi, Option.bind_some] using hw
    rw [Value.putChild_arr hi]
    refine ⟨_, .array (by rwa [List.length_set]), fun other hother => ?_⟩
    obtain ⟨j, hj⟩ := List.getElem?_of_mem hother
    -- only the field that the position stands for sees the new item
    rw [r.get?_zip _ hj, r.get?_zip _ hj]
    by_cases hij : i = j
    · subst hij
      obtain rfl := Option.some.inj (hname.symm.trans hj)
      refine .inr ⟨q, w, w', hpart, hitem, ?_, hkeeps⟩
      exact List.getElem?_set_self (Path.position?_lt hi)
    · exact .inl (List.getElem?_set_ne hij)

/-- A related list stays related when an item is replaced by one with the same relatives. -/
theorem forall₂_set {α β : Type} {R : α → β → Prop} {as : List α} {bs : List β}
    (h : List.Forall₂ R as bs) {i : Nat} {a a' : α} (ha : as[i]? = some a)
    (ha' : ∀ b, R a b → R a' b) : List.Forall₂ R (as.set i a') bs := by
  induction h generalizing i with
  | nil => exact .nil
  | cons hr hrest ih =>
    cases i with
    | zero =>
      obtain rfl := Option.some.inj ha
      exact .cons (ha' _ hr) hrest
    | succ i => exact .cons hr (ih ha)

theorem forall₂_overwrite {α : Type} {R : String × Value → α → Prop} {ms : Members} {bs : List α}
    (h : List.Forall₂ R ms bs) {k : String} {w w' : Value} (hw : Dict.get? k ms = some w)
    (hw' : ∀ b, R (k, w) b → R (k, w') b) : List.Forall₂ R (Dict.overwrite k w' ms) bs := by
  induction h with
  | nil => exact .nil
  | @cons p b ms bs hr hrest ih =>
    obtain ⟨l, v⟩ := p
    rw [Dict.get?_cons] at hw
    by_cases hk : k = l
    · subst hk
      obtain rfl := Option.some.inj ((if_pos rfl).symm.trans hw)
      rw [Dict.overwrite, if_pos rfl]
      exact .cons (hw' b hr) hrest
    · rw [if_neg hk] at hw
      rw [Dict.overwrite, if_neg hk]
      exact .cons hr (ih hw)

theorem content_keeps_putChild {items : List Value} {w w' : Value} {segment : String}
    (hw : (Value.arr items).child? segment = some w) (hkeeps : (record .node).Keeps w w') :
    content.Keeps (.arr items) (Value.putChild (some (.arr items)) segment w') := by
  obtain ⟨i, hi, hitem⟩ := Option.bind_eq_some_iff.mp hw
  rw [Value.putChild_arr hi]
  refine ⟨by simp, by simp, fun ha => ?_⟩
  obtain ⟨hv, -⟩ | ⟨_, hv, -⟩ | ⟨_, nodes, hv, hn, rfl⟩ := Content.ofValue_eq_ok.mp ha
  · cases hv
  · cases hv
  · obtain rfl := Value.arr.inj hv
    have hset := forall₂_set (nodesOfValues_eq_ok.mp hn) hitem fun _ => hkeeps.read
    exact Content.ofValue_eq_ok.mpr (.inr (.inr ⟨_, nodes, rfl, nodesOfValues_eq_ok.mpr hset, rfl⟩))

theorem handlers_keeps_putChild {ms : Members} {w w' : Value} {segment : String}
    (hw : (Value.obj ms).child? segment = some w) (hkeeps : (record .action).Keeps w w') :
    handlers.Keeps (.obj ms) (Value.putChild (some (.obj ms)) segment w') := by
  replace hw : Dict.get? segment ms = some w := hw
  have hput : Value.putChild (some (.obj ms)) segment w' = .obj (Dict.overwrite segment w' ms) := by
    have hc : Dict.contains segment ms = true := by simp [Dict.contains, hw]
    simp only [Value.putChild, Value.membersOf, Dict.insert, hc, if_true]
  rw [hput]
  refine ⟨by simp, by simp, fun ha => ?_⟩
  obtain ⟨entries, rfl, he⟩ := Handlers.ofMembers_eq_ok.mp ha
  have hset : List.Forall₂ _ (Dict.overwrite segment w' ms) entries :=
    forall₂_overwrite he hw fun _ hentry => ⟨hentry.1, hkeeps.read hentry.2⟩
  exact Handlers.ofMembers_eq_ok.mpr ⟨entries, rfl, hset⟩

/-- A part keeps what is read from it if a part of it does. -/
theorem keeps_putChild {p q : Part} {v w w' : Value} {segment : String}
    (hq : p.child? v segment = some q) (hw : v.child? segment = some w) (hkeeps : q.Keeps w w') :
    p.Keeps v (Value.putChild (some v) segment w') := by
  cases p with
  | record r =>
    -- metadata has no parts to write to
    have hr : r ≠ .metadata := by
      rintro rfl
      cases v with
      | obj ms =>
        have hpart : ofField .metadata segment = some q := hq
        exact (ofField_eq_some hpart).2 rfl
      | arr items =>
        obtain ⟨i, -, hfield⟩ := Option.bind_eq_some_iff.mp hq
        obtain ⟨name, -, hpart⟩ := Option.bind_eq_some_iff.mp hfield
        exact (ofField_eq_some hpart).2 rfl
      | _ => cases hq
    refine ⟨?_, ?_, read_of_keepsFields hr fun ms => lists_putChild hq hw hkeeps⟩
    · rintro rfl
      cases hw
    · obtain ⟨_, _, -, -, hput⟩ | hput := Value.putChild_cases (some v) segment
      · simp [hput]
      · simp [hput]
  | content =>
    cases v with
    | arr items =>
      obtain rfl := Option.some.inj hq
      exact content_keeps_putChild hw hkeeps
    | _ => cases hq
  | handlers =>
    cases v with
    | obj ms =>
      obtain rfl := Option.some.inj hq
      exact handlers_keeps_putChild hw hkeeps
    | _ => cases hq

/-! ### Paths -/

/-- What a write keeps of a part at a path it keeps of the whole. -/
theorem keeps_write {w w' : Value} : ∀ {path : Path} {p q : Part} {v : Value},
    p.at? v path = some q → v.follow? path = some w → q.Keeps w w' →
      p.Keeps v (Value.write (some v) path w')
  | [], p, q, v, hq, hw, hkeeps => by
    obtain rfl := Option.some.inj hq
    obtain rfl := Option.some.inj hw
    exact hkeeps
  | segment :: rest, p, q, v, hq, hw, hkeeps => by
    obtain ⟨q', child, hpart, hchild, hrest⟩ := at?_cons_eq_some.mp hq
    rw [Value.follow?, hchild, Option.bind_some] at hw
    rw [Value.write_cons, Option.bind_some, hchild]
    exact keeps_putChild hpart hchild (keeps_write hrest hw hkeeps)

end Part

/-! ### Metadata -/

namespace Page.Metadata

/-- Metadata keeps a member it does not know, and changes by nothing else. -/
theorem ofValue_insert {ms : Members} {m : Page.Metadata} (h : ofValue (.obj ms) = .ok m)
    {k : String} (hk : k ∉ Record.metadata.fields) (x : Value) :
    ∃ extra, ofValue (.obj (Dict.insert k x ms)) = .ok { m with extra } ∧
      (∀ name, Dict.get? name extra = if name = k then some x else Dict.get? name m.extra) ∧
      ((Value.obj ms).Ordered → extra = Dict.insert k x m.extra) := by
  obtain ⟨_, hms, hdescription, hkeywords, hextra⟩ := ofValue_eq_ok.mp h
  obtain rfl := Value.obj.inj hms
  obtain ⟨hkd, hkk⟩ : k ≠ "description" ∧ k ≠ "keywords" := by simpa [Record.fields] using hk
  have hget : ∀ name, Dict.get? name (Dict.erase "keywords" (Dict.erase "description"
      (Dict.insert k x ms))) = if name = k then some x else Dict.get? name m.extra := by
    intro name
    simp only [hextra, Dict.get?_erase, Dict.get?_insert]
    by_cases hname : name = k
    · subst hname
      simp [hkd, hkk]
    · simp [hname]
  refine ⟨_, ofValue_eq_ok.mpr ⟨_, rfl, ?_, ?_, rfl⟩, hget, fun ho => ?_⟩
  · rw [Dict.get?_insert, if_neg hkd.symm]
    exact hdescription
  · rw [Dict.get?_insert, if_neg hkk.symm]
    exact hkeywords
  · -- maps in key order are equal if they answer alike
    have hordered : Dict.Ordered m.extra := hextra ▸ (ho.1.erase _).erase _
    refine Dict.Ordered.ext (((ho.1.insert k x).erase _).erase _) (hordered.insert k x) ?_
    exact fun name => (hget name).trans (Dict.get?_insert name k x m.extra).symm

end Page.Metadata

/-- A page whose metadata is read from something else. -/
theorem Page.ReadFrom.replace_metadata {p : Page} {ms ms' : Members} (hp : p.ReadFrom ms)
    (hsame : ∀ name, name ≠ "meta" → Dict.get? name ms' = Dict.get? name ms)
    {x : Option Page.Metadata}
    (hx : nullable Page.Metadata.ofValue (Dict.get? "meta" ms') = .ok x) :
    ({ p with metadata := x } : Page).ReadFrom ms' where
  id := by
    rw [hsame _ (by decide)]
    exact hp.id
  title := by
    rw [hsame _ (by decide)]
    exact hp.title
  metadata := hx
  data := by
    rw [hsame _ (by decide)]
    exact hp.data
  root := by
    rw [hsame _ (by decide)]
    exact hp.root

/-! ### Schemas -/

namespace Schema

/-- The record that a kind of schema is. -/
def Kind.record : Schema.Kind → Record
  | node => .node
  | page => .page

theorem Kind.key_not_mem_fields (kind : Schema.Kind) : key ∉ kind.record.fields := by
  cases kind <;> decide

/-- The kind depends on two members alone. -/
theorem Kind.ofValue_congr {ms ms' : Members} (hkey : Dict.get? key ms' = Dict.get? key ms)
    (hroot : Dict.contains "root" ms' = Dict.contains "root" ms) :
    ofValue (.obj ms') = ofValue (.obj ms) := by
  simp only [ofValue, hkey, hroot]

theorem ofValue_eq_ok_node {ms : Members} {n : Node} : ofValue (.obj ms) = .ok (node n) ↔
    Kind.ofValue (.obj ms) = .ok .node ∧ n.ReadFrom (Dict.erase Kind.key ms) := by
  simp [ofValue_eq_ok, ofBody_eq_ok, body, Node.ofValue_eq_ok, Record.exists_lists_obj]

theorem ofValue_eq_ok_page {ms : Members} {p : Page} : ofValue (.obj ms) = .ok (page p) ↔
    Kind.ofValue (.obj ms) = .ok .page ∧ p.ReadFrom (Dict.erase Kind.key ms) := by
  simp [ofValue_eq_ok, ofBody_eq_ok, body, Page.ofValue_eq_ok, Record.exists_lists_obj]

/-- Members that keep the kind and the fields of a schema are read as that schema. -/
theorem ofValue_of_keepsFields {ms ms' : Members} {s : Schema} (hs : ofValue (.obj ms) = .ok s)
    (hkey : Dict.get? Kind.key ms' = Dict.get? Kind.key ms)
    (hroot : Dict.contains "root" ms' = Dict.contains "root" ms)
    (h : s.kind.record.KeepsFields ms ms') : ofValue (.obj ms') = .ok s := by
  have hkind := Kind.ofValue_congr hkey hroot
  have hbody := h.erase s.kind.key_not_mem_fields
  cases s with
  | node n =>
    obtain ⟨hk, hread⟩ := ofValue_eq_ok_node.mp hs
    exact ofValue_eq_ok_node.mpr ⟨hkind.trans hk, hread.transport hbody⟩
  | page p =>
    obtain ⟨hk, hread⟩ := ofValue_eq_ok_page.mp hs
    exact ofValue_eq_ok_page.mpr ⟨hkind.trans hk, hread.transport hbody⟩

theorem exists_obj_of_ofValue {v : Value} {s : Schema} (h : ofValue v = .ok s) :
    ∃ ms, v = .obj ms := by
  obtain ⟨kind, hk, -⟩ := ofValue_eq_ok.mp h
  cases v with
  | obj ms => exact ⟨ms, rfl⟩
  | _ => cases hk

/-- A part of a schema may be replaced by one that is read the same. -/
theorem ofValue_write_of_keeps {v w w' : Value} {s : Schema} {segment : String} {rest : Path}
    {q : Part} (hs : ofValue v = .ok s)
    (hq : (Part.record s.kind.record).at? v (segment :: rest) = some q)
    (hw : v.follow? (segment :: rest) = some w) (hkeeps : q.Keeps w w') :
    ofValue (Value.write (some v) (segment :: rest) w') = .ok s := by
  obtain ⟨ms, rfl⟩ := exists_obj_of_ofValue hs
  obtain ⟨q', child, hpart, hchild, hrest⟩ := Part.at?_cons_eq_some.mp hq
  rw [Value.follow?, hchild, Option.bind_some] at hw
  replace hpart : Part.ofField s.kind.record segment = some q' := hpart
  replace hchild : Dict.get? segment ms = some child := hchild
  have hchange : q'.Keeps child (Value.write (some child) rest w') :=
    Part.keeps_write hrest hw hkeeps
  have hwrite : Value.write (some (.obj ms)) (segment :: rest) w' =
      .obj (Dict.insert segment (Value.write (some child) rest w') ms) := by
    rw [Value.write_cons, Option.bind_some, Value.child?, hchild]
    rfl
  rw [hwrite]
  refine ofValue_of_keepsFields hs ?_ ?_ (Record.keepsFields_insert_part hpart hchild hchange)
  · have hne : Kind.key ≠ segment := fun h =>
      s.kind.key_not_mem_fields (h ▸ (Part.ofField_eq_some hpart).1)
    rw [Dict.get?_insert, if_neg hne]
  · -- the root stays if it is the root that is changed
    unfold Dict.contains
    rw [Dict.get?_insert]
    by_cases hroot : "root" = segment
    · rw [if_pos hroot, hroot, hchild]
      rfl
    · rw [if_neg hroot]

/-- A member that is neither a field nor decides the kind is passed over. -/
theorem ofValue_insert_of_not_mem_fields {ms : Members} {s : Schema}
    (hs : ofValue (.obj ms) = .ok s) {k : String} (hk : k ∉ s.kind.record.fields)
    (hkey : k ≠ Kind.key) (hroot : k ≠ "root") (x : Value) :
    ofValue (.obj (Dict.insert k x ms)) = .ok s := by
  refine ofValue_of_keepsFields hs ?_ ?_ (Record.keepsFields_insert hk x ms)
  · rw [Dict.get?_insert, if_neg hkey.symm]
  · rw [Dict.contains, Dict.get?_insert, if_neg hroot.symm, Dict.contains]

/-- A member of the metadata of a page that is no field of it goes into its rest. -/
theorem ofValue_insert_metadata {ms₀ ms : Members} {p : Page}
    (hs : ofValue (.obj ms₀) = .ok (.page p)) (hmeta : Dict.get? "meta" ms₀ = some (.obj ms))
    {k : String} (hk : k ∉ Record.metadata.fields) (x : Value) :
    ∃ m extra, p.metadata = some m ∧
      ofValue (.obj (Dict.insert "meta" (.obj (Dict.insert k x ms)) ms₀)) =
        .ok (.page { p with metadata := some { m with extra } }) ∧
      (∀ name, Dict.get? name extra = if name = k then some x else Dict.get? name m.extra) ∧
      ((Value.obj ms).Ordered → extra = Dict.insert k x m.extra) := by
  obtain ⟨hkind, hread⟩ := ofValue_eq_ok_page.mp hs
  have herase (l : Members) : Dict.get? "meta" (Dict.erase Kind.key l) = Dict.get? "meta" l := by
    rw [Dict.get?_erase, if_neg (by decide)]
  have hm := hread.metadata
  rw [herase, hmeta] at hm
  obtain ⟨m, hm, hsome⟩ := map_eq_ok.mp hm
  obtain ⟨extra, hinsert, hextra, hordered⟩ := Page.Metadata.ofValue_insert hm hk x
  refine ⟨m, extra, hsome, ofValue_eq_ok_page.mpr ⟨?_, ?_⟩, hextra, hordered⟩
  · rw [← hkind]
    refine Kind.ofValue_congr ?_ ?_
    · rw [Dict.get?_insert, if_neg (by decide)]
    · rw [Dict.contains, Dict.get?_insert, if_neg (by decide), Dict.contains]
  · -- the other fields of the page are found where they were
    refine hread.replace_metadata (fun name hname => ?_) ?_
    · rw [Dict.get?_erase, Dict.get?_insert, if_neg hname, Dict.get?_erase]
    · rw [herase, Dict.get?_insert, if_pos rfl]
      exact map_eq_ok.mpr ⟨_, hinsert, rfl⟩

/-- A member more that is no field of its record, anywhere in a document, changes nothing in what is
loaded; at the top the members that tell the kind are excepted.  In metadata such a member is one
extra entry more. -/
theorem passes_over_unknown_members {v : Value} {s : Schema} (hs : ofValue v = .ok s) :
    (∀ path r ms k x, (Part.record s.kind.record).at? v path = some (.record r) →
      v.follow? path = some (.obj ms) → r ≠ .metadata → k ∉ r.fields →
      (path = [] → k ≠ Kind.key ∧ k ≠ "root") →
        ofValue (Value.write (some v) path (.obj (Dict.insert k x ms))) = .ok s) ∧
    ∀ p ms k x, s = .page p → v.follow? ["meta"] = some (.obj ms) →
      k ∉ Record.metadata.fields →
        ∃ m extra, p.metadata = some m ∧
          ofValue (Value.write (some v) ["meta"] (.obj (Dict.insert k x ms))) =
            .ok (.page { p with metadata := some { m with extra } }) ∧
          (∀ name, Dict.get? name extra = if name = k then some x else Dict.get? name m.extra) ∧
          (v.Ordered → extra = Dict.insert k x m.extra) := by
  refine ⟨fun path r ms k x hat hfollow hr hk htop => ?_, fun p ms k x hpage hfollow hk => ?_⟩
  · cases path with
    | nil =>
      obtain rfl := Part.record.inj (Option.some.inj hat)
      obtain rfl := Option.some.inj hfollow
      obtain ⟨hkey, hroot⟩ := htop rfl
      exact ofValue_insert_of_not_mem_fields hs hk hkey hroot x
    | cons segment rest =>
      exact ofValue_write_of_keeps hs hat hfollow (Part.keeps_insert hr hk x ms)
  · subst hpage
    obtain ⟨ms₀, rfl⟩ := exists_obj_of_ofValue hs
    have hmeta : Dict.get? "meta" ms₀ = some (.obj ms) := by
      simpa [Value.follow?, Value.child?] using hfollow
    obtain ⟨m, extra, hsome, hload, hextra, hordered⟩ := ofValue_insert_metadata hs hmeta hk x
    exact ⟨m, extra, hsome, hload, hextra, fun ho => hordered (Hereditary.ordered.of_get? ho hmeta)⟩

/-- A page that holds a node as an array, with its gate as an object. -/
def mixed (gate metadata : Members) : Value :=
  .obj
    [("id", .str "home"), ("meta", .obj metadata),
      ("root", .obj
        [("children", .arr [.arr [.str "Text", .null, .str "Hi", .null, .obj gate]]),
          ("type", .str "Column")])]

theorem passes_over_unknown_members_mixed :
    let gate := [("operator", .str "eq"), ("path", .str "user.id")]
    let gate' := [("note", .null), ("operator", .str "eq"), ("path", .str "user.id")]
    let metadata := [("description", .str "start")]
    let metadata' := [("author", .str "Al"), ("description", .str "start")]
    (Part.record .page).at? (mixed gate metadata) ["root", "children", "0", "4"] =
        some (.record .gate) ∧
      ∃ p, ofValue (mixed gate metadata) = .ok (.page p) ∧
        ofValue (mixed gate' metadata) = .ok (.page p) ∧
        ∃ m, p.metadata = some m ∧ ofValue (mixed gate metadata') =
          .ok (.page { p with metadata := some { m with extra := [("author", .str "Al")] } }) := by
  intro gate gate' metadata metadata'
  have hat : (Part.record .page).at? (mixed gate metadata) ["root", "children", "0", "4"] =
      some (.record .gate) := by decide +kernel
  obtain ⟨p, hp⟩ : ∃ p, ofValue (mixed gate metadata) = .ok (.page p) := ⟨_, rfl⟩
  obtain ⟨hload, hmetadata⟩ := passes_over_unknown_members hp
  refine ⟨hat, p, hp, ?_, ?_⟩
  · exact hload _ .gate gate "note" .null hat (by decide +kernel) (by decide) (by decide)
      (by decide)
  · have ho : (mixed gate metadata).Ordered := by
      simp only [mixed, gate, metadata, Value.Ordered, Value.OrderedMembers, Value.OrderedItems,
        Dict.Ordered, Dict.keys, List.map_cons, List.map_nil, List.pairwise_cons]
      decide
    obtain ⟨m, extra, hm, hinsert, -, hextra⟩ :=
      hmetadata p metadata "author" (.str "Al") rfl (by decide +kernel) (by decide)
    obtain rfl := hextra ho
    cases hp
    cases hm
    exact ⟨_, rfl, hinsert⟩

end Schema

end ServerUi
