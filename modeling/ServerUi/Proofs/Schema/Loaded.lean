import ServerUi.Proofs.Schema.Accepted
import ServerUi.Proofs.Schema.Canonical

/-!
# ServerUi.Proofs.Schema.Loaded — what is true of every loaded schema

A property of documents that passes to their items and members (`Hereditary`) reaches every part
that a decoder keeps.  Taken with the trivial property this shows loaded schemas canonical, taken
with key order it shows them ordered.
-/

namespace ServerUi

open Decode

/-- A property of values that items and members inherit. -/
structure Hereditary (D : Value → Prop) : Prop where
  item : ∀ {items : List Value}, D (.arr items) → ∀ v ∈ items, D v
  member : ∀ {ms : Members}, D (.obj ms) → ∀ p ∈ ms, D p.2

namespace Hereditary

theorem trivial : Hereditary fun _ => True := ⟨fun _ _ _ => True.intro, fun _ _ _ => True.intro⟩

theorem ordered : Hereditary Value.Ordered :=
  ⟨fun h => Value.orderedItems_iff.mp h, fun h => Value.orderedMembers_iff.mp h.2⟩

variable {D : Value → Prop} (hD : Hereditary D)
include hD

theorem of_getElem? {items : List Value} (h : D (.arr items)) {i : Nat} {v : Value}
    (hv : items[i]? = some v) : D v :=
  hD.item h v (List.mem_of_getElem? hv)

theorem of_get? {ms : Members} (h : D (.obj ms)) {k : String} {v : Value}
    (hv : Dict.get? k ms = some v) : D v :=
  hD.member h _ (Dict.mem_of_get? hv)

end Hereditary

/-- What a property of documents makes true of the props, gates and handlers read from them. -/
structure Reaches (D : Value → Prop) (P : Members → Prop) (G : Gate → Prop)
    (H : Handlers → Prop) : Prop extends Hereditary D where
  props : ∀ {ms}, D (.obj ms) → P ms
  gate : ∀ {v g}, D v → Gate.ofValue v = .ok g → G g
  handlers : ∀ {v hs}, D v → Handlers.ofValue v = .ok hs → H hs

namespace Reaches

variable {D : Value → Prop} {P : Members → Prop} {G : Gate → Prop} {H : Handlers → Prop}

/-- What the readers of single fields give holds of every part of the node they make. -/
theorem every_of_fields (r : Reaches D P G H) {n : Node} {props gate handlers : Option Value}
    (hprops : ∀ v ∈ props, D v) (hgate : ∀ v ∈ gate, D v) (hhandlers : ∀ v ∈ handlers, D v)
    (hp : nullable table props = .ok n.props) (hg : nullable Gate.ofValue gate = .ok n.gate)
    (hh : nullable Handlers.ofValue handlers = .ok n.handlers) (hc : n.content.Every P G H) :
    n.Every P G H := by
  refine Node.every_iff.mpr ⟨fun _ hm => ?_, fun _ hm => ?_, fun _ hm => ?_, hc⟩
  · obtain ⟨v, hv, hr⟩ := read_of_nullable hp hm
    rw [table_eq_ok] at hr
    exact r.props (hr ▸ hprops v hv)
  · obtain ⟨v, hv, hr⟩ := read_of_nullable hg hm
    exact r.gate (hgate v hv) hr
  · obtain ⟨v, hv, hr⟩ := read_of_nullable hh hm
    exact r.handlers (hhandlers v hv) hr

mutual

/-- What is read from values of one sort holds of every part of a node read from such a value. -/
theorem every_of_node (r : Reaches D P G H) :
    ∀ (v : Value) {n : Node}, D v → Node.ofValue v = .ok n → n.Every P G H
  | .obj ms, n, hd, h => by
    rw [Node.ofValue, Node.ofMembers_eq_ok] at h
    obtain ⟨hc, -, hh, hp, -, hg⟩ := h
    have hfound : ∀ k, ∀ v ∈ Dict.get? k ms, D v := fun k v hv => r.of_get? hd hv
    exact r.every_of_fields (hfound "props") (hfound "when") (hfound "on") hp hg hh
      (r.every_of_contentMember ms (r.member hd) hc)
  | .arr items, n, hd, h => by
    rw [Node.ofValue, Node.ofItems_eq_ok] at h
    obtain ⟨-, hp, hc, -, hg, hh, -⟩ := h
    have hfound : ∀ i : Nat, ∀ v ∈ items[i]?, D v := fun i v hv => r.of_getElem? hd hv
    exact r.every_of_fields (hfound 1) (hfound 4) (hfound 5) hp hg hh
      (r.every_of_contentItem items (r.item hd) hc)
  | .null, _, _, h => by simp [Node.ofValue, wrong] at h
  | .bool _, _, _, h => by simp [Node.ofValue, wrong] at h
  | .num _, _, _, h => by simp [Node.ofValue, wrong] at h
  | .str _, _, _, h => by simp [Node.ofValue, wrong] at h

theorem every_of_contentMember (r : Reaches D P G H) :
    ∀ (ms : Members) {c : Content}, (∀ p ∈ ms, D p.2) → contentMember ms = .ok c → c.Every P G H
  | [], _, _, h => by
    cases h
    exact True.intro
  | (name, v) :: ms, c, hd, h => by
    rw [contentMember] at h
    split_ifs at h
    · exact r.every_of_content v (hd _ List.mem_cons_self) h
    · exact r.every_of_contentMember ms (fun p hp => hd p (List.mem_cons_of_mem _ hp)) h

theorem every_of_contentItem (r : Reaches D P G H) :
    ∀ (items : List Value) {c : Content}, (∀ v ∈ items, D v) → contentItem items = .ok c →
      c.Every P G H
  | _ :: _ :: v :: _, _, hd, h => r.every_of_content v (hd v (by simp)) h
  | [], _, _, h => by
    cases h
    exact True.intro
  | [_], _, _, h => by
    cases h
    exact True.intro
  | [_, _], _, _, h => by
    cases h
    exact True.intro

theorem every_of_content (r : Reaches D P G H) :
    ∀ (v : Value) {c : Content}, D v → Content.ofValue v = .ok c → c.Every P G H
  | .arr items, c, hd, h => by
    obtain ⟨hv, -⟩ | ⟨_, hv, -⟩ | ⟨_, nodes, hv, hn, rfl⟩ := Content.ofValue_eq_ok.mp h
    · cases hv
    · cases hv
    · cases hv
      exact r.every_of_nodes items (r.item hd) hn
  | .null, _, _, h => by
    cases h
    exact True.intro
  | .str _, _, _, h => by
    cases h
    exact True.intro
  | .bool _, _, _, h => by cases h
  | .num _, _, _, h => by cases h
  | .obj _, _, _, h => by cases h

theorem every_of_nodes (r : Reaches D P G H) :
    ∀ (items : List Value) {ns : List Node}, (∀ v ∈ items, D v) → nodesOfValues items = .ok ns →
      nodesEvery P G H ns
  | [], _, _, h => by
    cases h
    exact True.intro
  | v :: items, ns, hd, h => by
    obtain ⟨n, rest, hn, hr, rfl⟩ := nodesOfValues_cons_eq_ok.mp h
    exact ⟨r.every_of_node v (hd v List.mem_cons_self) hn,
      r.every_of_nodes items (fun w hw => hd w (List.mem_cons_of_mem _ hw)) hr⟩

end

end Reaches

/-! ### Canonical parts -/

theorem Gate.canonical_of_ofValue {v : Value} {g : Gate} (h : Gate.ofValue v = .ok g) :
    g.Canonical := by
  unfold Gate.Canonical
  cases v with
  | obj ms =>
    obtain ⟨-, ⟨o, -, ho⟩, -⟩ := Gate.ofMembers_eq_ok.mp h
    exact ho ▸ Operator.ofSpelling_canonical o
  | arr items =>
    obtain ⟨-, ⟨o, -, ho⟩, -⟩ := Gate.ofItems_eq_ok.mp h
    exact ho ▸ Operator.ofSpelling_canonical o
  | _ => simp [Gate.ofValue, wrong] at h

theorem Action.canonical_of_ofValue {v : Value} {a : Action} (h : Action.ofValue v = .ok a) :
    a.Canonical := by
  unfold Action.Canonical
  cases v with
  | obj ms =>
    obtain ⟨-, k, -, hk⟩ := Action.ofMembers_eq_ok.mp h
    exact hk ▸ Action.Kind.ofSpelling_canonical k
  | arr items =>
    obtain ⟨-, ⟨k, -, hk⟩, -⟩ := Action.ofItems_eq_ok.mp h
    exact hk ▸ Action.Kind.ofSpelling_canonical k
  | _ => simp [Action.ofValue, wrong] at h

/-- Every handler has been read from a member of the object. -/
theorem Handlers.exists_member {ms : Members} {hs : Handlers} (h : Handlers.ofMembers ms = .ok hs)
    {q : Event × Action} (hq : q ∈ hs) :
    ∃ p ∈ ms, q.1 = .ofSpelling p.1 ∧ Action.ofValue p.2 = .ok q.2 := by
  obtain ⟨entries, rfl, he⟩ := Handlers.ofMembers_eq_ok.mp h
  exact exists_left_of_forall₂ he (Dict.mem_ofList hq)

/-- No member of the object is lost and no two are merged. -/
theorem Handlers.spellings_perm {ms : Members} {hs : Handlers} (hd : (Dict.keys ms).Nodup)
    (h : Handlers.ofMembers ms = .ok hs) :
    ((Dict.keys hs).map Event.spelling).Perm (Dict.keys ms) := by
  obtain ⟨entries, rfl, he⟩ := Handlers.ofMembers_eq_ok.mp h
  -- every member is read under its own spelling
  have hkeys : (Dict.keys entries).map Event.spelling = Dict.keys ms := by
    clear h hd
    induction he with
    | nil => rfl
    | @cons p q ms entries hpq _ ih =>
      have hp : q.1.spelling = p.1 := by rw [hpq.1, Event.spelling_ofSpelling]
      simpa [Dict.keys, hp] using ih
  have hnodup : (Dict.keys entries).Nodup := List.Nodup.of_map Event.spelling (hkeys ▸ hd)
  rw [← hkeys]
  exact ((Dict.ofList_perm hnodup).map Prod.fst).map Event.spelling

theorem Handlers.canonical_of_ofValue {v : Value} {hs : Handlers}
    (h : Handlers.ofValue v = .ok hs) : hs.Canonical := by
  cases v with
  | obj ms =>
    intro q hq
    obtain ⟨p, -, he, ha⟩ := Handlers.exists_member h hq
    exact ⟨he ▸ Event.ofSpelling_canonical p.1, Action.canonical_of_ofValue ha⟩
  | _ => simp [Handlers.ofValue, wrong] at h

theorem Page.Metadata.canonical_of_ofValue {v : Value} {m : Page.Metadata}
    (h : Page.Metadata.ofValue v = .ok m) : m.Canonical := by
  obtain ⟨ms, -, -, -, he⟩ := Page.Metadata.ofValue_eq_ok.mp h
  unfold Page.Metadata.Canonical
  rw [he, ← Dict.get?_eq_none_iff, ← Dict.get?_eq_none_iff]
  simp [Dict.get?_erase]

/-! ### Ordered parts -/

theorem Gate.ordered_of_ofValue {v : Value} {g : Gate} (hd : v.Ordered)
    (h : Gate.ofValue v = .ok g) : g.Ordered := by
  intro w hw
  cases v with
  | obj ms =>
    obtain ⟨-, -, hv⟩ := Gate.ofMembers_eq_ok.mp h
    exact Hereditary.ordered.of_get? hd (hv ▸ hw)
  | arr items =>
    obtain ⟨-, -, hv, -⟩ := Gate.ofItems_eq_ok.mp h
    exact Hereditary.ordered.of_getElem? hd (hv ▸ hw)
  | _ => simp [Gate.ofValue, wrong] at h

theorem Action.ordered_of_ofValue {v : Value} {a : Action} (hd : v.Ordered)
    (h : Action.ofValue v = .ok a) : a.Ordered := by
  intro ms hm
  cases v with
  | obj fields =>
    obtain ⟨hp, -⟩ := Action.ofMembers_eq_ok.mp h
    obtain ⟨w, hw, hr⟩ := read_of_nullable hp hm
    exact table_eq_ok.mp hr ▸ Hereditary.ordered.of_get? hd hw
  | arr items =>
    obtain ⟨hp, -⟩ := Action.ofItems_eq_ok.mp h
    obtain ⟨w, hw, hr⟩ := read_of_nullable hp hm
    exact table_eq_ok.mp hr ▸ Hereditary.ordered.of_getElem? hd hw
  | _ => simp [Action.ofValue, wrong] at h

theorem Handlers.ordered_of_ofValue {v : Value} {hs : Handlers} (hd : v.Ordered)
    (h : Handlers.ofValue v = .ok hs) : hs.Ordered := by
  cases v with
  | obj ms =>
    refine ⟨?_, fun q hq => ?_⟩
    · obtain ⟨entries, rfl, -⟩ := Handlers.ofMembers_eq_ok.mp h
      exact Dict.ordered_ofList entries
    · obtain ⟨p, hp, -, ha⟩ := Handlers.exists_member h hq
      exact Action.ordered_of_ofValue (Hereditary.ordered.member hd p hp) ha
  | _ => simp [Handlers.ofValue, wrong] at h

theorem Page.Metadata.ordered_of_ofValue {v : Value} {m : Page.Metadata} (hd : v.Ordered)
    (h : Page.Metadata.ofValue v = .ok m) : (Value.obj m.extra).Ordered := by
  obtain ⟨ms, rfl, -, -, he⟩ := Page.Metadata.ofValue_eq_ok.mp h
  rw [he]
  refine ⟨(hd.1.erase _).erase _, Value.orderedMembers_iff.mpr fun p hp => ?_⟩
  have hp' : p ∈ ms := (Dict.mem_erase.mp (Dict.mem_erase.mp hp).1).1
  exact Hereditary.ordered.member hd p hp'

/-! ### Nodes, pages and schemas -/

/-- A node that is read is canonical. -/
theorem Node.canonical_of_ofValue {v : Value} {n : Node} (h : Node.ofValue v = .ok n) :
    n.Canonical :=
  have r : Reaches (fun _ => True) (fun _ => True) Gate.Canonical Handlers.Canonical :=
    ⟨Hereditary.trivial, fun _ => True.intro, fun _ => Gate.canonical_of_ofValue,
      fun _ => Handlers.canonical_of_ofValue⟩
  r.every_of_node v True.intro h

/-- A node that is read from a value in key order is ordered. -/
theorem Node.ordered_of_ofValue {v : Value} {n : Node} (hd : v.Ordered)
    (h : Node.ofValue v = .ok n) : n.Ordered :=
  have r : Reaches Value.Ordered (fun ms => (Value.obj ms).Ordered) Gate.Ordered
      Handlers.Ordered :=
    ⟨Hereditary.ordered, id, Gate.ordered_of_ofValue, Handlers.ordered_of_ofValue⟩
  r.every_of_node v hd h

/-- The metadata, data and root of a loaded page have been read from parts of the document. -/
theorem Page.parts_of_ofValue {D : Value → Prop} (hD : Hereditary D) {v : Value} {p : Page}
    (hd : D v) (h : Page.ofValue v = .ok p) :
    (∀ m ∈ p.metadata, ∃ w, D w ∧ Page.Metadata.ofValue w = .ok m) ∧
      (∀ ms ∈ p.data, D (.obj ms)) ∧ ∃ w, D w ∧ Node.ofValue w = .ok p.root := by
  cases v with
  | obj ms =>
    obtain ⟨hdata, -, hm, ⟨w, hw, hr⟩, -⟩ := Page.ofMembers_eq_ok.mp h
    refine ⟨fun m hmem => ?_, fun ms hmem => ?_, w, hD.of_get? hd hw, hr⟩
    · obtain ⟨w, hw, hr⟩ := read_of_nullable hm hmem
      exact ⟨w, hD.of_get? hd hw, hr⟩
    · obtain ⟨w, hw, hr⟩ := read_of_nullable hdata hmem
      exact table_eq_ok.mp hr ▸ hD.of_get? hd hw
  | arr items =>
    obtain ⟨-, -, hm, hdata, ⟨w, hw, hr⟩, -⟩ := Page.ofItems_eq_ok.mp h
    refine ⟨fun m hmem => ?_, fun ms hmem => ?_, w, hD.of_getElem? hd hw, hr⟩
    · obtain ⟨w, hw, hr⟩ := read_of_nullable hm hmem
      exact ⟨w, hD.of_getElem? hd hw, hr⟩
    · obtain ⟨w, hw, hr⟩ := read_of_nullable hdata hmem
      exact table_eq_ok.mp hr ▸ hD.of_getElem? hd hw
  | _ => simp [Page.ofValue, wrong] at h

theorem Page.canonical_of_ofValue {v : Value} {p : Page} (h : Page.ofValue v = .ok p) :
    p.Canonical := by
  obtain ⟨hm, -, w, -, hr⟩ := Page.parts_of_ofValue Hereditary.trivial True.intro h
  refine ⟨fun m hmem => ?_, Node.canonical_of_ofValue hr⟩
  obtain ⟨w, -, hw⟩ := hm m hmem
  exact Page.Metadata.canonical_of_ofValue hw

theorem Page.ordered_of_ofValue {v : Value} {p : Page} (hd : v.Ordered)
    (h : Page.ofValue v = .ok p) : p.Ordered := by
  obtain ⟨hm, hdata, w, hw, hr⟩ := Page.parts_of_ofValue Hereditary.ordered hd h
  refine ⟨fun m hmem => ?_, hdata, Node.ordered_of_ofValue hw hr⟩
  obtain ⟨w, hw, hwm⟩ := hm m hmem
  exact Page.Metadata.ordered_of_ofValue hw hwm

/-- Taking the kind away leaves a value in key order. -/
theorem Schema.body_ordered {v : Value} (h : v.Ordered) : (Schema.body v).Ordered := by
  cases v with
  | obj ms =>
    refine ⟨h.1.erase _, Value.orderedMembers_iff.mpr fun p hp => ?_⟩
    exact Hereditary.ordered.member h p (Dict.mem_erase.mp hp).1
  | _ => exact h

/-- A schema that is read is canonical. -/
theorem Schema.canonical_of_ofValue {v : Value} {s : Schema} (h : Schema.ofValue v = .ok s) :
    s.Canonical := by
  obtain ⟨kind, -, hb⟩ := Schema.ofValue_eq_ok.mp h
  obtain ⟨-, n, hn, rfl⟩ | ⟨-, p, hp, rfl⟩ := Schema.ofBody_eq_ok.mp hb
  · exact Node.canonical_of_ofValue hn
  · exact Page.canonical_of_ofValue hp

/-- A schema that is read from a value in key order is ordered. -/
theorem Schema.ordered_of_ofValue {v : Value} {s : Schema} (hd : v.Ordered)
    (h : Schema.ofValue v = .ok s) : s.Ordered := by
  obtain ⟨kind, -, hb⟩ := Schema.ofValue_eq_ok.mp h
  obtain ⟨-, n, hn, rfl⟩ | ⟨-, p, hp, rfl⟩ := Schema.ofBody_eq_ok.mp hb
  · exact Node.ordered_of_ofValue (Schema.body_ordered hd) hn
  · exact Page.ordered_of_ofValue (Schema.body_ordered hd) hp

end ServerUi
