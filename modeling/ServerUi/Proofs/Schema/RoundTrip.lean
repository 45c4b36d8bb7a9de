import Mathlib.Data.List.Perm.Basic
import ServerUi.Proofs.Schema.Loaded
import ServerUi.Schema.Encode

/-!
# ServerUi.Proofs.Schema.RoundTrip — a schema is read back from what is written for it

What is written for a schema, as a document in key order, is read back as the schema when it is
canonical and ordered; and every loaded schema is.

A record is written as a list of fields some of which are absent (`record`), so that one lookup law
serves all of them.
-/

namespace ServerUi

open Decode

/-! ### Records as lists of fields -/

/-- The members of a record: of its fields those that are there. -/
def record (fields : List (String × Option Value)) : Members :=
  fields.flatMap fun p => optionalMember p.1 p.2

theorem record_cons (name : String) (x : Option Value) (fields : List (String × Option Value)) :
    record ((name, x) :: fields) = optionalMember name x ++ record fields := rfl

theorem get?_optionalMember (k name : String) (x : Option Value) :
    Dict.get? k (optionalMember name x) = if k = name then x else none := by
  cases x <;> simp [optionalMember, Dict.get?_cons]

/-- A record is written with its fields in order, some perhaps left out. -/
theorem keys_record_sublist :
    ∀ fields, (Dict.keys (record fields)).Sublist (Dict.keys fields)
  | [] => List.Sublist.slnil
  | (name, none) :: fields => (keys_record_sublist fields).cons name
  | (name, some _) :: fields => (keys_record_sublist fields).cons_cons name

/-- A field that is written is found under its name. -/
theorem get?_record (k : String) : ∀ {fields : List (String × Option Value)},
    (Dict.keys fields).Nodup → Dict.get? k (record fields) = (Dict.get? k fields).join
  | [], _ => rfl
  | (name, x) :: fields, hd => by
    obtain ⟨hname, hd⟩ := List.nodup_cons.mp hd
    rw [record_cons, Dict.get?_append, get?_optionalMember, get?_record k hd, Dict.get?_cons]
    by_cases h : k = name
    · subst h
      have hnone : Dict.get? k fields = none := Dict.get?_eq_none_iff.mpr hname
      cases x <;> simp [hnone]
    · simp [h]

/-- A field of a written record. -/
theorem get?_normalized_record {fields : List (String × Option Value)}
    (hd : (Dict.keys fields).Nodup) (k : String) :
    Dict.get? k (Value.normalized (record fields)) =
      (Dict.get? k fields).join.map Value.normalize := by
  rw [Value.get?_normalized (hd.sublist (keys_record_sublist fields)), get?_record k hd]

/-- A written field is read back if what it holds is. -/
theorem nullable_written {α : Type} {read : Value → Decoded α} {write : α → Value} {x : Option α}
    (h : ∀ a ∈ x, read (write a).normalize = .ok a ∧ (write a).normalize ≠ .null) :
    nullable read ((x.map write).map Value.normalize) = .ok x := by
  cases x with
  | none => rfl
  | some a =>
    obtain ⟨hr, hn⟩ := h a rfl
    exact nullable_eq_ok.mpr (.inr ⟨_, a, rfl, hn, hr, rfl⟩)

theorem text_written (x : Option String) :
    nullable text ((x.map .str).map Value.normalize) = .ok x :=
  nullable_written fun _ _ => ⟨rfl, by simp [Value.normalize]⟩

theorem table_written {x : Option Members} (h : ∀ ms ∈ x, (Value.obj ms).Ordered) :
    nullable table ((x.map .obj).map Value.normalize) = .ok x :=
  nullable_written fun ms hm => by simp [Value.normalize_eq_self _ (h ms hm), table]

/-! ### Gates, actions and handlers -/

theorem Gate.toValue_eq (g : Gate) :
    g.toValue = .obj (record [("path", some (.str g.path)),
      ("operator", some (.str g.operator.spelling)), ("value", g.value)]) := by
  simp [toValue, record, optionalMember]

theorem Gate.ofValue_toValue {g : Gate} (hc : g.Canonical) (ho : g.Ordered) :
    Gate.ofValue g.toValue.normalize = .ok g := by
  rw [Gate.toValue_eq, Value.normalize_obj]
  refine Gate.ofMembers_eq_ok.mpr ⟨?_, ⟨g.operator.spelling, ?_, ?_⟩, ?_⟩
  · simp [get?_normalized_record, Dict.keys, Dict.get?_cons, Value.normalize]
  · simp [get?_normalized_record, Dict.keys, Dict.get?_cons, Value.normalize]
  · exact (Operator.ofSpelling_spelling hc).symm
  · rw [get?_normalized_record (by simp [Dict.keys])]
    cases h : g.value with
    | none => simp [Dict.get?_cons]
    | some v => simp [Dict.get?_cons, Value.normalize_eq_self v (ho v h)]

theorem Action.toValue_eq (a : Action) :
    a.toValue = .obj (record [("type", some (.str a.kind.spelling)),
      ("payload", a.payload.map .obj)]) := by
  simp [toValue, record, optionalMember]

theorem Action.ofValue_toValue {a : Action} (hc : a.Canonical) (ho : a.Ordered) :
    Action.ofValue a.toValue.normalize = .ok a := by
  rw [Action.toValue_eq, Value.normalize_obj]
  refine Action.ofMembers_eq_ok.mpr ⟨?_, a.kind.spelling, ?_, ?_⟩
  · simpa [get?_normalized_record, Dict.keys, Dict.get?_cons] using table_written ho
  · simp [get?_normalized_record, Dict.keys, Dict.get?_cons, Value.normalize]
  · exact (Action.Kind.ofSpelling_spelling hc).symm

/-- Handlers are written in the order of their names, which is not that of the events. -/
theorem Handlers.toValue_normalize (hs : Handlers) :
    hs.toValue.normalize =
      .obj (Dict.ofList (hs.map fun p => (p.1.spelling, p.2.toValue.normalize))) := by
  rw [toValue, Value.normalize_obj, Value.normalized, Value.normalizeMembers_eq, Dict.mapValues,
    List.map_map]
  rfl

/-- Handlers are read back from what is written of them: reading sorts them by event again. -/
theorem Handlers.ofValue_toValue {hs : Handlers} (hc : hs.Canonical) (ho : hs.Ordered) :
    Handlers.ofValue hs.toValue.normalize = .ok hs := by
  set written : Members := hs.map fun p => (p.1.spelling, p.2.toValue.normalize) with hw
  have hread : List.Forall₂
      (fun p q => q.1 = Event.ofSpelling p.1 ∧ Action.ofValue p.2 = .ok q.2) written hs := by
    rw [hw, List.forall₂_map_left_iff, List.forall₂_same]
    intro q hq
    exact ⟨(Event.ofSpelling_spelling (hc q hq).1).symm,
      Action.ofValue_toValue (hc q hq).2 (ho.2 q hq)⟩
  -- canonical events with one spelling are one event
  have hnodup : (Dict.keys written).Nodup := by
    have hkeys : Dict.keys written = (Dict.keys hs).map Event.spelling := by
      simp [hw, Dict.keys]
    rw [hkeys]
    refine ho.1.nodup.map_on fun a ha b hb hab => ?_
    obtain ⟨p, hp, rfl⟩ := List.mem_map.mp ha
    obtain ⟨q, hq, rfl⟩ := List.mem_map.mp hb
    rw [← Event.ofSpelling_spelling (hc p hp).1, hab, Event.ofSpelling_spelling (hc q hq).1]
  -- writing sorts the handlers by spelling; reading sorts them by event again
  obtain ⟨entries, he, hperm⟩ := List.perm_comp_forall₂ (Dict.ofList_perm hnodup) hread
  rw [Handlers.toValue_normalize]
  exact Handlers.ofMembers_eq_ok.mpr ⟨entries, (Dict.ofList_eq_of_perm hperm ho.1).symm, he⟩

/-! ### Nodes -/

theorem Node.toValue_eq (n : Node) :
    n.toValue = .obj (record [("type", some (.str n.component)), ("props", n.props.map .obj),
      ("children", n.content.toValue?), ("key", n.key.map .str), ("when", n.gate.map Gate.toValue),
      ("on", n.handlers.map Handlers.toValue)]) := by
  obtain ⟨component, props, content, key, gate, handlers⟩ := n
  simp [toValue, record, optionalMember]

theorem gate_written {x : Option Gate} (hc : ∀ g ∈ x, g.Canonical) (ho : ∀ g ∈ x, g.Ordered) :
    nullable Gate.ofValue ((x.map Gate.toValue).map Value.normalize) = .ok x :=
  nullable_written fun g hg => ⟨Gate.ofValue_toValue (hc g hg) (ho g hg), by
    simp [Gate.toValue, Value.normalize]⟩

theorem handlers_written {x : Option Handlers} (hc : ∀ hs ∈ x, hs.Canonical)
    (ho : ∀ hs ∈ x, hs.Ordered) :
    nullable Handlers.ofValue ((x.map Handlers.toValue).map Value.normalize) = .ok x :=
  nullable_written fun hs h => ⟨Handlers.ofValue_toValue (hc hs h) (ho hs h), by
    simp [Handlers.toValue, Value.normalize]⟩

mutual

/-- A node is read back from what is written of it, at every depth. -/
theorem Node.ofValue_toValue :
    ∀ n : Node, n.Canonical → n.Ordered → Node.ofValue n.toValue.normalize = .ok n
  | ⟨component, props, content, key, gate, handlers⟩, hc, ho => by
    obtain ⟨-, hcg, hch, hcc⟩ := hc
    obtain ⟨hop, hog, hoh, hoc⟩ := ho
    rw [Node.toValue_eq, Value.normalize_obj, Node.ofValue]
    refine Node.ofMembers_eq_ok.mpr ?_
    rw [contentMember_eq]
    simp only [@get?_normalized_record [("type", _), ("props", _), ("children", _), ("key", _),
      ("when", _), ("on", _)] (by simp [Dict.keys])]
    exact ⟨Content.ofValue_toValue content hcc hoc, text_written key, handlers_written hch hoh,
      table_written hop, rfl, gate_written hcg hog⟩

/-- Content is read back from what is written of it, and absent content is not written. -/
theorem Content.ofValue_toValue :
    ∀ c : Content, c.Every (fun _ => True) Gate.Canonical Handlers.Canonical →
      c.Every (fun ms => (Value.obj ms).Ordered) Gate.Ordered Handlers.Ordered →
      (c.toValue?.map Value.normalize).elim (.ok .absent) Content.ofValue = .ok c
  | .absent, _, _ => rfl
  | .text _, _, _ => rfl
  | .nodes nodes, hc, ho => by
    have hn := nodesOfValues_toValues nodes hc ho
    exact Content.ofValue_eq_ok.mpr (.inr (.inr ⟨_, nodes, rfl, hn, rfl⟩))

theorem nodesOfValues_toValues :
    ∀ ns : List Node, nodesEvery (fun _ => True) Gate.Canonical Handlers.Canonical ns →
      nodesEvery (fun ms => (Value.obj ms).Ordered) Gate.Ordered Handlers.Ordered ns →
      nodesOfValues (Value.normalizeItems (nodesToValues ns)) = .ok ns
  | [], _, _ => rfl
  | n :: ns, hc, ho =>
    nodesOfValues_cons_eq_ok.mpr ⟨n, ns, Node.ofValue_toValue n hc.1 ho.1,
      nodesOfValues_toValues ns hc.2 ho.2, rfl⟩

end

/-! ### Pages -/

/-- The fields of metadata, its extra entries aside. -/
def Page.Metadata.fields (m : Page.Metadata) : List (String × Option Value) :=
  [("description", m.description.map .str),
    ("keywords", m.keywords.map fun ks => .arr (ks.map .str))]

theorem Page.Metadata.toValue_eq (m : Page.Metadata) :
    m.toValue = .obj (record m.fields ++ m.extra) := by
  simp [toValue, record, fields]

theorem Page.Metadata.keys_fields (m : Page.Metadata) :
    Dict.keys m.fields = ["description", "keywords"] := rfl

/-- The entries of written metadata: a field if it has the name of one, else an extra entry. -/
theorem Page.Metadata.get?_written {m : Page.Metadata} (hc : m.Canonical)
    (ho : (Value.obj m.extra).Ordered) (k : String) :
    Dict.get? k (Value.normalized (record m.fields ++ m.extra)) =
      ((Dict.get? k m.fields).join.map Value.normalize).or (Dict.get? k m.extra) := by
  have hfd : (Dict.keys m.fields).Nodup := by simp [keys_fields]
  have hd : (Dict.keys (record m.fields ++ m.extra)).Nodup := by
    unfold Dict.keys
    rw [List.map_append]
    -- what is kept besides the fields is not called like one of them
    refine List.Nodup.append (hfd.sublist (keys_record_sublist m.fields)) ho.1.nodup ?_
    intro k hk hke
    have hname : k ∈ Dict.keys m.fields := (keys_record_sublist m.fields).subset hk
    rw [keys_fields, List.mem_pair] at hname
    rcases hname with rfl | rfl
    · exact hc.1 hke
    · exact hc.2 hke
  rw [Value.get?_normalized hd, Dict.get?_append, get?_record k hfd]
  cases (Dict.get? k m.fields).join with
  | some v => simp
  | none =>
    cases he : Dict.get? k m.extra with
    | none => simp
    | some v => simp [Value.normalize_eq_self v (Value.ordered_of_get? ho.2 he)]

theorem texts_written (x : Option (List String)) :
    nullable texts ((x.map fun ks => .arr (ks.map .str)).map Value.normalize) = .ok x :=
  nullable_written fun ks _ => by
    have hitems : Value.normalizeItems (ks.map .str) = ks.map .str :=
      Value.normalizeItems_eq_self _ (Value.orderedItems_iff.mpr (by simp [Value.Ordered]))
    simp [Value.normalize, hitems, texts_eq_ok]

/-- Metadata is read back from what is written of it: what it keeps does not clash with its fields.
-/
theorem Page.Metadata.ofValue_toValue {m : Page.Metadata} (hc : m.Canonical)
    (ho : (Value.obj m.extra).Ordered) : Page.Metadata.ofValue m.toValue.normalize = .ok m := by
  have hget := Page.Metadata.get?_written hc ho
  have hdescription := Dict.get?_eq_none_iff.mpr hc.1
  have hkeywords := Dict.get?_eq_none_iff.mpr hc.2
  rw [Page.Metadata.toValue_eq, Value.normalize_obj]
  refine Page.Metadata.ofValue_eq_ok.mpr ⟨_, rfl, ?_, ?_, ?_⟩
  · rw [hget, hdescription, Option.or_none]
    exact text_written m.description
  · rw [hget, hkeywords, Option.or_none]
    exact texts_written m.keywords
  · have hordered : Dict.Ordered (Value.normalized (record m.fields ++ m.extra)) :=
      Dict.ordered_ofList _
    refine ho.1.ext ((hordered.erase _).erase _) fun k => ?_
    rw [Dict.get?_erase, Dict.get?_erase, hget]
    -- reading takes the two fields away again
    by_cases hk : k = "keywords"
    · rw [if_pos hk, hk, hkeywords]
    · by_cases hk' : k = "description"
      · rw [if_neg hk, if_pos hk', hk', hdescription]
      · have hnone : Dict.get? k m.fields = none := by
          rw [Dict.get?_eq_none_iff, Page.Metadata.keys_fields]
          simp [hk, hk']
        simp [hk, hk', hnone]

theorem metadata_written {x : Option Page.Metadata} (hc : ∀ m ∈ x, m.Canonical)
    (ho : ∀ m ∈ x, (Value.obj m.extra).Ordered) :
    nullable Page.Metadata.ofValue ((x.map Page.Metadata.toValue).map Value.normalize) = .ok x :=
  nullable_written fun m hm => ⟨Page.Metadata.ofValue_toValue (hc m hm) (ho m hm), by
    simp [Page.Metadata.toValue, Value.normalize]⟩

theorem Page.toValue_eq (p : Page) :
    p.toValue = .obj (record [("id", some (.str p.id)), ("title", p.title.map .str),
      ("meta", p.metadata.map Page.Metadata.toValue), ("data", p.data.map .obj),
      ("root", some p.root.toValue)]) := by
  simp [toValue, record, optionalMember]

theorem Page.ofValue_toValue {p : Page} (hc : p.Canonical) (ho : p.Ordered) :
    Page.ofValue p.toValue.normalize = .ok p := by
  obtain ⟨hcm, hcr⟩ := hc
  obtain ⟨hom, hod, hor⟩ := ho
  rw [Page.toValue_eq, Value.normalize_obj]
  refine Page.ofMembers_eq_ok.mpr ?_
  simp only [@get?_normalized_record [("id", _), ("title", _), ("meta", _), ("data", _),
    ("root", _)] (by simp [Dict.keys])]
  exact ⟨table_written hod, ⟨some p.id, rfl, rfl⟩, metadata_written hcm hom,
    ⟨_, rfl, Node.ofValue_toValue p.root hcr hor⟩, text_written p.title⟩

/-! ### Schemas -/

/-- A document without a kind is its own body. -/
theorem Schema.body_eq_self {ms : Members} (h : Dict.get? Schema.Kind.key ms = none) :
    Schema.body (.obj ms) = .obj ms := by
  rw [Schema.body, Dict.erase_eq_self (Dict.get?_eq_none_iff.mp h)]

/-- Without a kind, a root makes a page. -/
theorem Schema.Kind.ofValue_eq {ms : Members} (h : Dict.get? key ms = none) :
    ofValue (.obj ms) = .ok (if Dict.contains "root" ms then page else node) := by
  rw [ofValue, h]

/-- A written schema does not name its kind, and its `root` tells it. -/
theorem Schema.kind_toValue (s : Schema) :
    Schema.Kind.ofValue s.toValue.normalize = .ok s.kind ∧
      Schema.body s.toValue.normalize = s.toValue.normalize := by
  cases s with
  | node n =>
    rw [toValue, Node.toValue_eq, Value.normalize_obj]
    set ms := Value.normalized (record _) with hms
    have hkey : Dict.get? Kind.key ms = none := by
      rw [hms, get?_normalized_record (by simp [Dict.keys])]
      simp [Dict.get?_cons, Kind.key]
    have hroot : Dict.contains "root" ms = false := by
      rw [hms, Dict.contains, get?_normalized_record (by simp [Dict.keys])]
      simp [Dict.get?_cons]
    exact ⟨by rw [Kind.ofValue_eq hkey, hroot]; rfl, body_eq_self hkey⟩
  | page p =>
    rw [toValue, Page.toValue_eq, Value.normalize_obj]
    set ms := Value.normalized (record _) with hms
    have hkey : Dict.get? Kind.key ms = none := by
      rw [hms, get?_normalized_record (by simp [Dict.keys])]
      simp [Dict.get?_cons, Kind.key]
    have hroot : Dict.contains "root" ms = true := by
      rw [hms, Dict.contains, get?_normalized_record (by simp [Dict.keys])]
      simp [Dict.get?_cons]
    exact ⟨by rw [Kind.ofValue_eq hkey, hroot]; rfl, body_eq_self hkey⟩

/-- A schema is read back from what is written of it. -/
theorem Schema.ofValue_toValue {s : Schema} (hc : s.Canonical) (ho : s.Ordered) :
    Schema.ofValue s.toValue.normalize = .ok s := by
  obtain ⟨hkind, hbody⟩ := s.kind_toValue
  refine Schema.ofValue_eq_ok.mpr ⟨_, hkind, ?_⟩
  rw [hbody]
  cases s with
  | node n => exact Schema.ofBody_eq_ok.mpr (.inl ⟨rfl, n, Node.ofValue_toValue n hc ho, rfl⟩)
  | page p => exact Schema.ofBody_eq_ok.mpr (.inr ⟨rfl, p, Page.ofValue_toValue hc ho, rfl⟩)

/-- Reading undoes writing on canonical schemas, and every schema that is read is canonical: read,
written and read again it is the same schema of the same kind.  The handlers of a node that is read
have the names of the members they are read from, one each. -/
theorem Schema.reading_undoes_writing :
    (∀ s : Schema, s.Ordered → s.Canonical →
      Kind.ofValue s.toValue.normalize = .ok s.kind ∧ ofValue s.toValue.normalize = .ok s) ∧
    (∀ v s, ofValue v = .ok s → s.Canonical) ∧
    (∀ v s, v.Ordered → ofValue v = .ok s → s.Ordered ∧ ofValue s.toValue.normalize = .ok s) ∧
    ∀ ms hs, (Value.obj ms).Ordered → Handlers.ofValue (.obj ms) = .ok hs →
      ((Dict.keys hs).map Event.spelling).Perm (Dict.keys ms) := by
  refine ⟨fun s ho hc => ⟨s.kind_toValue.1, ofValue_toValue hc ho⟩,
    fun v s h => canonical_of_ofValue h, fun v s hv h => ?_,
    fun ms hs hm h => Handlers.spellings_perm hm.1.nodup h⟩
  have ho := ordered_of_ofValue hv h
  exact ⟨ho, ofValue_toValue (canonical_of_ofValue h) ho⟩

/-- A page whose parts are easily lost: empty props and content, an expected `null`, handlers of
unknown events and kinds, an entry of metadata that has no field. -/
def Schema.delicate : Schema :=
  .page
    { id := "", title := none
      metadata := some ⟨none, some [], [("og:image", .null)]⟩
      data := some []
      root := ⟨"Form", some [], .nodes [⟨"Text", none, .text "", some "a", none, some []⟩], none,
        some ⟨"a", .unknown "matches", some .null⟩,
        some [(.click, ⟨.navigate, none⟩), (.other "hover", ⟨.other "track", some []⟩)]⟩ }

theorem Schema.reading_undoes_writing_delicate :
    delicate.Ordered ∧ delicate.Canonical ∧
      ofValue delicate.toValue.normalize = .ok delicate := by
  have ho : delicate.Ordered := by
    simp only [delicate, Schema.Ordered, Page.Ordered, Node.Ordered, Node.Every, Content.Every,
      nodesEvery, Option.mem_def, Option.some.injEq, forall_eq', Handlers.Ordered,
      List.forall_mem_cons]
    simp [Gate.Ordered, Action.Ordered, Value.Ordered, Value.OrderedMembers, Dict.Ordered,
      Dict.keys]
    decide
  have hc : delicate.Canonical := by
    simp only [delicate, Schema.Canonical, Page.Canonical, Page.Metadata.Canonical,
      Node.Canonical, Node.Every, Content.Every, nodesEvery, Option.mem_def, Option.some.injEq,
      forall_eq', Handlers.Canonical, List.forall_mem_cons]
    simp [Gate.Canonical, Action.Canonical, Operator.Canonical, Operator.known, Operator.spelling,
      Action.Kind.Canonical, Action.Kind.known, Action.Kind.spelling, Event.Canonical,
      Event.known, Event.spelling, Dict.keys]
  exact ⟨ho, hc, (Schema.reading_undoes_writing.1 delicate ho hc).2⟩

end ServerUi
