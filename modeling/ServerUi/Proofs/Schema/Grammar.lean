import ServerUi.Proofs.Schema.Record

/-!
# ServerUi.Proofs.Schema.Grammar — the documents that are schemas

A grammar of schema documents that says what stands where and nothing about reading.  A document
belongs to it exactly if it is read as a schema (`Schema.accepted_iff_isSchema`).
-/

namespace ServerUi

open Decode

/-! ### The grammar -/

/-- A member that has to be there. -/
def Members.Has (ms : Members) (name : String) (P : Value → Prop) : Prop :=
  ∃ v, Dict.get? name ms = some v ∧ P v

/-- A member that may be absent. -/
def Members.Allows (ms : Members) (name : String) (P : Value → Prop) : Prop :=
  ∀ v, Dict.get? name ms = some v → P v

namespace Value

/-- `null` is allowed too. -/
def OrNull (P : Value → Prop) (v : Value) : Prop := v = .null ∨ P v

/-- A text. -/
def IsText (v : Value) : Prop := ∃ s, v = .str s

/-- An object with any members. -/
def IsTable (v : Value) : Prop := ∃ ms, v = .obj ms

/-- An array of texts. -/
def IsTexts (v : Value) : Prop := ∃ items, v = .arr items ∧ ∀ w ∈ items, w.IsText

/-- A gate expects any value or none. -/
def IsGate (v : Value) : Prop :=
  ∃ ms, Record.gate.Lists v ms ∧ ms.Has "path" IsText ∧ ms.Has "operator" IsText

/-- A type, and a table as payload if there is any. -/
def IsAction (v : Value) : Prop :=
  ∃ ms, Record.action.Lists v ms ∧ ms.Has "type" IsText ∧ ms.Allows "payload" (OrNull IsTable)

/-- An object of actions. -/
def IsHandlers (v : Value) : Prop := ∃ ms, v = .obj ms ∧ ∀ p ∈ ms, p.2.IsAction

mutual

/-- A type and optional fields, each of its own form. -/
inductive IsNode : Value → Prop
  | intro {v : Value} {ms : Members} (lists : Record.node.Lists v ms)
      (component : ms.Has "type" IsText) (props : ms.Allows "props" (OrNull IsTable))
      (content : ∀ w, Dict.get? "children" ms = some w → IsContent w)
      (key : ms.Allows "key" (OrNull IsText)) (gate : ms.Allows "when" (OrNull IsGate))
      (handlers : ms.Allows "on" (OrNull IsHandlers)) : IsNode v

/-- `null`, a text, or an array of nodes. -/
inductive IsContent : Value → Prop
  | null : IsContent .null
  | text (source : String) : IsContent (.str source)
  | nodes {items : List Value} (h : ∀ v ∈ items, IsNode v) : IsContent (.arr items)

end

/-- An object whose description and keywords, if there are any, are texts. -/
def IsMetadata (v : Value) : Prop :=
  ∃ ms : Members, v = .obj ms ∧ ms.Allows "description" (OrNull IsText) ∧
    ms.Allows "keywords" (OrNull IsTexts)

/-- Unlike the other texts of a page its identifier is not `null`. -/
def IsPage (v : Value) : Prop :=
  ∃ ms, Record.page.Lists v ms ∧ ms.Has "root" IsNode ∧ ms.Allows "id" IsText ∧
    ms.Allows "title" (OrNull IsText) ∧ ms.Allows "meta" (OrNull IsMetadata) ∧
    ms.Allows "data" (OrNull IsTable)

end Value

/-- The kind that an object names, or else the kind its root tells. -/
inductive Schema.Kind.IsOf (ms : Members) : Schema.Kind → Prop
  | page (h : Dict.get? key ms = some (.str "page")) : IsOf ms .page
  | node (h : Dict.get? key ms = some (.str "node")) : IsOf ms .node
  | rooted (h : Dict.get? key ms = none) (hroot : "root" ∈ Dict.keys ms) : IsOf ms .page
  | rootless (h : Dict.get? key ms = none) (hroot : "root" ∉ Dict.keys ms) : IsOf ms .node

/-- An object of a kind that is a record of that kind, its member `__kind` aside. -/
inductive Value.IsSchema : Schema.Kind → Value → Prop
  | node {ms : Members} (kind : Schema.Kind.IsOf ms .node)
      (h : (Value.obj (Dict.erase Schema.Kind.key ms)).IsNode) : IsSchema .node (.obj ms)
  | page {ms : Members} (kind : Schema.Kind.IsOf ms .page)
      (h : (Value.obj (Dict.erase Schema.Kind.key ms)).IsPage) : IsSchema .page (.obj ms)

/-! ### Fields -/

namespace Decode

theorem exists_text_iff {v : Value} : (∃ s, text v = .ok s) ↔ v.IsText := by
  simp only [text_eq_ok, Value.IsText]

theorem exists_table_iff {v : Value} : (∃ ms, table v = .ok ms) ↔ v.IsTable := by
  simp only [table_eq_ok, Value.IsTable]

theorem exists_texts_iff {v : Value} : (∃ ss, texts v = .ok ss) ↔ v.IsTexts := by
  simp only [texts_eq_ok]
  constructor
  · rintro ⟨ss, rfl⟩
    refine ⟨_, rfl, fun w hw => ?_⟩
    obtain ⟨s, -, rfl⟩ := List.mem_map.mp hw
    exact ⟨s, rfl⟩
  · rintro ⟨items, rfl, hitems⟩
    induction items with
    | nil => exact ⟨[], rfl⟩
    | cons w items ih =>
      obtain ⟨⟨s, rfl⟩, hrest⟩ := List.forall_mem_cons.mp hitems
      obtain ⟨ss, hss⟩ := ih hrest
      exact ⟨s :: ss, by simpa using hss⟩

section Fields

variable {α : Type} {read : Value → Decoded α} {P : Value → Prop} {ms : Members} {name : String}

/-- An optional field that may be `null` is read exactly if it is absent, `null` or well formed. -/
theorem exists_nullable_iff (h : ∀ v, (∃ a, read v = .ok a) ↔ P v) :
    (∃ y, nullable read (Dict.get? name ms) = .ok y) ↔ ms.Allows name (Value.OrNull P) := by
  unfold Members.Allows Value.OrNull
  simp only [nullable_eq_ok, ← h]
  constructor
  · rintro ⟨y, ⟨hnone | hnull, -⟩ | ⟨w, a, hw, -, ha, -⟩⟩ v hv
    · rw [hnone] at hv
      cases hv
    · exact .inl (Option.some.inj (hv.symm.trans hnull))
    · exact .inr ⟨a, Option.some.inj (hw.symm.trans hv) ▸ ha⟩
  · intro hall
    cases hv : Dict.get? name ms with
    | none => exact ⟨none, .inl ⟨.inl rfl, rfl⟩⟩
    | some v =>
      by_cases hnull : v = .null
      · exact ⟨none, .inl ⟨.inr (hnull ▸ rfl), rfl⟩⟩
      · obtain ⟨a, ha⟩ := (hall v hv).resolve_left hnull
        exact ⟨some a, .inr ⟨v, a, rfl, hnull, ha, rfl⟩⟩

/-- An optional field that may not be `null` is read exactly if it is absent or well formed. -/
theorem exists_present_iff (h : ∀ v, (∃ a, read v = .ok a) ↔ P v) :
    (∃ y, present read (Dict.get? name ms) = .ok y) ↔ ms.Allows name P := by
  unfold Members.Allows
  simp only [present_eq_ok, ← h]
  constructor
  · rintro ⟨y, ⟨hnone, -⟩ | ⟨w, a, hw, ha, -⟩⟩ v hv
    · rw [hnone] at hv
      cases hv
    · exact ⟨a, Option.some.inj (hw.symm.trans hv) ▸ ha⟩
  · intro hall
    cases hv : Dict.get? name ms with
    | none => exact ⟨none, .inl ⟨rfl, rfl⟩⟩
    | some v =>
      obtain ⟨a, ha⟩ := hall v hv
      exact ⟨some a, .inr ⟨v, a, rfl, ha, rfl⟩⟩

end Fields

end Decode

/-! ### Gates and actions -/

theorem Gate.exists_ofValue_iff {v : Value} : (∃ g, Gate.ofValue v = .ok g) ↔ v.IsGate := by
  simp only [Gate.ofValue_eq_ok]
  constructor
  · rintro ⟨g, ms, hl, hpath, ⟨o, ho, -⟩, -⟩
    exact ⟨ms, hl, ⟨_, hpath, _, rfl⟩, _, ho, _, rfl⟩
  · rintro ⟨ms, hl, ⟨_, hpath, path, rfl⟩, _, ho, o, rfl⟩
    exact ⟨⟨path, .ofSpelling o, Dict.get? "value" ms⟩, ms, hl, hpath, ⟨o, ho, rfl⟩, rfl⟩

theorem Action.exists_ofValue_iff {v : Value} : (∃ a, Action.ofValue v = .ok a) ↔ v.IsAction := by
  simp only [Action.ofValue_eq_ok]
  constructor
  · rintro ⟨a, ms, hl, ⟨k, hk, -⟩, hpayload⟩
    have hp := (exists_nullable_iff fun _ => exists_table_iff).mp ⟨_, hpayload⟩
    exact ⟨ms, hl, ⟨_, hk, k, rfl⟩, hp⟩
  · rintro ⟨ms, hl, ⟨_, hk, k, rfl⟩, hpayload⟩
    obtain ⟨payload, hp⟩ := (exists_nullable_iff fun _ => exists_table_iff).mpr hpayload
    exact ⟨⟨.ofSpelling k, payload⟩, ms, hl, ⟨k, hk, rfl⟩, hp⟩

theorem Handlers.exists_ofMembers_iff {ms : Members} :
    (∃ hs, Handlers.ofMembers ms = .ok hs) ↔ ∀ p ∈ ms, p.2.IsAction := by
  simp only [Handlers.ofMembers_eq_ok, ← Action.exists_ofValue_iff]
  constructor
  · rintro ⟨_, entries, -, he⟩
    induction he with
    | nil => simp
    | cons hpq _ ih => exact List.forall_mem_cons.mpr ⟨⟨_, hpq.2⟩, ih⟩
  · intro hall
    have hentries : ∃ entries : Handlers, List.Forall₂
        (fun p q => q.1 = Event.ofSpelling p.1 ∧ Action.ofValue p.2 = .ok q.2) ms entries := by
      induction ms with
      | nil => exact ⟨[], .nil⟩
      | cons p ms ih =>
        obtain ⟨⟨a, ha⟩, hrest⟩ := List.forall_mem_cons.mp hall
        obtain ⟨entries, he⟩ := ih hrest
        exact ⟨(.ofSpelling p.1, a) :: entries, .cons ⟨rfl, ha⟩ he⟩
    obtain ⟨entries, he⟩ := hentries
    exact ⟨_, entries, rfl, he⟩

theorem Handlers.exists_ofValue_iff {v : Value} :
    (∃ hs, Handlers.ofValue v = .ok hs) ↔ v.IsHandlers := by
  cases v with
  | obj ms =>
    simp only [Handlers.ofValue, Value.IsHandlers, Value.obj.injEq, exists_eq_left']
    exact exists_ofMembers_iff
  | _ => simp [Handlers.ofValue, wrong, Value.IsHandlers]

/-! ### Nodes -/

mutual

/-- Nodes are read from what has the form of one, at any depth. -/
theorem Node.exists_ofValue_iff (v : Value) : (∃ n, Node.ofValue v = .ok n) ↔ v.IsNode := by
  simp only [Node.ofValue_eq_ok]
  constructor
  · rintro ⟨n, ms, hl, h⟩
    refine .intro hl ⟨_, h.component, _, rfl⟩ ?_ (fun w hw => ?_) ?_ ?_ ?_
    · exact (exists_nullable_iff fun _ => exists_table_iff).mp ⟨_, h.props⟩
    · -- the recursion is on the document, of which the content is a smaller part
      have hlt : sizeOf w < sizeOf v := hl.sizeOf_lt hw
      have hcontent := h.content
      rw [hw] at hcontent
      exact (Content.exists_ofValue_iff w).mp ⟨_, hcontent⟩
    · exact (exists_nullable_iff fun _ => exists_text_iff).mp ⟨_, h.key⟩
    · exact (exists_nullable_iff fun _ => Gate.exists_ofValue_iff).mp ⟨_, h.gate⟩
    · exact (exists_nullable_iff fun _ => Handlers.exists_ofValue_iff).mp ⟨_, h.handlers⟩
  · rintro @⟨_, ms, hl, ⟨_, hcomponent, component, rfl⟩, hprops, hcontent, hkey, hgate, hhandlers⟩
    obtain ⟨props, hp⟩ := (exists_nullable_iff fun _ => exists_table_iff).mpr hprops
    obtain ⟨key, hk⟩ := (exists_nullable_iff fun _ => exists_text_iff).mpr hkey
    obtain ⟨gate, hg⟩ := (exists_nullable_iff fun _ => Gate.exists_ofValue_iff).mpr hgate
    obtain ⟨handlers, hh⟩ :=
      (exists_nullable_iff fun _ => Handlers.exists_ofValue_iff).mpr hhandlers
    have hread : ∃ content,
        (Dict.get? "children" ms).elim (.ok .absent) Content.ofValue = .ok content := by
      cases hw : Dict.get? "children" ms with
      | none => exact ⟨.absent, rfl⟩
      | some w =>
        have hlt : sizeOf w < sizeOf v := hl.sizeOf_lt hw
        exact (Content.exists_ofValue_iff w).mpr (hcontent w hw)
    obtain ⟨content, hc⟩ := hread
    exact ⟨⟨component, props, content, key, gate, handlers⟩, ms, hl,
      ⟨hcomponent, hp, hc, hk, hg, hh⟩⟩
termination_by sizeOf v

/-- Content is read from what has the form of it. -/
theorem Content.exists_ofValue_iff (v : Value) :
    (∃ c, Content.ofValue v = .ok c) ↔ v.IsContent := by
  simp only [Content.ofValue_eq_ok]
  constructor
  · rintro ⟨c, ⟨rfl, -⟩ | ⟨source, rfl, -⟩ | ⟨items, nodes, rfl, hn, -⟩⟩
    · exact .null
    · exact .text source
    · exact .nodes ((exists_nodesOfValues_iff items).mp ⟨nodes, hn⟩)
  · intro h
    cases h with
    | null => exact ⟨_, .inl ⟨rfl, rfl⟩⟩
    | text source => exact ⟨_, .inr (.inl ⟨source, rfl, rfl⟩)⟩
    | @nodes items hitems =>
      obtain ⟨nodes, hn⟩ := (exists_nodesOfValues_iff items).mpr hitems
      exact ⟨_, .inr (.inr ⟨items, nodes, rfl, hn, rfl⟩)⟩
termination_by sizeOf v

theorem exists_nodesOfValues_iff (items : List Value) :
    (∃ ns, nodesOfValues items = .ok ns) ↔ ∀ v ∈ items, v.IsNode := by
  cases items with
  | nil => simp [nodesOfValues]
  | cons v items =>
    simp only [nodesOfValues_cons_eq_ok, List.forall_mem_cons, ← Node.exists_ofValue_iff v,
      ← exists_nodesOfValues_iff items]
    constructor
    · rintro ⟨_, n, rest, hn, hr, -⟩
      exact ⟨⟨n, hn⟩, rest, hr⟩
    · rintro ⟨⟨n, hn⟩, rest, hr⟩
      exact ⟨_, n, rest, hn, hr, rfl⟩
termination_by sizeOf items

end

/-! ### Pages and schemas -/

theorem Page.Metadata.exists_ofValue_iff {v : Value} :
    (∃ m, Page.Metadata.ofValue v = .ok m) ↔ v.IsMetadata := by
  simp only [Page.Metadata.ofValue_eq_ok, Value.IsMetadata,
    ← exists_nullable_iff fun _ => exists_text_iff, ← exists_nullable_iff fun _ => exists_texts_iff]
  constructor
  · rintro ⟨m, ms, rfl, hd, hk, -⟩
    exact ⟨ms, rfl, ⟨_, hd⟩, _, hk⟩
  · rintro ⟨ms, rfl, ⟨description, hd⟩, keywords, hk⟩
    exact ⟨⟨description, keywords, _⟩, ms, rfl, hd, hk, rfl⟩

/-- Pages are read from what has the form of one. -/
theorem Page.exists_ofValue_iff {v : Value} : (∃ p, Page.ofValue v = .ok p) ↔ v.IsPage := by
  simp only [Page.ofValue_eq_ok, Value.IsPage, ← exists_present_iff fun _ => exists_text_iff,
    ← exists_nullable_iff fun _ => exists_text_iff, ← exists_nullable_iff fun _ => exists_table_iff,
    ← exists_nullable_iff fun _ => Page.Metadata.exists_ofValue_iff]
  constructor
  · rintro ⟨p, ms, hl, ⟨id, hid, -⟩, htitle, hmetadata, hdata, w, hw, hroot⟩
    exact ⟨ms, hl, ⟨w, hw, (Node.exists_ofValue_iff w).mp ⟨_, hroot⟩⟩, ⟨id, hid⟩, ⟨_, htitle⟩,
      ⟨_, hmetadata⟩, _, hdata⟩
  · rintro ⟨ms, hl, ⟨w, hw, hroot⟩, ⟨id, hid⟩, ⟨title, ht⟩, ⟨metadata, hm⟩, data, hd⟩
    obtain ⟨root, hr⟩ := (Node.exists_ofValue_iff w).mpr hroot
    exact ⟨⟨id.getD "", title, metadata, data, root⟩, ms, hl, ⟨id, hid, rfl⟩, ht, hm, hd, w, hw, hr⟩

/-- The kind is given, or else decided by whether there is a root. -/
theorem Schema.Kind.ofValue_eq_ok {v : Value} {kind : Schema.Kind} :
    ofValue v = .ok kind ↔ ∃ ms, v = .obj ms ∧ IsOf ms kind := by
  cases v with
  | obj ms =>
    simp only [ofValue, Value.obj.injEq, exists_eq_left']
    constructor
    · intro h
      split at h
      · cases h
        exact .page ‹_›
      · cases h
        exact .node ‹_›
      · cases h
      · rename_i hkey
        split_ifs at h with hroot
        · cases h
          exact .rooted hkey (Dict.contains_iff.mp hroot)
        · cases h
          exact .rootless hkey fun hmem => hroot (Dict.contains_iff.mpr hmem)
    · intro h
      cases h with
      | page hkey =>
        rw [hkey]
        rfl
      | node hkey =>
        rw [hkey]
        rfl
      | rooted hkey hroot => rw [hkey, if_pos (Dict.contains_iff.mpr hroot)]
      | rootless hkey hroot => rw [hkey, if_neg fun h => hroot (Dict.contains_iff.mp h)]
  | _ => simp [ofValue]

/-- A document is read as a schema of a kind exactly if the grammar says so. -/
theorem Schema.accepted_iff_isSchema (v : Value) :
    ((∃ s, ofValue v = .ok s) ↔ ∃ kind, v.IsSchema kind) ∧
      ∀ kind, (∃ s, ofValue v = .ok s ∧ s.kind = kind) ↔ v.IsSchema kind := by
  have hkind : ∀ kind, (∃ s, ofValue v = .ok s ∧ s.kind = kind) ↔ v.IsSchema kind := by
    intro kind
    constructor
    · rintro ⟨s, hs, rfl⟩
      obtain ⟨kind, hk, hb⟩ := ofValue_eq_ok.mp hs
      obtain ⟨ms, rfl, hof⟩ := Kind.ofValue_eq_ok.mp hk
      obtain ⟨rfl, n, hn, rfl⟩ | ⟨rfl, p, hp, rfl⟩ := ofBody_eq_ok.mp hb
      · exact .node hof ((Node.exists_ofValue_iff _).mp ⟨n, hn⟩)
      · exact .page hof (Page.exists_ofValue_iff.mp ⟨p, hp⟩)
    · intro h
      cases h with
      | node hof h =>
        obtain ⟨n, hn⟩ := (Node.exists_ofValue_iff _).mpr h
        have hk := Kind.ofValue_eq_ok.mpr ⟨_, rfl, hof⟩
        exact ⟨.node n, ofValue_eq_ok.mpr ⟨_, hk, ofBody_eq_ok.mpr (.inl ⟨rfl, n, hn, rfl⟩)⟩, rfl⟩
      | page hof h =>
        obtain ⟨p, hp⟩ := Page.exists_ofValue_iff.mpr h
        have hk := Kind.ofValue_eq_ok.mpr ⟨_, rfl, hof⟩
        exact ⟨.page p, ofValue_eq_ok.mpr ⟨_, hk, ofBody_eq_ok.mpr (.inr ⟨rfl, p, hp, rfl⟩)⟩, rfl⟩
  refine ⟨⟨fun ⟨s, hs⟩ => ⟨s.kind, (hkind _).mp ⟨s, hs, rfl⟩⟩, fun ⟨kind, h⟩ => ?_⟩, hkind⟩
  obtain ⟨s, hs, -⟩ := (hkind kind).mpr h
  exact ⟨s, hs⟩

end ServerUi
