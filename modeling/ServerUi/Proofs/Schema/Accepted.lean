import Mathlib.Data.List.Forall2
import ServerUi.Schema.Load

/-!
# ServerUi.Proofs.Schema.Accepted — what each decoder accepts

One equivalence a decoder: it succeeds with a record exactly when the fields it looks up hold what
the record says.  Nothing else about a decoder is used elsewhere.
-/

namespace ServerUi

/-! ### Results -/

/-- Two steps succeed if the first does and the second does with its result. -/
theorem bind_eq_ok {ε α β : Type} {x : Except ε α} {f : α → Except ε β} {b : β} :
    (x >>= f) = .ok b ↔ ∃ a, x = .ok a ∧ f a = .ok b := by
  cases x with
  | error e => simp [bind, Except.bind]
  | ok a => simp [bind, Except.bind]

theorem pure_eq_ok {ε α : Type} {a b : α} : (pure a : Except ε α) = .ok b ↔ a = b :=
  ⟨fun h => by cases h; rfl, fun h => by rw [h]; rfl⟩

theorem map_eq_ok {ε α β : Type} {x : Except ε α} {f : α → β} {b : β} :
    x.map f = .ok b ↔ ∃ a, x = .ok a ∧ b = f a := by
  cases x <;> simp [Except.map, eq_comm]

theorem mapError_eq_ok {ε ε' α : Type} {x : Except ε α} {f : ε → ε'} {a : α} :
    x.mapError f = .ok a ↔ x = .ok a := by
  cases x <;> simp [Except.mapError]

theorem mapM_eq_ok {ε α β : Type} {f : α → Except ε β} :
    ∀ {as : List α} {bs : List β}, as.mapM f = .ok bs ↔ List.Forall₂ (fun a b => f a = .ok b) as bs
  | [], bs => by
    simp only [List.mapM_nil, pure_eq_ok, List.forall₂_nil_left_iff]
    exact eq_comm
  | a :: as, bs => by
    simp only [List.mapM_cons, bind_eq_ok, pure_eq_ok, List.forall₂_cons_left_iff]
    constructor
    · rintro ⟨b, hb, bs, hbs, rfl⟩
      exact ⟨b, bs, hb, mapM_eq_ok.mp hbs, rfl⟩
    · rintro ⟨b, bs, hb, hbs, rfl⟩
      exact ⟨b, hb, bs, mapM_eq_ok.mpr hbs, rfl⟩

theorem exists_left_of_forall₂ {α β : Type} {R : α → β → Prop} {as : List α} {bs : List β}
    (h : List.Forall₂ R as bs) {b : β} (hb : b ∈ bs) : ∃ a ∈ as, R a b := by
  induction h with
  | nil => cases hb
  | cons hab _ ih =>
    rcases List.mem_cons.mp hb with rfl | hb
    · exact ⟨_, List.mem_cons_self, hab⟩
    · obtain ⟨a, ha, hr⟩ := ih hb
      exact ⟨a, List.mem_cons_of_mem _ ha, hr⟩

/-! ### Fields -/

namespace Decode

theorem text_eq_ok {v : Value} {s : String} : text v = .ok s ↔ v = .str s := by
  cases v <;> simp [text, wrong]

theorem table_eq_ok {v : Value} {ms : Members} : table v = .ok ms ↔ v = .obj ms := by
  cases v <;> simp [table, wrong]

theorem texts_eq_ok {v : Value} {ss : List String} :
    texts v = .ok ss ↔ v = .arr (ss.map .str) := by
  cases v with
  | arr items =>
    simp only [texts, mapM_eq_ok, text_eq_ok, Value.arr.injEq]
    rw [← List.forall₂_eq_eq_eq, List.forall₂_map_right_iff]
  | _ => simp [texts, wrong]

variable {α : Type} {read : Value → Decoded α}

theorem present_eq_ok {x : Option Value} {y : Option α} :
    present read x = .ok y ↔
      (x = none ∧ y = none) ∨ ∃ v a, x = some v ∧ read v = .ok a ∧ y = some a := by
  cases x with
  | none => simp [present, eq_comm]
  | some v => simp [present, map_eq_ok]

/-- A field that may be absent or `null`, and what it holds otherwise. -/
theorem nullable_eq_ok {x : Option Value} {y : Option α} :
    nullable read x = .ok y ↔
      ((x = none ∨ x = some .null) ∧ y = none) ∨
        ∃ v a, x = some v ∧ v ≠ .null ∧ read v = .ok a ∧ y = some a := by
  rcases x with _ | v
  · simp [nullable, eq_comm]
  · cases v <;> simp [nullable, map_eq_ok, eq_comm (a := none)]

/-- What a field that may be absent or `null` holds has been read from somewhere. -/
theorem read_of_nullable {x : Option Value} {y : Option α} (h : nullable read x = .ok y) {a : α}
    (ha : a ∈ y) : ∃ v, x = some v ∧ read v = .ok a := by
  rcases nullable_eq_ok.mp h with ⟨-, rfl⟩ | ⟨v, b, hx, -, hv, rfl⟩
  · cases ha
  · cases ha
    exact ⟨v, hx, hv⟩

theorem required_eq_ok {field : String} {x : Option α} {a : α} :
    required field x = .ok a ↔ x = some a := by
  cases x <;> simp [required]

theorem present_eq_ok_some {x : Option Value} {a : α} :
    present read x = .ok (some a) ↔ ∃ v, x = some v ∧ read v = .ok a := by
  simp [present_eq_ok]

theorem item_eq_ok {record : Record} {items : List Value} {i : Nat} {a : α} :
    item record read items i = .ok a ↔ ∃ v, items[i]? = some v ∧ read v = .ok a := by
  unfold item
  cases items[i]? <;> simp

theorem atMost_eq_ok {record : Record} {items : List Value} {u : Unit} :
    atMost record items = .ok u ↔ items.length ≤ record.size := by
  unfold atMost
  split_ifs with h <;> simp [h]

end Decode

open Decode

/-! ### Gates and actions -/

/-- A gate is read from an object whenever its path and its operator are texts. -/
theorem Gate.ofMembers_eq_ok {ms : Members} {g : Gate} :
    Gate.ofMembers ms = .ok g ↔
      Dict.get? "path" ms = some (.str g.path) ∧
        (∃ o, Dict.get? "operator" ms = some (.str o) ∧ g.operator = .ofSpelling o) ∧
        g.value = Dict.get? "value" ms := by
  simp only [Gate.ofMembers, bind_eq_ok, pure_eq_ok, required_eq_ok]
  constructor
  · rintro ⟨_, ho, _, hp, path, rfl, o, rfl, rfl⟩
    simp only [present_eq_ok_some, text_eq_ok, exists_eq_right] at ho hp
    exact ⟨hp, ⟨o, ho, rfl⟩, rfl⟩
  · rintro ⟨hp, ⟨o, ho, hop⟩, hv⟩
    obtain ⟨path, operator, value⟩ := g
    subst hop hv
    refine ⟨some o, ?_, some path, ?_, path, rfl, o, rfl, rfl⟩
    · simpa [present_eq_ok_some, text_eq_ok] using ho
    · simpa [present_eq_ok_some, text_eq_ok] using hp

/-- The same from an array, in the order of the fields. -/
theorem Gate.ofItems_eq_ok {items : List Value} {g : Gate} :
    Gate.ofItems items = .ok g ↔
      items[0]? = some (.str g.path) ∧
        (∃ o, items[1]? = some (.str o) ∧ g.operator = .ofSpelling o) ∧
        g.value = items[2]? ∧ items.length ≤ 3 := by
  simp only [Gate.ofItems, bind_eq_ok, pure_eq_ok, item_eq_ok, text_eq_ok, atMost_eq_ok,
    exists_eq_right]
  constructor
  · rintro ⟨path, hp, o, ho, _, hl, rfl⟩
    exact ⟨hp, ⟨o, ho, rfl⟩, rfl, hl⟩
  · rintro ⟨hp, ⟨o, ho, hop⟩, hv, hl⟩
    obtain ⟨path, operator, value⟩ := g
    subst hop hv
    exact ⟨path, hp, o, ho, (), hl, rfl⟩

/-- An action is read from an object whenever its type is a text and its payload, if there is any, a
table. -/
theorem Action.ofMembers_eq_ok {ms : Members} {a : Action} :
    Action.ofMembers ms = .ok a ↔
      nullable table (Dict.get? "payload" ms) = .ok a.payload ∧
        ∃ k, Dict.get? "type" ms = some (.str k) ∧ a.kind = .ofSpelling k := by
  simp only [Action.ofMembers, bind_eq_ok, pure_eq_ok, required_eq_ok]
  constructor
  · rintro ⟨payload, hp, _, hk, k, rfl, rfl⟩
    simp only [present_eq_ok_some, text_eq_ok, exists_eq_right] at hk
    exact ⟨hp, k, hk, rfl⟩
  · rintro ⟨hp, k, hk, hkind⟩
    obtain ⟨kind, payload⟩ := a
    subst hkind
    refine ⟨payload, hp, some k, ?_, k, rfl, rfl⟩
    simpa [present_eq_ok_some, text_eq_ok] using hk

theorem Action.ofItems_eq_ok {items : List Value} {a : Action} :
    Action.ofItems items = .ok a ↔
      nullable table items[1]? = .ok a.payload ∧
        (∃ k, items[0]? = some (.str k) ∧ a.kind = .ofSpelling k) ∧ items.length ≤ 2 := by
  simp only [Action.ofItems, bind_eq_ok, pure_eq_ok, item_eq_ok, text_eq_ok, atMost_eq_ok,
    exists_eq_right]
  constructor
  · rintro ⟨k, hk, payload, hp, _, hl, rfl⟩
    exact ⟨hp, ⟨k, hk, rfl⟩, hl⟩
  · rintro ⟨hp, ⟨k, hk, hkind⟩, hl⟩
    obtain ⟨kind, payload⟩ := a
    subst hkind
    exact ⟨k, hk, payload, hp, (), hl, rfl⟩

/-- Handlers are read from an object whenever each of its members is an action; of two names of one
event the last counts. -/
theorem Handlers.ofMembers_eq_ok {ms : Members} {hs : Handlers} :
    Handlers.ofMembers ms = .ok hs ↔
      ∃ entries : Handlers, hs = Dict.ofList entries ∧
        List.Forall₂ (fun p q => q.1 = Event.ofSpelling p.1 ∧ Action.ofValue p.2 = .ok q.2)
          ms entries := by
  -- what is read of one member
  have hentry : ∀ (p : String × Value) (q : Event × Action),
      (do return (Event.ofSpelling p.1, ← Action.ofValue p.2) : Decoded (Event × Action)) = .ok q ↔
        q.1 = Event.ofSpelling p.1 ∧ Action.ofValue p.2 = .ok q.2 := fun p (event, action) => by
    simp only [bind_eq_ok, pure_eq_ok, Prod.mk.injEq]
    constructor
    · rintro ⟨_, ha, rfl, rfl⟩
      exact ⟨rfl, ha⟩
    · rintro ⟨rfl, ha⟩
      exact ⟨action, ha, rfl, rfl⟩
  simp only [Handlers.ofMembers, bind_eq_ok, pure_eq_ok, mapM_eq_ok, hentry]
  constructor
  · rintro ⟨entries, he, rfl⟩
    exact ⟨entries, rfl, he⟩
  · rintro ⟨entries, rfl, he⟩
    exact ⟨entries, he, rfl⟩

/-! ### Nodes -/

theorem contentMember_eq : ∀ ms : Members,
    contentMember ms = (Dict.get? "children" ms).elim (.ok .absent) Content.ofValue
  | [] => rfl
  | (name, v) :: ms => by
    rw [contentMember, Dict.get?_cons, contentMember_eq ms]
    by_cases h : name = "children"
    · simp [h]
    · simp [h, Ne.symm h]

/-- A node is read from an object field by field; only its type is required. -/
theorem Node.ofMembers_eq_ok {ms : Members} {content : Decoded Content} {n : Node} :
    Node.ofMembers ms content = .ok n ↔
      content = .ok n.content ∧
        nullable text (Dict.get? "key" ms) = .ok n.key ∧
        nullable Handlers.ofValue (Dict.get? "on" ms) = .ok n.handlers ∧
        nullable table (Dict.get? "props" ms) = .ok n.props ∧
        Dict.get? "type" ms = some (.str n.component) ∧
        nullable Gate.ofValue (Dict.get? "when" ms) = .ok n.gate := by
  simp only [Node.ofMembers, bind_eq_ok, pure_eq_ok, required_eq_ok]
  constructor
  · rintro ⟨c, hc, key, hk, handlers, hh, props, hp, _, ht, gate, hg, component, rfl, rfl⟩
    simp only [present_eq_ok_some, text_eq_ok, exists_eq_right] at ht
    exact ⟨hc, hk, hh, hp, ht, hg⟩
  · rintro ⟨hc, hk, hh, hp, ht, hg⟩
    obtain ⟨component, props, content, key, gate, handlers⟩ := n
    refine ⟨content, hc, key, hk, handlers, hh, props, hp, some component, ?_, gate, hg, component,
      rfl, rfl⟩
    simpa [present_eq_ok_some, text_eq_ok] using ht

theorem Node.ofItems_eq_ok {items : List Value} {content : Decoded Content} {n : Node} :
    Node.ofItems items content = .ok n ↔
      items[0]? = some (.str n.component) ∧
        nullable table items[1]? = .ok n.props ∧
        content = .ok n.content ∧
        nullable text items[3]? = .ok n.key ∧
        nullable Gate.ofValue items[4]? = .ok n.gate ∧
        nullable Handlers.ofValue items[5]? = .ok n.handlers ∧ items.length ≤ 6 := by
  simp only [Node.ofItems, bind_eq_ok, pure_eq_ok, item_eq_ok, text_eq_ok, atMost_eq_ok,
    exists_eq_right]
  constructor
  · rintro ⟨component, ht, props, hp, c, hc, key, hk, gate, hg, handlers, hh, _, hl, rfl⟩
    exact ⟨ht, hp, hc, hk, hg, hh, hl⟩
  · rintro ⟨ht, hp, hc, hk, hg, hh, hl⟩
    obtain ⟨component, props, content, key, gate, handlers⟩ := n
    exact ⟨component, ht, props, hp, content, hc, key, hk, gate, hg, handlers, hh, (), hl, rfl⟩

theorem Content.ofValue_eq_ok {v : Value} {c : Content} :
    Content.ofValue v = .ok c ↔
      (v = .null ∧ c = .absent) ∨ (∃ source, v = .str source ∧ c = .text source) ∨
        ∃ items nodes, v = .arr items ∧ nodesOfValues items = .ok nodes ∧ c = .nodes nodes := by
  cases v with
  | arr items => cases h : nodesOfValues items <;> simp [Content.ofValue, h, eq_comm]
  | _ => simp [Content.ofValue, eq_comm]

theorem nodesOfValues_cons_eq_ok {v : Value} {vs : List Value} {ns : List Node} :
    nodesOfValues (v :: vs) = .ok ns ↔
      ∃ n rest, Node.ofValue v = .ok n ∧ nodesOfValues vs = .ok rest ∧ ns = n :: rest := by
  simp only [nodesOfValues, bind_eq_ok, pure_eq_ok]
  constructor
  · rintro ⟨n, hn, rest, hr, rfl⟩
    exact ⟨n, rest, hn, hr, rfl⟩
  · rintro ⟨n, rest, hn, hr, rfl⟩
    exact ⟨n, hn, rest, hr, rfl⟩

theorem nodesOfValues_eq_ok {vs : List Value} {ns : List Node} :
    nodesOfValues vs = .ok ns ↔ List.Forall₂ (fun v n => Node.ofValue v = .ok n) vs ns := by
  induction vs generalizing ns with
  | nil =>
    rw [nodesOfValues, List.forall₂_nil_left_iff, Except.ok.injEq]
    exact eq_comm
  | cons v vs ih => simp only [nodesOfValues_cons_eq_ok, ih, List.forall₂_cons_left_iff]

/-! ### Pages and schemas -/

/-- Metadata is read from an object alone; what it does not know it keeps. -/
theorem Page.Metadata.ofValue_eq_ok {v : Value} {m : Page.Metadata} :
    Page.Metadata.ofValue v = .ok m ↔
      ∃ ms, v = .obj ms ∧ nullable text (Dict.get? "description" ms) = .ok m.description ∧
        nullable texts (Dict.get? "keywords" ms) = .ok m.keywords ∧
        m.extra = Dict.erase "keywords" (Dict.erase "description" ms) := by
  cases v with
  | obj ms =>
    simp only [Page.Metadata.ofValue, bind_eq_ok, pure_eq_ok, Value.obj.injEq]
    constructor
    · rintro ⟨_, hd, _, hk, rfl⟩
      exact ⟨ms, rfl, hd, hk, rfl⟩
    · rintro ⟨_, rfl, hd, hk, he⟩
      obtain ⟨description, keywords, extra⟩ := m
      subst he
      exact ⟨description, hd, keywords, hk, rfl⟩
  | _ => simp [Page.Metadata.ofValue, wrong]

/-- A page is read from an object field by field; only its root is required. -/
theorem Page.ofMembers_eq_ok {ms : Members} {p : Page} :
    Page.ofMembers ms = .ok p ↔
      nullable table (Dict.get? "data" ms) = .ok p.data ∧
        (∃ id, present text (Dict.get? "id" ms) = .ok id ∧ p.id = id.getD "") ∧
        nullable Page.Metadata.ofValue (Dict.get? "meta" ms) = .ok p.metadata ∧
        (∃ v, Dict.get? "root" ms = some v ∧ Node.ofValue v = .ok p.root) ∧
        nullable text (Dict.get? "title" ms) = .ok p.title := by
  simp only [Page.ofMembers, bind_eq_ok, pure_eq_ok, required_eq_ok]
  constructor
  · rintro ⟨data, hd, id, hi, metadata, hm, _, hr, title, ht, root, rfl, rfl⟩
    exact ⟨hd, ⟨id, hi, rfl⟩, hm, present_eq_ok_some.mp hr, ht⟩
  · rintro ⟨hd, ⟨id, hi, hid⟩, hm, hr, ht⟩
    obtain ⟨_, title, metadata, data, root⟩ := p
    subst hid
    exact ⟨data, hd, id, hi, metadata, hm, some root, present_eq_ok_some.mpr hr, title, ht, root,
      rfl, rfl⟩

theorem Page.ofItems_eq_ok {items : List Value} {p : Page} :
    Page.ofItems items = .ok p ↔
      (∃ id, present text items[0]? = .ok id ∧ p.id = id.getD "") ∧
        nullable text items[1]? = .ok p.title ∧
        nullable Page.Metadata.ofValue items[2]? = .ok p.metadata ∧
        nullable table items[3]? = .ok p.data ∧
        (∃ v, items[4]? = some v ∧ Node.ofValue v = .ok p.root) ∧ items.length ≤ 5 := by
  simp only [Page.ofItems, bind_eq_ok, pure_eq_ok, item_eq_ok, atMost_eq_ok]
  constructor
  · rintro ⟨id, hi, title, ht, metadata, hm, data, hd, root, hr, _, hl, rfl⟩
    exact ⟨⟨id, hi, rfl⟩, ht, hm, hd, hr, hl⟩
  · rintro ⟨⟨id, hi, hid⟩, ht, hm, hd, hr, hl⟩
    obtain ⟨_, title, metadata, data, root⟩ := p
    subst hid
    exact ⟨id, hi, title, ht, metadata, hm, data, hd, root, hr, (), hl, rfl⟩

/-- A schema is read by finding out its kind first. -/
theorem Schema.ofValue_eq_ok {v : Value} {s : Schema} :
    Schema.ofValue v = .ok s ↔
      ∃ kind, Schema.Kind.ofValue v = .ok kind ∧ Schema.ofBody kind (Schema.body v) = .ok s := by
  simp only [Schema.ofValue, bind_eq_ok, mapError_eq_ok]

/-- What is read is a node or a page, according to the kind. -/
theorem Schema.ofBody_eq_ok {kind : Schema.Kind} {v : Value} {s : Schema} :
    Schema.ofBody kind v = .ok s ↔
      (kind = .node ∧ ∃ n, Node.ofValue v = .ok n ∧ s = .node n) ∨
        (kind = .page ∧ ∃ p, Page.ofValue v = .ok p ∧ s = .page p) := by
  cases kind <;> simp [Schema.ofBody, map_eq_ok]

end ServerUi
