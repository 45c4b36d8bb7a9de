import ServerUi.Proofs.Dict.Order
import ServerUi.Proofs.Schema.Accepted

/-!
# ServerUi.Proofs.Schema.Record — records as objects and as arrays

A record stands in a document as an object or as an array of its fields.  Either way it comes to a
list of members (`Record.Lists`), and the decoders read the same from the same members: one
equivalence for each record says what (`Node.ofValue_eq_ok` and its companions).
-/

namespace ServerUi

open Decode

namespace Record

/-- The fields of a record in the order of their declaration. -/
def fields : Record → List String
  | node => ["type", "props", "children", "key", "when", "on"]
  | gate => ["path", "operator", "value"]
  | action => ["type", "payload"]
  | page => ["id", "title", "meta", "data", "root"]
  | metadata => ["description", "keywords"]

/-- The members that a value gives a record: those of an object, or the items of an array as the
first fields of the record. -/
inductive Lists (r : Record) : Value → Members → Prop
  | object (ms : Members) : Lists r (.obj ms) ms
  | array {items : List Value} (h : items.length ≤ r.fields.length) :
      Lists r (.arr items) (r.fields.zip items)

theorem nodup_fields (r : Record) : r.fields.Nodup := by cases r <;> decide

theorem get?_zip_of_nodup {items : List Value} : ∀ {names : List String} {i : Nat} {name : String},
    names.Nodup → names[i]? = some name → Dict.get? name (names.zip items) = items[i]? := by
  induction items with
  | nil => simp
  | cons v items ih =>
    intro names i name hd hi
    cases names with
    | nil => cases hi
    | cons first names =>
      obtain ⟨hfirst, hd⟩ := List.nodup_cons.mp hd
      rw [List.zip_cons_cons, Dict.get?_cons]
      cases i with
      | zero =>
        obtain rfl := Option.some.inj hi
        exact if_pos rfl
      | succ i =>
        have hname : name ∈ names := List.mem_of_getElem? hi
        -- the name stands further behind, and no name stands twice
        have hne : name ≠ first := fun h => hfirst (h ▸ hname)
        rw [if_neg hne]
        exact ih hd hi

/-- The field of a record that is given as an array. -/
theorem get?_zip (r : Record) (items : List Value) {i : Nat} {name : String}
    (h : r.fields[i]? = some name) : Dict.get? name (r.fields.zip items) = items[i]? :=
  get?_zip_of_nodup r.nodup_fields h

section Lists

variable {r : Record} {P : Members → Prop}

theorem exists_lists_obj {ms : Members} : (∃ ms', r.Lists (.obj ms) ms' ∧ P ms') ↔ P ms := by
  constructor
  · rintro ⟨ms', hl, h⟩
    cases hl with
    | object => exact h
  · exact fun h => ⟨ms, .object ms, h⟩

/-- An array lists its items under the fields, as far as there are any. -/
theorem exists_lists_arr {items : List Value} :
    (∃ ms, r.Lists (.arr items) ms ∧ P ms) ↔
      items.length ≤ r.fields.length ∧ P (r.fields.zip items) := by
  constructor
  · rintro ⟨ms, hl, h⟩
    cases hl with
    | array hl => exact ⟨hl, h⟩
  · exact fun ⟨hl, h⟩ => ⟨_, .array hl, h⟩

/-- What a record lists is smaller than the record, so recursion on it ends. -/
theorem Lists.sizeOf_lt {v w : Value} {ms : Members} (h : r.Lists v ms) {name : String}
    (hw : Dict.get? name ms = some w) : sizeOf w < sizeOf v := by
  have hmem := Dict.mem_of_get? hw
  cases h with
  | object =>
    have hlt := List.sizeOf_lt_of_mem hmem
    simp only [Prod.mk.sizeOf_spec, Value.obj.sizeOf_spec] at hlt ⊢
    omega
  | array =>
    have hlt := List.sizeOf_lt_of_mem (List.of_mem_zip hmem).2
    simp only [Value.arr.sizeOf_spec]
    omega

end Lists

end Record

/-! ### What is read from the members -/

/-- The gate that the members list. -/
structure Gate.ReadFrom (g : Gate) (ms : Members) : Prop where
  path : Dict.get? "path" ms = some (.str g.path)
  operator : ∃ o, Dict.get? "operator" ms = some (.str o) ∧ g.operator = .ofSpelling o
  value : g.value = Dict.get? "value" ms

/-- The action that the members list. -/
structure Action.ReadFrom (a : Action) (ms : Members) : Prop where
  kind : ∃ k, Dict.get? "type" ms = some (.str k) ∧ a.kind = .ofSpelling k
  payload : nullable table (Dict.get? "payload" ms) = .ok a.payload

/-- The node that the members list. -/
structure Node.ReadFrom (n : Node) (ms : Members) : Prop where
  component : Dict.get? "type" ms = some (.str n.component)
  props : nullable table (Dict.get? "props" ms) = .ok n.props
  content : (Dict.get? "children" ms).elim (.ok .absent) Content.ofValue = .ok n.content
  key : nullable text (Dict.get? "key" ms) = .ok n.key
  gate : nullable Gate.ofValue (Dict.get? "when" ms) = .ok n.gate
  handlers : nullable Handlers.ofValue (Dict.get? "on" ms) = .ok n.handlers

/-- The page that the members list. -/
structure Page.ReadFrom (p : Page) (ms : Members) : Prop where
  id : ∃ id, present text (Dict.get? "id" ms) = .ok id ∧ p.id = id.getD ""
  title : nullable text (Dict.get? "title" ms) = .ok p.title
  metadata : nullable Page.Metadata.ofValue (Dict.get? "meta" ms) = .ok p.metadata
  data : nullable table (Dict.get? "data" ms) = .ok p.data
  root : ∃ v, Dict.get? "root" ms = some v ∧ Node.ofValue v = .ok p.root

/-- A gate is read from what lists its fields, in either form. -/
theorem Gate.ofValue_eq_ok {v : Value} {g : Gate} :
    Gate.ofValue v = .ok g ↔ ∃ ms, Record.gate.Lists v ms ∧ g.ReadFrom ms := by
  cases v with
  | obj ms =>
    rw [Gate.ofValue, Gate.ofMembers_eq_ok, Record.exists_lists_obj]
    constructor
    · rintro ⟨hp, ho, hv⟩
      exact ⟨hp, ho, hv⟩
    · exact fun h => ⟨h.path, h.operator, h.value⟩
  | arr items =>
    -- an item is what is found under the field of its position
    have hpath := Record.gate.get?_zip items (i := 0) rfl
    have hoperator := Record.gate.get?_zip items (i := 1) rfl
    have hvalue := Record.gate.get?_zip items (i := 2) rfl
    rw [Gate.ofValue, Gate.ofItems_eq_ok, Record.exists_lists_arr, ← hpath, ← hoperator, ← hvalue]
    constructor
    · rintro ⟨hp, ho, hv, hl⟩
      exact ⟨hl, hp, ho, hv⟩
    · rintro ⟨hl, h⟩
      exact ⟨h.path, h.operator, h.value, hl⟩
  | _ =>
    constructor
    · intro h
      cases h
    · rintro ⟨_, ⟨⟩, -⟩

theorem Action.ofValue_eq_ok {v : Value} {a : Action} :
    Action.ofValue v = .ok a ↔ ∃ ms, Record.action.Lists v ms ∧ a.ReadFrom ms := by
  cases v with
  | obj ms =>
    rw [Action.ofValue, Action.ofMembers_eq_ok, Record.exists_lists_obj]
    constructor
    · rintro ⟨hp, hk⟩
      exact ⟨hk, hp⟩
    · exact fun h => ⟨h.payload, h.kind⟩
  | arr items =>
    have hkind := Record.action.get?_zip items (i := 0) rfl
    have hpayload := Record.action.get?_zip items (i := 1) rfl
    rw [Action.ofValue, Action.ofItems_eq_ok, Record.exists_lists_arr, ← hkind, ← hpayload]
    constructor
    · rintro ⟨hp, hk, hl⟩
      exact ⟨hl, hk, hp⟩
    · rintro ⟨hl, h⟩
      exact ⟨h.payload, h.kind, hl⟩
  | _ =>
    constructor
    · intro h
      cases h
    · rintro ⟨_, ⟨⟩, -⟩

theorem contentItem_eq (items : List Value) :
    contentItem items = items[2]?.elim (.ok .absent) Content.ofValue := by
  rcases items with _ | ⟨v, _ | ⟨w, _ | ⟨x, rest⟩⟩⟩ <;> rfl

/-- A node is read from what lists its fields, in either form. -/
theorem Node.ofValue_eq_ok {v : Value} {n : Node} :
    Node.ofValue v = .ok n ↔ ∃ ms, Record.node.Lists v ms ∧ n.ReadFrom ms := by
  cases v with
  | obj ms =>
    rw [Node.ofValue, Node.ofMembers_eq_ok, contentMember_eq, Record.exists_lists_obj]
    constructor
    · rintro ⟨hc, hk, hh, hp, ht, hg⟩
      exact ⟨ht, hp, hc, hk, hg, hh⟩
    · exact fun h => ⟨h.content, h.key, h.handlers, h.props, h.component, h.gate⟩
  | arr items =>
    have hcomponent := Record.node.get?_zip items (i := 0) rfl
    have hprops := Record.node.get?_zip items (i := 1) rfl
    have hcontent := Record.node.get?_zip items (i := 2) rfl
    have hkey := Record.node.get?_zip items (i := 3) rfl
    have hgate := Record.node.get?_zip items (i := 4) rfl
    have hhandlers := Record.node.get?_zip items (i := 5) rfl
    rw [Node.ofValue, Node.ofItems_eq_ok, contentItem_eq, Record.exists_lists_arr, ← hcomponent,
      ← hprops, ← hcontent, ← hkey, ← hgate, ← hhandlers]
    constructor
    · rintro ⟨ht, hp, hc, hk, hg, hh, hl⟩
      exact ⟨hl, ht, hp, hc, hk, hg, hh⟩
    · rintro ⟨hl, h⟩
      exact ⟨h.component, h.props, h.content, h.key, h.gate, h.handlers, hl⟩
  | _ =>
    constructor
    · intro h
      simp [Node.ofValue, wrong] at h
    · rintro ⟨_, ⟨⟩, -⟩

theorem Page.ofValue_eq_ok {v : Value} {p : Page} :
    Page.ofValue v = .ok p ↔ ∃ ms, Record.page.Lists v ms ∧ p.ReadFrom ms := by
  cases v with
  | obj ms =>
    rw [Page.ofValue, Page.ofMembers_eq_ok, Record.exists_lists_obj]
    constructor
    · rintro ⟨hd, hi, hm, hr, ht⟩
      exact ⟨hi, ht, hm, hd, hr⟩
    · exact fun h => ⟨h.data, h.id, h.metadata, h.root, h.title⟩
  | arr items =>
    have hid := Record.page.get?_zip items (i := 0) rfl
    have htitle := Record.page.get?_zip items (i := 1) rfl
    have hmetadata := Record.page.get?_zip items (i := 2) rfl
    have hdata := Record.page.get?_zip items (i := 3) rfl
    have hroot := Record.page.get?_zip items (i := 4) rfl
    rw [Page.ofValue, Page.ofItems_eq_ok, Record.exists_lists_arr, ← hid, ← htitle, ← hmetadata,
      ← hdata, ← hroot]
    constructor
    · rintro ⟨hi, ht, hm, hd, hr, hl⟩
      exact ⟨hl, hi, ht, hm, hd, hr⟩
    · rintro ⟨hl, h⟩
      exact ⟨h.id, h.title, h.metadata, h.data, h.root, hl⟩
  | _ =>
    constructor
    · intro h
      cases h
    · rintro ⟨_, ⟨⟩, -⟩

end ServerUi
