import Mathlib.Order.Defs.Unbundled
import ServerUi.Proofs.Json.Order
import ServerUi.Schema.Basic

/-!
# ServerUi.Proofs.Schema.Canonical — schemas that have one written form

A schema is canonical when no unknown operator, kind or event holds a spelling that is known, and
when its metadata keeps no entry that has a field of its own.  It is ordered when its maps are maps:
members in key order, handlers in event order.
-/

namespace ServerUi

/-! ### Spellings -/

/-- An unknown operator is not spelled like a known one. -/
def Operator.Canonical : Operator → Prop
  | .unknown s => ∀ o ∈ known, o.spelling ≠ s
  | _ => True

/-- A kind of the host is not spelled like a known one. -/
def Action.Kind.Canonical : Action.Kind → Prop
  | .other s => ∀ k ∈ known, k.spelling ≠ s
  | _ => True

/-- Another event is not spelled like a known one. -/
def Event.Canonical : Event → Prop
  | .other s => ∀ e ∈ known, e.spelling ≠ s
  | _ => True

section Spelling

variable {α : Type} {spelling : α → String} {known : List α} {s : String}

/-- A spelling is unknown if nothing known is spelled so. -/
theorem find?_spelling_eq_none :
    known.find? (spelling · = s) = none ↔ ∀ a ∈ known, spelling a ≠ s := by
  simp

theorem spelling_of_find? {a : α} (h : known.find? (spelling · = s) = some a) :
    a ∈ known ∧ spelling a = s :=
  ⟨List.mem_of_find?_eq_some h, by simpa using List.find?_some h⟩

end Spelling

theorem Operator.ofSpelling_canonical (s : String) : (ofSpelling s).Canonical := by
  unfold ofSpelling
  cases h : known.find? (·.spelling = s) with
  | none => exact find?_spelling_eq_none.mp h
  | some o =>
    obtain ⟨ho, -⟩ := spelling_of_find? h
    cases o with
    | unknown => simp [known] at ho
    | _ => trivial

/-- A canonical operator is read back from its spelling. -/
theorem Operator.ofSpelling_spelling {o : Operator} (h : o.Canonical) :
    ofSpelling o.spelling = o := by
  cases o with
  | unknown s => rw [ofSpelling, spelling, find?_spelling_eq_none.mpr h]; rfl
  | _ => rfl

theorem Action.Kind.ofSpelling_canonical (s : String) : (ofSpelling s).Canonical := by
  unfold ofSpelling
  cases h : known.find? (·.spelling = s) with
  | none => exact find?_spelling_eq_none.mp h
  | some k =>
    obtain ⟨hk, -⟩ := spelling_of_find? h
    cases k with
    | other => simp [known] at hk
    | _ => trivial

theorem Action.Kind.ofSpelling_spelling {k : Action.Kind} (h : k.Canonical) :
    ofSpelling k.spelling = k := by
  cases k with
  | other s => rw [ofSpelling, spelling, find?_spelling_eq_none.mpr h]; rfl
  | _ => rfl

theorem Event.ofSpelling_canonical (s : String) : (ofSpelling s).Canonical := by
  unfold ofSpelling
  cases h : known.find? (·.spelling = s) with
  | none => exact find?_spelling_eq_none.mp h
  | some e =>
    obtain ⟨he, -⟩ := spelling_of_find? h
    cases e with
    | other => simp [known] at he
    | _ => trivial

/-- An event is spelled as it was read. -/
theorem Event.spelling_ofSpelling (s : String) : (ofSpelling s).spelling = s := by
  unfold ofSpelling
  cases h : known.find? (·.spelling = s) with
  | none => rfl
  | some e => exact (spelling_of_find? h).2

theorem Event.ofSpelling_spelling {e : Event} (h : e.Canonical) : ofSpelling e.spelling = e := by
  cases e with
  | other s => rw [ofSpelling, spelling, find?_spelling_eq_none.mpr h]; rfl
  | _ => rfl

/-! ### Event order -/

/-- Events are in the order of their ranks, and of their spellings among the unknown ones. -/
theorem Event.lt_iff {a b : Event} :
    a < b ↔ a.rank < b.rank ∨ ∃ s t, a = .other s ∧ b = .other t ∧ s < t := by
  show before a b = true ↔ _
  cases a <;> cases b <;> simp [before, rank]

instance : IsStrictTotalOrder Event (· < ·) where
  irrefl a h := by
    rcases Event.lt_iff.mp h with h | ⟨s, t, rfl, ht, h⟩
    · exact Nat.lt_irrefl _ h
    · cases ht
      exact String.lt_irrefl s h
  trans a b c hab hbc := by
    rw [Event.lt_iff] at hab hbc ⊢
    rcases hab with hab | ⟨s, t, rfl, rfl, hst⟩
    · rcases hbc with hbc | ⟨t, u, rfl, rfl, -⟩
      · exact .inl (hab.trans hbc)
      · exact .inl hab
    · rcases hbc with hbc | ⟨t, u, ht, rfl, htu⟩
      · exact .inl hbc
      · cases ht
        exact .inr ⟨s, u, rfl, rfl, String.lt_trans hst htu⟩
  trichotomous a b hab hba := by
    rw [Event.lt_iff, not_or] at hab hba
    have hrank : a.rank = b.rank := by omega
    -- known events differ in rank, so two of one rank are told apart by their spellings
    cases a <;> cases b <;> first | rfl | cases hrank
    rename_i s t
    have hst : ¬s < t := fun h => hab.2 ⟨s, t, rfl, rfl, h⟩
    have hts : ¬t < s := fun h => hba.2 ⟨t, s, rfl, rfl, h⟩
    rw [String.le_antisymm (String.not_lt.mp hts) (String.not_lt.mp hst)]

/-! ### Parts of a tree -/

mutual

/-- The props, gates and handlers of every node in the tree are of the given sorts. -/
def Node.Every (P : Members → Prop) (G : Gate → Prop) (H : Handlers → Prop) : Node → Prop
  | ⟨_, props, content, _, gate, handlers⟩ =>
    (∀ ms ∈ props, P ms) ∧ (∀ g ∈ gate, G g) ∧ (∀ hs ∈ handlers, H hs) ∧ content.Every P G H

/-- Every part of every node in the content. -/
def Content.Every (P : Members → Prop) (G : Gate → Prop) (H : Handlers → Prop) : Content → Prop
  | .nodes nodes => nodesEvery P G H nodes
  | _ => True

/-- Every part of each of the siblings. -/
def nodesEvery (P : Members → Prop) (G : Gate → Prop) (H : Handlers → Prop) : List Node → Prop
  | [] => True
  | n :: rest => n.Every P G H ∧ nodesEvery P G H rest

end

/-- It holds of every part of a node if it holds of its own parts and of its content. -/
theorem Node.every_iff {P : Members → Prop} {G : Gate → Prop} {H : Handlers → Prop} {n : Node} :
    n.Every P G H ↔ (∀ ms ∈ n.props, P ms) ∧ (∀ g ∈ n.gate, G g) ∧ (∀ hs ∈ n.handlers, H hs) ∧
      n.content.Every P G H := by
  obtain ⟨component, props, content, key, gate, handlers⟩ := n
  rw [Node.Every]

theorem nodesEvery_iff {P : Members → Prop} {G : Gate → Prop} {H : Handlers → Prop} :
    ∀ {nodes : List Node}, nodesEvery P G H nodes ↔ ∀ n ∈ nodes, n.Every P G H
  | [] => by simp [nodesEvery]
  | n :: rest => by rw [nodesEvery, nodesEvery_iff, List.forall_mem_cons]

section Decide

variable {P : Members → Prop} {G : Gate → Prop} {H : Handlers → Prop} [DecidablePred P]
  [DecidablePred G] [DecidablePred H]

mutual

/-- What can be decided of single parts can be decided of every part of a node. -/
def Node.decidableEvery : (n : Node) → Decidable (n.Every P G H)
  | ⟨_, props, content, _, gate, handlers⟩ =>
    have := content.decidableEvery
    inferInstanceAs (Decidable ((∀ ms ∈ props, P ms) ∧ (∀ g ∈ gate, G g) ∧ (∀ hs ∈ handlers, H hs) ∧
      content.Every P G H))

/-- Content is decided by its nodes. -/
def Content.decidableEvery : (content : Content) → Decidable (content.Every P G H)
  | .absent | .text _ => .isTrue trivial
  | .nodes nodes => decidableNodesEvery nodes

/-- Siblings are decided one by one. -/
def decidableNodesEvery : (nodes : List Node) → Decidable (nodesEvery P G H nodes)
  | [] => .isTrue trivial
  | n :: rest =>
    have := n.decidableEvery
    have := decidableNodesEvery rest
    inferInstanceAs (Decidable (n.Every P G H ∧ nodesEvery P G H rest))

end

end Decide

/-! ### Canonical schemas -/

/-- The operator is canonical. -/
def Gate.Canonical (g : Gate) : Prop := g.operator.Canonical

/-- The kind is canonical. -/
def Action.Canonical (a : Action) : Prop := a.kind.Canonical

/-- Every event and every action is canonical. -/
def Handlers.Canonical (handlers : Handlers) : Prop :=
  ∀ p ∈ handlers, p.1.Canonical ∧ p.2.Canonical

/-- Every gate and all handlers in the node are canonical. -/
def Node.Canonical (n : Node) : Prop := n.Every (fun _ => True) Gate.Canonical Handlers.Canonical

/-- The fields of metadata are not among its extra entries. -/
def Page.Metadata.Canonical (m : Page.Metadata) : Prop :=
  "description" ∉ Dict.keys m.extra ∧ "keywords" ∉ Dict.keys m.extra

/-- The metadata and the root are canonical. -/
def Page.Canonical (p : Page) : Prop := (∀ m ∈ p.metadata, m.Canonical) ∧ p.root.Canonical

/-- Whatever the schema is, its parts are canonical. -/
def Schema.Canonical : Schema → Prop
  | .node n => n.Canonical
  | .page p => p.Canonical

/-! ### Ordered schemas -/

/-- The value is in key order. -/
def Gate.Ordered (g : Gate) : Prop := ∀ v ∈ g.value, v.Ordered

/-- The payload is in key order. -/
def Action.Ordered (a : Action) : Prop := ∀ ms ∈ a.payload, (Value.obj ms).Ordered

/-- The handlers are in event order, and every action is in key order. -/
def Handlers.Ordered (handlers : Handlers) : Prop :=
  Dict.Ordered handlers ∧ ∀ p ∈ handlers, p.2.Ordered

instance (g : Gate) : Decidable g.Ordered := inferInstanceAs (Decidable (∀ v ∈ g.value, v.Ordered))

instance (a : Action) : Decidable a.Ordered :=
  inferInstanceAs (Decidable (∀ ms ∈ a.payload, (Value.obj ms).Ordered))

instance (handlers : Handlers) : Decidable handlers.Ordered :=
  inferInstanceAs (Decidable ((Dict.keys handlers).Pairwise (· < ·) ∧ ∀ p ∈ handlers, p.2.Ordered))

/-- Everything in the node is in its order. -/
def Node.Ordered (n : Node) : Prop :=
  n.Every (fun ms => (Value.obj ms).Ordered) Gate.Ordered Handlers.Ordered

instance : DecidablePred Node.Ordered := Node.decidableEvery

/-- Metadata, data and root are in their order. -/
def Page.Ordered (p : Page) : Prop :=
  (∀ m ∈ p.metadata, (Value.obj m.extra).Ordered) ∧ (∀ ms ∈ p.data, (Value.obj ms).Ordered) ∧
    p.root.Ordered

/-- Whatever the schema is, everything in it is in its order. -/
def Schema.Ordered : Schema → Prop
  | .node n => n.Ordered
  | .page p => p.Ordered

end ServerUi
