import ServerUi.Proofs.Blueprint.Identity
import ServerUi.Proofs.Blueprint.Shown

/-!
# ServerUi.Proofs.Blueprint.Position — where in a view a node is shown

A position is a list of indices of children, in a tree of nodes as in a view.  The children of the
view of a node are the views of its children, or none where the node hides them
(`Node.children_view`), so an element stands in the view at the position of the node it shows and
under the identity of that node (`Node.exists_of_at?_view_element`).
-/

namespace ServerUi

/-! ### Positions in a view -/

namespace View

/-- The children of an element; nothing else has any. -/
def children : View → List View
  | element e => e.children
  | fragment children => children
  | _ => []

/-- The part of a view at a position. -/
def at? (v : View) : List Nat → Option View
  | [] => some v
  | i :: position => v.children[i]?.bind (·.at? position)

theorem at?_nil (v : View) : v.at? [] = some v := rfl

theorem at?_cons (v : View) (i : Nat) (position : List Nat) :
    v.at? (i :: position) = v.children[i]?.bind (·.at? position) := rfl

theorem at?_cons_eq_some {v x : View} {i : Nat} {position : List Nat} :
    v.at? (i :: position) = some x ↔ ∃ w, v.children[i]? = some w ∧ w.at? position = some x :=
  Option.bind_eq_some_iff

theorem preorder_eq (v : View) : v.preorder = v :: preorders v.children := by
  cases v with
  | element e => exact preorder_element e
  | _ => rfl

theorem mem_preorders {x : View} : ∀ {vs : List View},
    x ∈ preorders vs ↔ ∃ (i : Nat) (w : View), vs[i]? = some w ∧ x ∈ w.preorder
  | [] => by simp [preorders]
  | v :: rest => by
    rw [preorders, List.mem_append, mem_preorders]
    constructor
    · rintro (h | ⟨i, w, hw, h⟩)
      · exact ⟨0, v, rfl, h⟩
      · exact ⟨i + 1, w, hw, h⟩
    · rintro ⟨_ | i, w, hw, h⟩
      · obtain rfl := Option.some.inj hw
        exact .inl h
      · exact .inr ⟨i, w, hw, h⟩

/-- A child is smaller than its view, so recursion on children ends. -/
theorem sizeOf_lt_of_mem_children {v w : View} (h : w ∈ v.children) : sizeOf w < sizeOf v := by
  cases v with
  | element e =>
    obtain ⟨component, tag, key, attrs, handlers, children, void⟩ := e
    have hlt : sizeOf w < sizeOf children := List.sizeOf_lt_of_mem h
    simp only [element.sizeOf_spec, Element.mk.sizeOf_spec]
    omega
  | fragment children =>
    have hlt : sizeOf w < sizeOf children := List.sizeOf_lt_of_mem h
    simp only [fragment.sizeOf_spec]
    omega
  | _ => cases h

/-- Every part of a view stands at a position. -/
theorem mem_preorder_iff_at? (v x : View) : x ∈ v.preorder ↔ ∃ position, v.at? position = some x := by
  rw [preorder_eq, List.mem_cons, mem_preorders]
  constructor
  · rintro (rfl | ⟨i, w, hw, h⟩)
    · exact ⟨[], rfl⟩
    · have := sizeOf_lt_of_mem_children (List.mem_of_getElem? hw)
      obtain ⟨position, hx⟩ := (mem_preorder_iff_at? w x).mp h
      exact ⟨i :: position, at?_cons_eq_some.mpr ⟨w, hw, hx⟩⟩
  · rintro ⟨_ | ⟨i, position⟩, hx⟩
    · exact .inl (Option.some.inj hx).symm
    · obtain ⟨w, hw, hx⟩ := at?_cons_eq_some.mp hx
      have := sizeOf_lt_of_mem_children (List.mem_of_getElem? hw)
      exact .inr ⟨i, w, hw, (mem_preorder_iff_at? w x).mpr ⟨position, hx⟩⟩
termination_by sizeOf v

theorem mem_elements_iff_at? {v : View} {e : Element} :
    e ∈ v.elements ↔ ∃ position, v.at? position = some (element e) := by
  rw [mem_elements, mem_preorder_iff_at?]

end View

/-! ### Positions in a node -/

namespace Node

/-- The children of a node, none unless its content is a list of nodes. -/
def children (n : Node) : List Node :=
  match n.content with
  | .nodes nodes => nodes
  | _ => []

/-- The node at a position below `n`. -/
def at? (n : Node) : List Nat → Option Node
  | [] => some n
  | i :: position => n.children[i]?.bind (·.at? position)

/-- The identity of the child of `n` at an index, where `identity` is that of `n`. -/
def childIdentity (n : Node) (identity : String) (i : Nat) (child : Node) : String :=
  child.key.getD (positionalKey identity i (n.children.filterMap key))

/-- The identity of the node at a position below `n`, where `identity` is that of `n`. -/
def identityAt? (n : Node) (identity : String) : List Nat → Option String
  | [] => some identity
  | i :: position =>
    n.children[i]?.bind fun child => child.identityAt? (n.childIdentity identity i child) position

/-- The nodes above a position, from the top. -/
def ancestors (n : Node) : List Nat → List Node
  | [] => []
  | i :: position => n :: (n.children[i]?.map (·.ancestors position)).getD []

theorem exists_content_of_children {n child : Node} {i : Nat} (h : n.children[i]? = some child) :
    ∃ nodes, n.content = .nodes nodes ∧ nodes[i]? = some child := by
  unfold children at h
  split at h
  · rename_i nodes hcontent
    exact ⟨nodes, hcontent, h⟩
  · cases h

theorem children_of_content {n : Node} {nodes : List Node} (h : n.content = .nodes nodes) :
    n.children = nodes := by
  rw [children, h]

theorem at?_cons_eq_some {n part : Node} {i : Nat} {position : List Nat} :
    n.at? (i :: position) = some part ↔
      ∃ nodes child, n.content = .nodes nodes ∧ nodes[i]? = some child ∧
        child.at? position = some part := by
  rw [at?, Option.bind_eq_some_iff]
  constructor
  · rintro ⟨child, hchild, h⟩
    obtain ⟨nodes, hcontent, hchild⟩ := exists_content_of_children hchild
    exact ⟨nodes, child, hcontent, hchild, h⟩
  · rintro ⟨nodes, child, hcontent, hchild, h⟩
    exact ⟨child, by rwa [children_of_content hcontent], h⟩

section Child

variable {n child : Node} {nodes : List Node} {i : Nat} (hcontent : n.content = .nodes nodes)
  (hchild : nodes[i]? = some child)

include hcontent hchild

theorem at?_cons (position : List Nat) : n.at? (i :: position) = child.at? position := by
  rw [at?, children_of_content hcontent, hchild, Option.bind_some]

/-- The identity of a part is found from child to child. -/
theorem identityAt?_cons (identity : String) (position : List Nat) :
    n.identityAt? identity (i :: position) =
      child.identityAt? (n.childIdentity identity i child) position := by
  rw [identityAt?, children_of_content hcontent, hchild, Option.bind_some]

theorem ancestors_cons (position : List Nat) :
    n.ancestors (i :: position) = n :: child.ancestors position := by
  rw [ancestors, children_of_content hcontent, hchild]
  rfl

end Child

theorem exists_identityAt? {part : Node} : ∀ {position : List Nat} {n : Node} (key : String),
    n.at? position = some part → ∃ identity, n.identityAt? key position = some identity
  | [], _, key, _ => ⟨key, rfl⟩
  | i :: position, n, key, h => by
    obtain ⟨nodes, child, hcontent, hchild, h⟩ := at?_cons_eq_some.mp h
    rw [identityAt?_cons hcontent hchild]
    exact exists_identityAt? _ h

end Node

/-! ### The view of a node -/

section Views

variable {registry : Registry} {document : Value}

/-- What the component of a node is given under an identity. -/
def Node.input (registry : Registry) (document : Value) (n : Node) (key : String) : Input :=
  { component := n.component, key, document
    props := Members.fill (n.props.getD []) document
    handlers := n.wiredHandlers
    children :=
      if isChildless n.component then none
      else n.content.blueprint.views registry document key }

/-- One step of a view: gate, component, and the children under their identities. -/
theorem Node.view_blueprint_eq (n : Node) (key : String) :
    n.blueprint.view registry document key =
      if n.gate.all (·.opens document) then
        match registry.get? n.component with
        | none => .placeholder (.unknownComponent n.component)
        | some c => c.view (n.input registry document key)
      else .empty := by
  obtain ⟨component, props, content, key', gate, handlers⟩ := n
  rw [Node.blueprint, Blueprint.view]
  rfl

/-- No node below `n` is shown: its gate is closed, or its component is childless or not known. -/
def Node.hides (registry : Registry) (document : Value) (n : Node) : Bool :=
  !n.gate.all (·.opens document) || !registry.contains n.component || isChildless n.component

/-- The view of a sibling stands at the place of the sibling, shown or not. -/
theorem getElem?_viewSiblings {parent : String} {taken : List String} :
    ∀ {nodes : List Node} {index i : Nat},
      (viewSiblings registry document parent taken (blueprints nodes) index)[i]? =
        nodes[i]?.map fun child => child.blueprint.view registry document
          (child.key.getD (positionalKey parent (index + i) taken))
  | [], _, _ => by rw [blueprints, viewSiblings]; rfl
  | n :: rest, index, 0 => by
    rw [blueprints, viewSiblings, n.key_blueprint]
    rfl
  | n :: rest, index, i + 1 => by
    rw [blueprints, viewSiblings, List.getElem?_cons_succ, getElem?_viewSiblings,
      List.getElem?_cons_succ, Nat.add_right_comm, Nat.add_assoc]

/-- What is shown below a node is its content, if the node does not hide it. -/
theorem Node.children_view (hr : registry.AllAdapters) (n : Node) (key : String) :
    (n.blueprint.view registry document key).children =
      if n.hides registry document then []
      else (n.content.blueprint.views registry document key).getD [] := by
  rw [view_blueprint_eq, hides, Registry.contains]
  cases n.gate.all (·.opens document) with
  | false => rfl
  | true =>
    cases hc : registry.get? n.component with
    | none => rfl
    | some c =>
      -- an adapter keeps the children it is given, and a childless one is given none
      obtain ⟨e, he, hw⟩ := hr _ c hc (n.input registry document key)
      have hchildren : e.children = if isChildless n.component then []
          else (n.input registry document key).children.getD [] := hw.children
      have hinput : (n.input registry document key).children = if isChildless n.component then none
          else n.content.blueprint.views registry document key := rfl
      show View.children (if true = true then c.view _ else _) = _
      rw [if_pos rfl, he, View.children, hchildren, hinput]
      cases isChildless n.component <;> rfl

/-- Every child that the node does not hide is shown under its identity. -/
theorem Node.getElem?_children_view (hr : registry.AllAdapters) {n : Node} {nodes : List Node}
    (hcontent : n.content = .nodes nodes) (hn : n.hides registry document = false) (key : String)
    (i : Nat) :
    (n.blueprint.view registry document key).children[i]? = nodes[i]?.map fun child =>
      child.blueprint.view registry document (n.childIdentity key i child) := by
  rw [n.children_view hr, hn, if_neg (by decide), hcontent, Content.blueprint,
    BlueprintContent.views, Option.getD_some, getElem?_viewSiblings, givenKeys_blueprints,
    Nat.zero_add]
  simp only [childIdentity, children_of_content hcontent]

/-- What stands below the view of a node is its text or the view of one of its children. -/
theorem Node.cases_children_view (hr : registry.AllAdapters) {n : Node} {key : String} {i : Nat}
    {w : View} (h : (n.blueprint.view registry document key).children[i]? = some w) :
    isChildless n.component = false ∧ ((∃ text, w = .text text) ∨
      ∃ nodes child, n.content = .nodes nodes ∧ nodes[i]? = some child ∧
        w = child.blueprint.view registry document (n.childIdentity key i child)) := by
  cases hn : n.hides registry document with
  | true =>
    rw [n.children_view hr, hn, if_pos rfl] at h
    cases h
  | false =>
    have hchildless : isChildless n.component = false := (Bool.or_eq_false_iff.mp hn).2
    refine ⟨hchildless, ?_⟩
    cases hcontent : n.content with
    | absent =>
      rw [n.children_view hr, hn, if_neg (by decide), hcontent, Content.blueprint,
        BlueprintContent.views] at h
      cases h
    | text source =>
      rw [n.children_view hr, hn, if_neg (by decide), hcontent, Content.blueprint,
        BlueprintContent.views, Option.getD_some] at h
      exact .inl ⟨_, List.mem_singleton.mp (List.mem_of_getElem? h)⟩
    | nodes nodes =>
      rw [getElem?_children_view hr hcontent hn] at h
      obtain ⟨child, hchild, rfl⟩ := Option.map_eq_some_iff.mp h
      exact .inr ⟨nodes, child, rfl, hchild, rfl⟩

/-- Whatever stands at a position of a view, if it is not a text, is the view of the node at the
position under the identity of that node. -/
theorem Node.exists_of_at?_view (hr : registry.AllAdapters) :
    ∀ {position : List Nat} {n : Node} {key : String} {x : View},
      (n.blueprint.view registry document key).at? position = some x →
      (∃ text, x = .text text) ∨
        ∃ part identity, n.at? position = some part ∧ n.identityAt? key position = some identity ∧
          part.IsWithin n ∧ part.blueprint.view registry document identity = x
  | [], n, key, x, h => .inr ⟨n, key, rfl, rfl, .self, Option.some.inj h⟩
  | i :: position, n, key, x, h => by
    obtain ⟨w, hw, h⟩ := View.at?_cons_eq_some.mp h
    obtain ⟨hn, ⟨text, rfl⟩ | ⟨nodes, child, hcontent, hchild, rfl⟩⟩ := cases_children_view hr hw
    · cases position with
      | nil => exact .inl ⟨text, (Option.some.inj h).symm⟩
      | cons => cases h
    · obtain htext | ⟨part, identity, hpart, hidentity, hwithin, hview⟩ := exists_of_at?_view hr h
      · exact .inl htext
      · rw [at?_cons hcontent hchild, identityAt?_cons hcontent hchild]
        exact .inr ⟨part, identity, hpart, hidentity,
          .child hn hcontent (List.mem_of_getElem? hchild) hwithin, hview⟩

/-- An element stands where the node it shows stands, under the identity of that node. -/
theorem Node.exists_of_at?_view_element (hr : registry.AllAdapters) {position : List Nat}
    {n : Node} {key : String} {e : Element}
    (h : (n.blueprint.view registry document key).at? position = some (.element e)) :
    ∃ part identity, n.at? position = some part ∧ n.identityAt? key position = some identity ∧
      part.IsWithin n ∧ part.blueprint.view registry document identity = .element e := by
  obtain ⟨text, htext⟩ | hpart := exists_of_at?_view hr h
  · cases htext
  · exact hpart

/-- The view of the node at a position stands at that position, if no node above hides it. -/
theorem Node.at?_view (hr : registry.AllAdapters) : ∀ {position : List Nat} {n part : Node}
    {key identity : String}, n.at? position = some part →
      n.identityAt? key position = some identity →
      (n.ancestors position).any (·.hides registry document) = false →
      (n.blueprint.view registry document key).at? position =
        some (part.blueprint.view registry document identity)
  | [], _, _, _, _, hpart, hidentity, _ => by
    obtain rfl := Option.some.inj hpart
    obtain rfl := Option.some.inj hidentity
    rfl
  | i :: position, n, part, key, identity, hpart, hidentity, hshown => by
    obtain ⟨nodes, child, hcontent, hchild, hpart⟩ := at?_cons_eq_some.mp hpart
    rw [identityAt?_cons hcontent hchild] at hidentity
    rw [ancestors_cons hcontent hchild, List.any_cons, Bool.or_eq_false_iff] at hshown
    refine View.at?_cons_eq_some.mpr ⟨_, ?_, at?_view hr hpart hidentity hshown.2⟩
    rw [getElem?_children_view hr hcontent hshown.1, hchild, Option.map_some]

/-- An element is what the component of its node makes of the input of the node. -/
theorem Node.view_eq_element (hr : registry.AllAdapters) {n : Node} {key : String} {e : Element}
    (h : n.blueprint.view registry document key = .element e) :
    ∃ c, registry.get? n.component = some c ∧
      c.view (n.input registry document key) = .element e ∧
        Component.Wraps (n.input registry document key) e := by
  rw [view_blueprint_eq] at h
  split at h
  · cases hc : registry.get? n.component with
    | none =>
      rw [hc] at h
      cases h
    | some c =>
      rw [hc] at h
      obtain ⟨e', he', hw⟩ := hr _ c hc (n.input registry document key)
      obtain rfl : e = e' := View.element.inj (h.symm.trans he')
      exact ⟨c, rfl, h, hw⟩
  · cases h

end Views

end ServerUi
