import Mathlib.Data.List.Nodup
import ServerUi.Proofs.Blueprint.Sibling

/-!
# ServerUi.Proofs.Blueprint.Stability — identities from one view to the next

The identity of a node is made of the keys and positions of the nodes above it, so no document has a
part in it and a node is viewed under the same identity every time.  Where no node below the root is
given a key, an identity is the root's with the position behind it (`Node.identityAt?_of_keysBelow`).
A written position can be read back, whatever the root's key looks like, so no two elements of a
view then have one key.
-/

namespace ServerUi

/-! ### Keys below a node -/

mutual

/-- The keys that are given below a node. -/
def Node.keysBelow : Node → List String
  | ⟨_, _, content, _, _, _⟩ => content.keys

/-- The keys that are given in the content and below. -/
def Content.keys : Content → List String
  | .nodes nodes => keysOfNodes nodes
  | _ => []

/-- The keys that are given by siblings and below them. -/
def keysOfNodes : List Node → List String
  | [] => []
  | n :: rest => n.key.toList ++ n.keysBelow ++ keysOfNodes rest

end

theorem keysOfNodes_eq_nil_iff : ∀ {nodes : List Node},
    keysOfNodes nodes = [] ↔ ∀ child ∈ nodes, child.key = none ∧ child.keysBelow = []
  | [] => by simp [keysOfNodes]
  | n :: rest => by
    rw [keysOfNodes, List.append_eq_nil_iff, List.append_eq_nil_iff, keysOfNodes_eq_nil_iff,
      List.forall_mem_cons, Option.toList_eq_nil_iff]

/-- No key is given below a node exactly if none of its children has one or gives one below. -/
theorem Node.keysBelow_eq_nil_iff {n : Node} :
    n.keysBelow = [] ↔ ∀ child ∈ n.children, child.key = none ∧ child.keysBelow = [] := by
  obtain ⟨component, props, content, key, gate, handlers⟩ := n
  cases content with
  | nodes nodes =>
    rw [keysBelow, Content.keys]
    exact keysOfNodes_eq_nil_iff
  | _ => simp [keysBelow, Content.keys, children]

/-! ### Positions as text -/

/-- The indices of a position, a dot before each. -/
def dotted (position : List Nat) : String := String.join (position.map fun i => "." ++ toString i)

theorem dotted_cons (i : Nat) (position : List Nat) :
    dotted (i :: position) = "." ++ toString i ++ dotted position := by
  rw [← String.toList_inj]
  simp [dotted, String.toList_join]

theorem toList_dotted (position : List Nat) :
    (dotted position).toList = position.flatMap fun i => ['.'] ++ (Nat.toDigits 10 i ++ []) := by
  rw [dotted, String.toList_join, List.flatMap_map]
  refine List.flatMap_congr fun i _ => ?_
  rw [String.toList_append, Decimal.toList_toString, List.append_nil]
  rfl

/-- A written position can be read back. -/
theorem dotted_injective : Function.Injective dotted := by
  intro position position' h
  have hlist := congrArg String.toList h
  rw [toList_dotted, toList_dotted] at hlist
  have hends : Decimal.EndsDigits ([] ++ ['.']) := by
    rintro c ⟨⟩
    decide
  exact Decimal.flatMap_toDigits_injective (by decide) hends hlist

theorem positionalKey_nil (parent : String) (index : Nat) :
    positionalKey parent index [] = parent ++ "." ++ toString index := rfl

/-- Where no key is given below a node, the identity of a part is that of the node with the position
behind it. -/
theorem Node.identityAt?_of_keysBelow : ∀ {position : List Nat} {n part : Node} (identity : String),
    n.keysBelow = [] → n.at? position = some part →
      n.identityAt? identity position = some (identity ++ dotted position)
  | [], _, _, identity, _, _ => by
    rw [identityAt?]
    exact congrArg some String.append_empty.symm
  | i :: position, n, part, identity, hkeys, h => by
    obtain ⟨nodes, child, hcontent, hchild, hpart⟩ := at?_cons_eq_some.mp h
    rw [keysBelow_eq_nil_iff, children_of_content hcontent] at hkeys
    obtain ⟨hkey, hbelow⟩ := hkeys child (List.mem_of_getElem? hchild)
    have hgiven : n.children.filterMap key = [] := by
      rw [children_of_content hcontent, List.filterMap_eq_nil_iff]
      exact fun sibling hsibling => (hkeys sibling hsibling).1
    rw [identityAt?_cons hcontent hchild, childIdentity, hkey, hgiven, Option.getD_none,
      positionalKey_nil, identityAt?_of_keysBelow _ hbelow hpart, dotted_cons]
    simp only [String.append_assoc]

/-! ### Parts of a view told apart -/

namespace View

theorem preorders_eq_flatMap : ∀ vs : List View, preorders vs = vs.flatMap preorder
  | [] => rfl
  | v :: rest => by rw [preorders, preorders_eq_flatMap rest, List.flatMap_cons]

/-- What tells the positions of a view apart tells its parts apart. -/
theorem nodup_filterMap_preorder {α : Type} {f : View → Option α} (v : View)
    (h : ∀ p q x y a, v.at? p = some x → v.at? q = some y → f x = some a → f y = some a → p = q) :
    (v.preorder.filterMap f).Nodup := by
  have hbelow (i : Nat) (w : View) (hw : v.children[i]? = some w) (a : α)
      (ha : a ∈ w.preorder.filterMap f) :
      ∃ p x, v.at? (i :: p) = some x ∧ f x = some a := by
    obtain ⟨x, hx, hfx⟩ := List.mem_filterMap.mp ha
    obtain ⟨p, hp⟩ := (mem_preorder_iff_at? w x).mp hx
    exact ⟨p, x, at?_cons_eq_some.mpr ⟨w, hw, hp⟩, hfx⟩
  -- what stands below different children stands at different positions
  have hrest : ((preorders v.children).filterMap f).Nodup := by
    rw [preorders_eq_flatMap, List.filterMap_flatMap, List.nodup_flatMap]
    refine ⟨fun w hw => ?_, List.pairwise_iff_getElem.mpr fun i j hi hj hij => ?_⟩
    · have := sizeOf_lt_of_mem_children hw
      obtain ⟨i, hi⟩ := List.getElem?_of_mem hw
      refine nodup_filterMap_preorder w fun p q x y a hp hq hx hy => ?_
      exact (List.cons.inj (h (i :: p) (i :: q) x y a (at?_cons_eq_some.mpr ⟨w, hi, hp⟩)
        (at?_cons_eq_some.mpr ⟨w, hi, hq⟩) hx hy)).2
    · intro a ha ha'
      obtain ⟨p, x, hp, hx⟩ := hbelow i _ (List.getElem?_eq_getElem hi) a ha
      obtain ⟨q, y, hq, hy⟩ := hbelow j _ (List.getElem?_eq_getElem hj) a ha'
      exact Nat.ne_of_lt hij (List.cons.inj (h _ _ _ _ _ hp hq hx hy)).1
  rw [preorder_eq]
  cases hv : f v with
  | none => rwa [List.filterMap_cons_none hv]
  | some a =>
    rw [List.filterMap_cons_some hv, List.nodup_cons]
    -- the view itself stands at the empty position, and nothing below it does
    refine ⟨fun ha => ?_, hrest⟩
    obtain ⟨x, hx, hfx⟩ := List.mem_filterMap.mp ha
    obtain ⟨i, w, hw, hx⟩ := mem_preorders.mp hx
    obtain ⟨p, y, hp, hy⟩ := hbelow i w hw a (List.mem_filterMap.mpr ⟨x, hx, hfx⟩)
    cases h [] (i :: p) v y a rfl hp hv hy
termination_by sizeOf v

end View

/-! ### Elements -/

section Views

variable {registry : Registry} {document : Value}

/-- An element is shown under the identity of the node at its position. -/
theorem Node.key_of_at?_view (hr : registry.AllAdapters) {n : Node} {identity : String}
    {position : List Nat} {e : Element}
    (h : (n.blueprint.view registry document identity).at? position = some (.element e)) :
    (n.at? position).isSome ∧ e.key = n.identityAt? identity position := by
  obtain ⟨part, k, hpart, hidentity, -, hview⟩ := exists_of_at?_view_element hr h
  rw [hpart, hidentity, key_of_view_eq_element hr hview]
  exact ⟨rfl, rfl⟩

theorem Node.key_of_keysBelow (hr : registry.AllAdapters) {n : Node} (hkeys : n.keysBelow = [])
    {identity : String} {position : List Nat} {e : Element}
    (h : (n.blueprint.view registry document identity).at? position = some (.element e)) :
    e.key = some (identity ++ dotted position) := by
  obtain ⟨hsome, hkey⟩ := key_of_at?_view hr h
  obtain ⟨part, hpart⟩ := Option.isSome_iff_exists.mp hsome
  rw [hkey, identityAt?_of_keysBelow identity hkeys hpart]

/-- Where no key is given below a node, no two elements of its view have one key. -/
theorem Node.nodup_keys_of_keysBelow (hr : registry.AllAdapters) {n : Node}
    (hkeys : n.keysBelow = []) (identity : String) :
    ((n.blueprint.view registry document identity).elements.map (·.key)).Nodup := by
  rw [View.elements, List.map_filterMap]
  refine View.nodup_filterMap_preorder _ fun p q x y k hp hq hx hy => ?_
  obtain ⟨e, hx, hk⟩ := Option.map_eq_some_iff.mp hx
  obtain ⟨e', hy, hk'⟩ := Option.map_eq_some_iff.mp hy
  obtain rfl := View.element?_eq_some.mp hx
  obtain rfl := View.element?_eq_some.mp hy
  rw [key_of_keysBelow hr hkeys hp] at hk
  rw [key_of_keysBelow hr hkeys hq, ← hk, Option.some.injEq, String.append_right_inj] at hk'
  exact (dotted_injective hk').symm

end Views

/-- Every node of a schema has one identity, whatever the document: wherever the node is viewed, it
is viewed under that identity.  An element has the identity of its node as its key, so the views of
two documents have the same key at the same position.  If no key is given below the root, the key of
an element is that of the root with its position behind it, and no two elements of a view have the
same key. -/
theorem Schema.identities_stable (s : Schema) :
    let n := s.root
    let root := n.key.getD rootIdentity
    let view := n.view .builtin
    (∀ position part, n.at? position = some part →
      ∃ identity, n.identityAt? root position = some identity ∧
        ∀ document, (n.ancestors position).any (·.hides .builtin document) = false →
          (view document).at? position =
            some (part.blueprint.view .builtin document identity)) ∧
    (∀ document position e, (view document).at? position = some (.element e) →
      (n.at? position).isSome ∧ e.key = n.identityAt? root position) ∧
    (∀ document document' position e e', (view document).at? position = some (.element e) →
      (view document').at? position = some (.element e') → e.key = e'.key) ∧
    (n.keysBelow = [] → ∀ document,
      (∀ position e, (view document).at? position = some (.element e) →
        e.key = some (root ++ dotted position)) ∧
      ((view document).elements.map (·.key)).Nodup) := by
  intro n root view
  have hr := Registry.builtin_allAdapters
  have hview (document : Value) : view document = n.blueprint.view .builtin document root := by
    show n.blueprint.view .builtin document n.blueprint.identity = _
    rw [n.identity_blueprint]
  have hkey (document : Value) (position : List Nat) (e : Element)
      (h : (view document).at? position = some (.element e)) :
      (n.at? position).isSome ∧ e.key = n.identityAt? root position :=
    Node.key_of_at?_view hr (hview document ▸ h)
  refine ⟨fun position part hpart => ?_, hkey, fun document document' position e e' he he' => ?_,
    fun hkeys document => ⟨fun position e he => ?_, ?_⟩⟩
  · obtain ⟨identity, hidentity⟩ := Node.exists_identityAt? root hpart
    refine ⟨identity, hidentity, fun document hshown => ?_⟩
    rw [hview]
    exact Node.at?_view hr hpart hidentity hshown
  · rw [(hkey document position e he).2, (hkey document' position e' he').2]
  · exact Node.key_of_keysBelow hr hkeys (hview document ▸ he)
  · rw [hview]
    exact Node.nodup_keys_of_keysBelow hr hkeys root

/-- A root whose key looks like a position, above nodes that come and go. -/
def Schema.blinking : Schema :=
  .node (((Node.ofComponent "List").setKey "root.1").setNodes
    [(Node.ofComponent "ListItem").setGate ⟨"user", .exist, none⟩,
      (Node.ofComponent "ListItem").setNodes
        [.ofComponent "Captcha", (Node.ofComponent "Box").setNodes [.ofComponent "Text"]],
      (Node.ofComponent "ListItem").setGate ⟨"user", .notExist, none⟩])

theorem Schema.identities_stable_blinking :
    blinking.root.keysBelow = [] ∧
      let v := blinking.root.view .builtin (.obj [("user", .bool true)])
      let w := blinking.root.view .builtin .null
      v.elements.map (·.key) = [some "root.1", some "root.1.0", some "root.1.1",
        some "root.1.1.1", some "root.1.1.1.0"] ∧
      w.elements.map (·.key) = [some "root.1", some "root.1.1", some "root.1.1.1",
        some "root.1.1.1.0", some "root.1.2"] ∧
      (v.elements.map (·.key)).Nodup ∧
      ∀ e e', v.at? [1, 1] = some (.element e) → w.at? [1, 1] = some (.element e') →
        e.key = e'.key ∧ e.key = some ("root.1" ++ dotted [1, 1]) := by
  have hkeys : blinking.root.keysBelow = [] := by decide +kernel
  obtain ⟨-, -, hsame, hbelow⟩ := identities_stable blinking
  obtain ⟨hkey, hnodup⟩ := hbelow hkeys (.obj [("user", .bool true)])
  exact ⟨hkeys, by decide +kernel, by decide +kernel, hnodup,
    fun e e' he he' => ⟨hsame _ _ _ e e' he he', hkey _ e he⟩⟩

end ServerUi
