import ServerUi.Proofs.Blueprint.Position

/-!
# ServerUi.Proofs.Blueprint.Replacement — one node changed, one part of the view changed

A node may be replaced by any other with the same key.  The view of the changed tree is the view of
the tree with one part replaced, the one at the position of the node; where a node above hides it,
the views are the same (`Node.view_blueprint_replaceAt`).  What carries the proof is that a component
never looks at its children and that identities depend only on keys.
-/

namespace ServerUi

/-! ### Replacing a part of a view -/

namespace View

/-- The view with other children, if it can have any. -/
def withChildren : View → List View → View
  | element e, children => element { e with children }
  | fragment _, children => fragment children
  | v, _ => v

/-- What stands at the top of a view. -/
def withoutChildren (v : View) : View := v.withChildren []

/-- The view with another part at a position. -/
def replaceAt (v : View) : List Nat → View → View
  | [], part => part
  | i :: position, part =>
    v.withChildren (v.children.modify i (·.replaceAt position part))

theorem withChildren_withoutChildren (v : View) (children : List View) :
    v.withoutChildren.withChildren children = v.withChildren children := by
  cases v <;> rfl

theorem withoutChildren_withChildren (v : View) (children : List View) :
    (v.withChildren children).withoutChildren = v.withoutChildren := by
  cases v <;> rfl

theorem withChildren_children (v : View) : v.withChildren v.children = v := by
  cases v with
  | element e =>
    obtain ⟨component, tag, key, attrs, handlers, children, void⟩ := e
    rfl
  | _ => rfl

/-- A view is what stands at its top and its children. -/
theorem ext_children {v w : View} (h : v.withoutChildren = w.withoutChildren)
    (hchildren : v.children = w.children) : v = w := by
  rw [← v.withChildren_children, ← w.withChildren_children, ← v.withChildren_withoutChildren,
    ← w.withChildren_withoutChildren, h, hchildren]

/-- A changed child is a child of the changed view. -/
theorem children_withChildren_modify (v : View) (i : Nat) (f : View → View) :
    (v.withChildren (v.children.modify i f)).children = v.children.modify i f := by
  cases v with
  | element e => rfl
  | fragment children => rfl
  | _ => exact (List.modify_nil f i).symm

theorem at?_replaceAt_self {part : View} : ∀ {position : List Nat} {v x : View},
    v.at? position = some x → (v.replaceAt position part).at? position = some part
  | [], _, _, _ => rfl
  | i :: position, v, x, h => by
    obtain ⟨w, hw, h⟩ := at?_cons_eq_some.mp h
    refine at?_cons_eq_some.mpr ⟨w.replaceAt position part, ?_, at?_replaceAt_self h⟩
    rw [replaceAt, children_withChildren_modify, List.getElem?_modify_eq, hw]
    rfl

/-- Outside the part that is replaced, everything stands where it stood. -/
theorem withoutChildren_at?_replaceAt {part : View} : ∀ {position other : List Nat} {v : View},
    ¬position <+: other → ((v.replaceAt position part).at? other).map withoutChildren =
      (v.at? other).map withoutChildren
  | [], _, _, h => absurd List.nil_prefix h
  | i :: position, [], v, _ => by
    rw [replaceAt, at?_nil, at?_nil, Option.map_some, Option.map_some,
      withoutChildren_withChildren]
  | i :: position, j :: other, v, h => by
    rw [replaceAt, at?_cons, at?_cons, children_withChildren_modify]
    by_cases hij : i = j
    · subst hij
      have hother : ¬position <+: other := fun hp => h (List.cons_prefix_cons.mpr ⟨rfl, hp⟩)
      rw [List.getElem?_modify_eq]
      cases hw : v.children[i]? with
      | none => rfl
      | some w => exact withoutChildren_at?_replaceAt hother
    · -- the position turns off to another child
      rw [List.getElem?_modify_ne _ _ hij]

end View

/-! ### Replacing a node -/

namespace Node

/-- The node with another node at a position. -/
def replaceAt (n : Node) : List Nat → Node → Node
  | [], part => part
  | i :: position, part =>
    match n.content with
    | .nodes nodes => n.setNodes (nodes.modify i (·.replaceAt position part))
    | _ => n

/-- A replacement below a child changes that child alone. -/
theorem replaceAt_cons {n : Node} {nodes : List Node} (h : n.content = .nodes nodes) (i : Nat)
    (position : List Nat) (part : Node) :
    n.replaceAt (i :: position) part = n.setNodes (nodes.modify i (·.replaceAt position part)) := by
  rw [replaceAt, h]

theorem key_replaceAt {n m part : Node} {position : List Nat} (h : n.at? position = some part)
    (hkey : m.key = part.key) : (n.replaceAt position m).key = n.key := by
  cases position with
  | nil =>
    obtain rfl := Option.some.inj h
    exact hkey
  | cons i position =>
    obtain ⟨nodes, child, hcontent, -⟩ := at?_cons_eq_some.mp h
    rw [replaceAt_cons hcontent]
    rfl

end Node

/-! ### Views of the changed tree -/

/-- What the component shows itself does not depend on the children that it is given. -/
def Component.IgnoresChildren (c : Component) : Prop :=
  ∀ (input : Input) (children : Option (List View)),
    (c.view { input with children }).withoutChildren = (c.view input).withoutChildren

/-- What stands in the registry shows the same around whatever children it is given. -/
def Registry.IgnoresChildren (r : Registry) : Prop :=
  ∀ name c, r.get? name = some c → c.IgnoresChildren

theorem Component.setAttrIfAbsent_congr {e e' : Element}
    (h : (View.element e).withoutChildren = (View.element e').withoutChildren) (name : String)
    (v : Value) : (View.element (setAttrIfAbsent e name v)).withoutChildren =
      (View.element (setAttrIfAbsent e' name v)).withoutChildren := by
  obtain ⟨component, tag, key, attrs, handlers, children, void⟩ := e
  obtain ⟨component', tag', key', attrs', handlers', children', void'⟩ := e'
  cases View.element.inj h
  unfold setAttrIfAbsent
  split <;> rfl

/-- No built-in component looks at its children. -/
theorem Registry.builtin_ignoresChildren : builtin.IgnoresChildren := by
  intro name c h input children
  obtain ⟨tag, class_, -, rfl⟩ | ⟨-, rfl⟩ | ⟨-, rfl⟩ | ⟨-, rfl⟩ | ⟨-, rfl⟩ := builtin_cases h
  · rfl
  · rfl
  · rfl
  · refine Component.setAttrIfAbsent_congr ?_ "role" (.str "switch")
    rfl
  · refine Component.setAttrIfAbsent_congr ?_ "role" (.str "alert")
    rfl

section Views

variable {registry : Registry} {document : Value}

/-- Whatever the content of a node is, its view is the same around it. -/
theorem Node.withoutChildren_view (hc : registry.IgnoresChildren) (n : Node) (nodes : List Node)
    (key : String) : ((n.setNodes nodes).blueprint.view registry document key).withoutChildren =
      (n.blueprint.view registry document key).withoutChildren := by
  rw [view_blueprint_eq, view_blueprint_eq]
  have hgate : (n.setNodes nodes).gate = n.gate := rfl
  have hcomponent : (n.setNodes nodes).component = n.component := rfl
  rw [hgate, hcomponent]
  cases n.gate.all (·.opens document) with
  | false => rfl
  | true =>
    cases hget : registry.get? n.component with
    | none => rfl
    | some c => exact hc _ c hget (n.input registry document key) _

/-- A child that keeps its key leaves the keys of the siblings as they are. -/
theorem filterMap_key_modify {nodes : List Node} {i : Nat} {f : Node → Node}
    (hkey : ∀ child, nodes[i]? = some child → (f child).key = child.key) :
    (nodes.modify i f).filterMap Node.key = nodes.filterMap Node.key := by
  have hmap : (nodes.modify i f).map Node.key = nodes.map Node.key := by
    refine List.ext_getElem? fun j => ?_
    rw [List.getElem?_map, List.getElem?_map]
    by_cases hij : i = j
    · subst hij
      rw [List.getElem?_modify_eq]
      cases hchild : nodes[i]? with
      | none => rfl
      | some child => exact congrArg some (hkey child hchild)
    · rw [List.getElem?_modify_ne _ _ hij]
  have hfilter := congrArg (List.filterMap id) hmap
  rwa [List.filterMap_map, List.filterMap_map] at hfilter

/-- The children of a node that hides them may be any. -/
theorem Node.view_setNodes_of_hides (hr : registry.AllAdapters) (hc : registry.IgnoresChildren)
    {n : Node} (hn : n.hides registry document = true) (nodes : List Node) (key : String) :
    (n.setNodes nodes).blueprint.view registry document key =
      n.blueprint.view registry document key := by
  have hsame : (n.setNodes nodes).hides registry document = true := hn
  refine View.ext_children (n.withoutChildren_view hc nodes key) ?_
  rw [children_view hr n, children_view hr (n.setNodes nodes), hn, hsame, if_pos rfl, if_pos rfl]

/-- Changing the child at an index, but not its key, changes what stands below the node at that
index alone. -/
theorem Node.view_setNodes_modify (hr : registry.AllAdapters) (hc : registry.IgnoresChildren)
    {n : Node} {nodes : List Node} (hcontent : n.content = .nodes nodes)
    (hn : n.hides registry document = false) {key : String} {i : Nat} {f : Node → Node}
    {g : View → View} (hkey : ∀ child, nodes[i]? = some child → (f child).key = child.key)
    (hview : ∀ child, nodes[i]? = some child →
      (f child).blueprint.view registry document (n.childIdentity key i child) =
        g (child.blueprint.view registry document (n.childIdentity key i child))) :
    (n.setNodes (nodes.modify i f)).blueprint.view registry document key =
      (n.blueprint.view registry document key).withChildren
        ((n.blueprint.view registry document key).children.modify i g) := by
  -- identities are made of keys, and no key changes
  have hidentity : ∀ j child, (n.setNodes (nodes.modify i f)).childIdentity key j child =
      n.childIdentity key j child := by
    intro j child
    have hkeys : (n.setNodes (nodes.modify i f)).children.filterMap Node.key =
        n.children.filterMap Node.key := by
      rw [children, children, hcontent]
      exact filterMap_key_modify hkey
    rw [childIdentity, childIdentity, hkeys]
  have hsame : (n.setNodes (nodes.modify i f)).hides registry document = false := hn
  -- nothing changes around the children, and one child changes among them
  refine View.ext_children ?_ (List.ext_getElem? fun j => ?_)
  · rw [View.withoutChildren_withChildren]
    exact n.withoutChildren_view hc _ key
  rw [View.children_withChildren_modify, getElem?_children_view hr rfl hsame]
  by_cases hij : i = j
  · subst hij
    rw [List.getElem?_modify_eq, List.getElem?_modify_eq, getElem?_children_view hr hcontent hn]
    cases hchild : nodes[i]? with
    | none => rfl
    | some child =>
      have hself : n.childIdentity key i (f child) = n.childIdentity key i child := by
        rw [childIdentity, childIdentity, hkey child hchild]
      simp only [Option.map_some, Option.map_eq_map, hidentity, hself, hview child hchild]
  · rw [List.getElem?_modify_ne _ _ hij, List.getElem?_modify_ne _ _ hij,
      getElem?_children_view hr hcontent hn]
    simp only [hidentity]

/-- With another node of the same key at a position, a view is the same view with the view of that
node at the position, or no other view at all where a node above the position hides it. -/
theorem Node.view_blueprint_replaceAt (hr : registry.AllAdapters) (hc : registry.IgnoresChildren)
    {m part : Node} (hkey : m.key = part.key) : ∀ {position : List Nat} {n : Node}
    {key identity : String}, n.at? position = some part →
      n.identityAt? key position = some identity →
      (n.replaceAt position m).blueprint.view registry document key =
        if (n.ancestors position).any (·.hides registry document) then
          n.blueprint.view registry document key
        else (n.blueprint.view registry document key).replaceAt position
          (m.blueprint.view registry document identity)
  | [], n, key, identity, _, hidentity => by
    obtain rfl := Option.some.inj hidentity
    rfl
  | i :: position, n, key, identity, hpart, hidentity => by
    obtain ⟨nodes, child, hcontent, hchild, hpart⟩ := at?_cons_eq_some.mp hpart
    rw [identityAt?_cons hcontent hchild] at hidentity
    have honly : ∀ c, nodes[i]? = some c → c = child := fun c hc =>
      Option.some.inj (hc.symm.trans hchild)
    have hchildKey : ∀ c, nodes[i]? = some c → (c.replaceAt position m).key = c.key := by
      intro c hc
      rw [honly c hc]
      exact key_replaceAt hpart hkey
    have ih := view_blueprint_replaceAt hr hc hkey hpart hidentity
    rw [replaceAt_cons hcontent, ancestors_cons hcontent hchild, List.any_cons]
    -- whether the part is hidden is decided here or further below
    cases hn : n.hides registry document with
    | true => rw [view_setNodes_of_hides hr hc hn, Bool.true_or, if_pos rfl]
    | false =>
      rw [Bool.false_or]
      let w := m.blueprint.view registry document identity
      cases hany : (child.ancestors position).any (·.hides registry document) with
      | true =>
        have hviews : ∀ c, nodes[i]? = some c →
            (c.replaceAt position m).blueprint.view registry document (n.childIdentity key i c) =
              id (c.blueprint.view registry document (n.childIdentity key i c)) := by
          intro c hc
          rw [honly c hc, ih, hany, if_pos rfl, id]
        rw [view_setNodes_modify hr hc hcontent hn hchildKey hviews, List.modify_id,
          View.withChildren_children, if_pos rfl]
      | false =>
        have hviews : ∀ c, nodes[i]? = some c →
            (c.replaceAt position m).blueprint.view registry document (n.childIdentity key i c) =
              (c.blueprint.view registry document (n.childIdentity key i c)).replaceAt position w := by
          intro c hc
          rw [honly c hc, ih, hany, if_neg (by decide)]
        rw [view_setNodes_modify (g := (·.replaceAt position w)) hr hc hcontent hn hchildKey hviews,
          if_neg (by decide), View.replaceAt]

end Views

/-- A node may give way to any other with its key: one it has no component for, one behind a closed
gate, one with other children.  The view changes at the position of the node and nowhere else, and
there it is the view of the other node under the same identity.  Where a node above is gated off,
unknown or childless it does not change at all. -/
theorem Node.view_replaceAt (n m part : Node) (position : List Nat)
    (hpart : n.at? position = some part) (hkey : m.key = part.key) (document : Value) :
    let v := n.view .builtin document
    let v' := (n.replaceAt position m).view .builtin document
    let isHidden := (n.ancestors position).any (·.hides .builtin document)
    (isHidden = true → v' = v) ∧
      (isHidden = false → ∃ identity,
        n.identityAt? (n.key.getD rootIdentity) position = some identity ∧
          v.at? position = some (part.blueprint.view .builtin document identity) ∧
          v' = v.replaceAt position (m.blueprint.view .builtin document identity) ∧
          v'.at? position = some (m.blueprint.view .builtin document identity)) ∧
      ∀ other, ¬position <+: other →
        (v'.at? other).map View.withoutChildren = (v.at? other).map View.withoutChildren := by
  intro v v' isHidden
  have hroot : n.blueprint.identity = n.key.getD rootIdentity := n.identity_blueprint
  have hroot' : (n.replaceAt position m).blueprint.identity = n.key.getD rootIdentity := by
    rw [identity_blueprint, key_replaceAt hpart hkey]
  obtain ⟨identity, hidentity⟩ := exists_identityAt? (n.key.getD rootIdentity) hpart
  have hv : v = n.blueprint.view .builtin document (n.key.getD rootIdentity) := by rw [← hroot]; rfl
  have hv' : v' = if isHidden then v
      else v.replaceAt position (m.blueprint.view .builtin document identity) := by
    rw [hv, ← view_blueprint_replaceAt Registry.builtin_allAdapters
      Registry.builtin_ignoresChildren hkey hpart hidentity, ← hroot']
    rfl
  refine ⟨fun hhidden => ?_, fun hshown => ?_, fun other hother => ?_⟩
  · rw [hv', hhidden, if_pos rfl]
  · have hat : v.at? position = some (part.blueprint.view .builtin document identity) := by
      rw [hv]
      exact at?_view Registry.builtin_allAdapters hpart hidentity hshown
    have hreplaced : v' = v.replaceAt position (m.blueprint.view .builtin document identity) := by
      rw [hv', hshown, if_neg (by decide)]
    refine ⟨identity, hidentity, hat, hreplaced, ?_⟩
    rw [hreplaced]
    exact View.at?_replaceAt_self hat
  · rw [hv']
    split
    · rfl
    · exact View.withoutChildren_at?_replaceAt hother

/-- A gated card between texts, one of which has the key that a position would have. -/
def Node.column : Node :=
  ⟨"Stack", none,
    .nodes
      [⟨"Text", none, .text "before", some "root.1", none, none⟩,
        ⟨"Card", none, .nodes [.ofComponent "Text", ⟨"Button", none, .text "Go", none, none, none⟩],
          none, some ⟨"open", .eq, some (.bool true)⟩, none⟩,
        ⟨"Text", none, .text "after", none, none, none⟩],
    none, none, none⟩

theorem Node.view_replaceAt_column :
    let v (isOpen : Bool) (n : Node) := n.view .builtin (.obj [("open", .bool isOpen)])
    let changed := column.replaceAt [1, 1] (.ofComponent "Mystery")
    column.at? [1, 1] = some ⟨"Button", none, .text "Go", none, none, none⟩ ∧
      (Node.ofComponent "Mystery").key = none ∧
      v false changed = v false column ∧
      (v true changed).at? [1, 1] = some (.placeholder (.unknownComponent "Mystery")) ∧
      ∀ other, ¬[1, 1] <+: other → ((v true changed).at? other).map View.withoutChildren =
        ((v true column).at? other).map View.withoutChildren := by
  intro v changed
  have hpart : column.at? [1, 1] = some ⟨"Button", none, .text "Go", none, none, none⟩ := rfl
  have hkey : (Node.ofComponent "Mystery").key = none := rfl
  obtain ⟨hhidden, -, -⟩ := view_replaceAt column (.ofComponent "Mystery") _ [1, 1] hpart hkey
    (.obj [("open", .bool false)])
  obtain ⟨-, hshown, hother⟩ := view_replaceAt column (.ofComponent "Mystery") _ [1, 1] hpart hkey
    (.obj [("open", .bool true)])
  obtain ⟨identity, -, -, -, hat⟩ := hshown (by decide +kernel)
  have hunknown : Registry.builtin.get? "Mystery" = none := by
    have hcontains : Registry.builtin.contains "Mystery" = false := by decide +kernel
    simpa [Registry.contains] using hcontains
  refine ⟨hpart, hkey, hhidden (by decide +kernel), hat.trans ?_, hother⟩
  rw [view_blueprint_eq]
  simp [ofComponent, hunknown]

end ServerUi
