import ServerUi.Blueprint
import ServerUi.Proofs.Component.Builtin

/-!
# ServerUi.Proofs.Blueprint.Shown — what a view is made of

A view of a node is made of views of nodes within it: the node itself and, unless its component is
childless, the nodes within its children.  `Node.shows_of_mem_view` finds for every part of a
view the node it shows; gates only take parts away.
-/

namespace ServerUi

/-! ### Parts of a view -/

namespace View

theorem preorder_element (e : Element) :
    (element e).preorder = element e :: preorders e.children := by
  obtain ⟨component, tag, key, attrs, handlers, children, void⟩ := e
  rw [preorder]

theorem mem_preorder_element {x : View} {e : Element} :
    x ∈ (element e).preorder ↔ x = element e ∨ x ∈ preorders e.children := by
  rw [preorder_element, List.mem_cons]

theorem element?_eq_some {x : View} {e : Element} : x.element? = some e ↔ x = element e := by
  cases x <;> simp [element?]

theorem placeholder?_eq_some {x : View} {p : Placeholder} :
    x.placeholder? = some p ↔ x = placeholder p := by
  cases x <;> simp [placeholder?]

/-- The elements of a view are its parts that are elements. -/
theorem mem_elements {e : Element} {v : View} : e ∈ v.elements ↔ element e ∈ v.preorder := by
  simp [elements, element?_eq_some]

theorem mem_placeholders {p : Placeholder} {v : View} :
    p ∈ v.placeholders ↔ placeholder p ∈ v.preorder := by
  simp [placeholders, placeholder?_eq_some]

end View

/-! ### Nodes within a node -/

/-- `part` is `n` or stands below it, with no childless component in between. -/
inductive Node.IsWithin (part : Node) : Node → Prop
  | self : IsWithin part part
  | child {n child : Node} {nodes : List Node} (hn : isChildless n.component = false)
      (hc : n.content = .nodes nodes) (hm : child ∈ nodes) (h : IsWithin part child) :
      IsWithin part n

/-- The handlers a component is given for a node. -/
def Node.wiredHandlers (n : Node) : List Handler :=
  (Handlers.wired (n.handlers.getD [])).map fun (event, action) => .wire event action

/-- A wired handler is one of the handlers written at the node. -/
theorem Node.mem_of_mem_wiredHandlers {n : Node} {h : Handler} (hh : h ∈ n.wiredHandlers) :
    (h.event, h.action) ∈ n.handlers.getD [] ∧ h.event.isWired = true := by
  obtain ⟨⟨event, action⟩, hm, rfl⟩ := List.mem_map.mp hh
  exact List.mem_filter.mp hm

/-- The ways a node itself can appear in a view. -/
inductive Node.IsShownBy (registry : Registry) (document : Value) (n : Node) : View → Prop
  | closed : IsShownBy registry document n .empty
  | unknown (h : registry.get? n.component = none) :
      IsShownBy registry document n (.placeholder (.unknownComponent n.component))
  | component {c : Component} {input : Input} {e : Element} (h : registry.get? n.component = some c)
      (he : c.view input = .element e) (hw : Component.Wraps input e)
      (hcomponent : input.component = n.component) (hhandlers : input.handlers = n.wiredHandlers) :
      IsShownBy registry document n (.element e)
  | text {source : String} (h : n.content = .text source) :
      IsShownBy registry document n (.text ((Template.ofString source).fill document))

/-- A node within `n` is shown by `x`. -/
def Node.Shows (registry : Registry) (document : Value) (n : Node) (x : View) : Prop :=
  ∃ part : Node, part.IsWithin n ∧ part.IsShownBy registry document x

/-- A part of what an adapter shows is its element or below it. -/
theorem Component.IsAdapter.mem_preorder {c : Component} (hc : c.IsAdapter) {input : Input}
    {x : View} (hx : x ∈ (c.view input).preorder) :
    ∃ e, c.view input = .element e ∧ Wraps input e ∧
      (x = .element e ∨ isChildless input.component = false ∧
        ∃ vs, input.children = some vs ∧ x ∈ View.preorders vs) := by
  obtain ⟨e, he, hw⟩ := hc input
  refine ⟨e, he, hw, ?_⟩
  rw [he, View.mem_preorder_element, hw.children] at hx
  obtain rfl | hx := hx
  · exact .inl rfl
  · right
    cases hn : isChildless input.component with
    | true => simp [hn, View.preorders] at hx
    | false =>
      cases hvs : input.children with
      | none => simp [hn, hvs, View.preorders] at hx
      | some vs => exact ⟨rfl, vs, rfl, by simpa [hn, hvs] using hx⟩

section Walk

variable {registry : Registry} {document : Value}

mutual

/-- Every part of a view is shown by a part of the node. -/
theorem Node.shows_of_mem_view (hr : registry.AllAdapters) :
    ∀ {n : Node} {key : String} {x : View},
      x ∈ (n.blueprint.view registry document key).preorder → n.Shows registry document x
  | ⟨component, props, content, key', gate, handlers⟩, key, x, hx => by
    rw [Node.blueprint, Blueprint.view] at hx
    -- a closed gate and an unknown component end the walk; only an element has parts below it
    by_cases hg : gate.all (·.opens document) = true
    · rw [if_pos hg] at hx
      cases hc : registry.get? component with
      | none =>
        rw [hc] at hx
        obtain rfl := List.mem_singleton.mp hx
        exact ⟨_, .self, .unknown hc⟩
      | some c =>
        rw [hc] at hx
        obtain ⟨e, he, hw, rfl | ⟨hn, vs, hvs, hx⟩⟩ := (hr _ c hc).mem_preorder hx
        · exact ⟨_, .self, .component hc he hw rfl rfl⟩
        · simp only [hn, Bool.false_eq_true, if_false] at hvs
          exact Content.shows_of_mem_views hr hn rfl hvs hx
    · rw [if_neg hg] at hx
      obtain rfl := List.mem_singleton.mp hx
      exact ⟨_, .self, .closed⟩

theorem Content.shows_of_mem_views (hr : registry.AllAdapters) :
    ∀ {content : Content} {n : Node} {parent : String} {vs : List View} {x : View},
      isChildless n.component = false → n.content = content →
      content.blueprint.views registry document parent = some vs →
      x ∈ View.preorders vs → n.Shows registry document x
  | .absent, _, _, _, _, _, _, hvs, _ => by
    rw [Content.blueprint, BlueprintContent.views] at hvs
    cases hvs
  | .text source, n, _, _, x, _, hcontent, hvs, hx => by
    rw [Content.blueprint, BlueprintContent.views] at hvs
    obtain rfl := Option.some.inj hvs
    obtain rfl := List.mem_singleton.mp hx
    exact ⟨n, .self, .text hcontent⟩
  | .nodes nodes, _, _, _, _, hn, hcontent, hvs, hx => by
    rw [Content.blueprint, BlueprintContent.views] at hvs
    obtain rfl := Option.some.inj hvs
    obtain ⟨child, hm, part, hw, hs⟩ := shows_of_mem_viewSiblings hr hx
    exact ⟨part, .child hn hcontent hm hw, hs⟩

theorem shows_of_mem_viewSiblings (hr : registry.AllAdapters) :
    ∀ {nodes : List Node} {parent : String} {taken : List String} {index : Nat} {x : View},
      x ∈ View.preorders (viewSiblings registry document parent taken (blueprints nodes) index) →
      ∃ child ∈ nodes, child.Shows registry document x
  | [], _, _, _, _, hx => by
    rw [blueprints, viewSiblings, View.preorders] at hx
    cases hx
  | n :: rest, _, _, _, _, hx => by
    rw [blueprints, viewSiblings, View.preorders, List.mem_append] at hx
    obtain hx | hx := hx
    · exact ⟨n, List.mem_cons_self, Node.shows_of_mem_view hr hx⟩
    · obtain ⟨child, hm, hs⟩ := shows_of_mem_viewSiblings hr hx
      exact ⟨child, List.mem_cons_of_mem _ hm, hs⟩

end

/-- Adapters leave nothing inside a void element. -/
theorem Node.children_of_void (hr : registry.AllAdapters) {n : Node} {key : String} {e : Element}
    (he : .element e ∈ (n.blueprint.view registry document key).preorder) (h : e.void = true) :
    e.children = [] := by
  obtain ⟨part, -, hshown⟩ := shows_of_mem_view hr he
  cases hshown with
  | @component c input _ _ _ hw _ _ => rw [hw.children, if_pos (hw.void ▸ h)]

end Walk

end ServerUi
