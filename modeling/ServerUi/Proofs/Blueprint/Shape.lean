import ServerUi.Proofs.Blueprint.Interpret
import ServerUi.Proofs.Blueprint.Position
import ServerUi.Proofs.Html.StartTag

/-!
# ServerUi.Proofs.Blueprint.Shape — the elements of built-in components

Whether an element is void is decided by its component, its handlers are those of its node in event
order, and its tag is one of a fixed list (`Element.Fits`).  A node is hidden below a childless
component and its element is void, so nothing is left to write between the tags that HTML closes
themselves (`Node.view_shape`).
-/

namespace ServerUi

open Html

/-- What an element has to do with the node it shows. -/
structure Element.Fits (e : Element) (n : Node) : Prop where
  component : e.component = n.component
  void_iff : e.void = true ↔ e.component ∈ childlessComponents
  children_of_void : e.void = true → e.children = []
  events : (e.handlers.map Handler.event).Sublist [.click, .submit, .change]
  /-- The actions are those of the node, with all that stands in their payloads. -/
  mem_handlers : ∀ h, h ∈ e.handlers ↔ (h.event, h.action) ∈ n.handlers.getD [] ∧
    h.event ∈ [.click, .submit, .change] ∧ h.preventDefault = decide (h.event = .submit)
  tag_of_not_void : e.void = false → e.tag ∉ selfClosedTags

/-! ### Parts of a tree -/

/-- What holds of every part of a node holds of every part of a part. -/
theorem Node.Every.of_isWithin {P : Members → Prop} {G : Gate → Prop} {H : Handlers → Prop}
    {part n : Node} (h : part.IsWithin n) (hn : n.Every P G H) : part.Every P G H := by
  induction h with
  | self => exact hn
  | child _ hcontent hm _ ih =>
    obtain ⟨-, -, -, hnodes⟩ := every_iff.mp hn
    rw [hcontent, Content.Every, nodesEvery_iff] at hnodes
    exact ih (hnodes _ hm)

theorem Node.Ordered.handlers {n : Node} (h : n.Ordered) : Dict.Ordered (n.handlers.getD []) := by
  obtain ⟨-, -, hhandlers, -⟩ := every_iff.mp h
  cases hn : n.handlers with
  | none => exact List.Pairwise.nil
  | some hs => exact (hhandlers hs hn).1

/-! ### Handlers -/

/-- Wired handlers come in the order of their events, one for each at most. -/
theorem Node.events_wiredHandlers_sublist {n : Node} (hn : Dict.Ordered (n.handlers.getD [])) :
    (n.wiredHandlers.map Handler.event).Sublist Event.known := by
  rw [wiredHandlers, List.map_map, Handlers.wired_eq hn]
  exact Handlers.keys_lookups_sublist _ _

/-- What is wired are the actions of known events, and a submission prevents its default. -/
theorem Node.mem_wiredHandlers {n : Node} {h : Handler} :
    h ∈ n.wiredHandlers ↔ (h.event, h.action) ∈ n.handlers.getD [] ∧ h.event ∈ Event.known ∧
      h.preventDefault = decide (h.event = .submit) := by
  constructor
  · intro hh
    obtain ⟨hmem, hwired⟩ := mem_of_mem_wiredHandlers hh
    obtain ⟨⟨event, action⟩, -, rfl⟩ := List.mem_map.mp hh
    exact ⟨hmem, Event.isWired_iff_mem_known.mp hwired, rfl⟩
  · obtain ⟨event, action, preventDefault⟩ := h
    rintro ⟨hmem, hknown, hprevent⟩
    obtain rfl : preventDefault = decide (event = .submit) := hprevent
    have hwired := Event.isWired_iff_mem_known.mpr hknown
    exact List.mem_map.mpr ⟨(event, action), List.mem_filter.mpr ⟨hmem, hwired⟩, rfl⟩

/-! ### Tags -/

/-- A component that may have children has a tag that HTML lets have content. -/
theorem Component.builtin_tag_of_not_childless {name : String} {c : Component}
    (h : Registry.builtin.get? name = some c) (hname : isChildless name = false) {input : Input}
    {e : Element} (he : c.view input = .element e) : e.tag ∉ selfClosedTags := by
  obtain ⟨tag, class_, hmem, rfl⟩ | ⟨rfl, rfl⟩ | ⟨rfl, rfl⟩ | ⟨rfl, rfl⟩ | ⟨rfl, rfl⟩ :=
    Registry.builtin_cases h
  · have htags : ∀ row ∈ builtinTags, isChildless row.1 = false → row.2.1 ∉ selfClosedTags := by
      decide
    obtain rfl := View.element.inj he
    exact htags _ hmem hname
  · have hheadings : ∀ level ∈ [1, 2, 3, 4, 5, 6], "h" ++ toString level ∉ selfClosedTags := by
      decide
    obtain rfl := View.element.inj he
    exact hheadings _ (headingLevel_mem input.props)
  · cases hname
  · cases hname
  · obtain rfl := View.element.inj he
    rw [tag_setAttrIfAbsent]
    show "div" ∉ selfClosedTags
    decide

/-! ### Elements -/

section Views

variable {document : Value}

/-- An element fits the node it is the view of. -/
theorem Node.fits_of_view_eq_element {n : Node} (hn : n.Ordered) {key : String} {e : Element}
    (h : n.blueprint.view .builtin document key = .element e) : e.Fits n := by
  obtain ⟨c, hc, hview, hw⟩ := view_eq_element Registry.builtin_allAdapters h
  have hvoid : e.void = isChildless n.component := hw.void
  have hhandlers : e.handlers = n.wiredHandlers := hw.handlers
  refine ⟨hw.component, ?_, fun h => ?_, ?_, fun handler => ?_, fun h => ?_⟩
  · rw [hvoid, hw.component]
    exact List.contains_iff_mem
  · rw [hw.children, if_pos (hw.void ▸ h)]
  · rw [hhandlers]
    exact events_wiredHandlers_sublist hn.handlers
  · rw [hhandlers]
    exact mem_wiredHandlers
  · exact Component.builtin_tag_of_not_childless hc (hvoid ▸ h) hview

/-- At every position of a view an element fits the node that stands there. -/
theorem Node.fits_of_at?_view {n : Node} (hn : n.Ordered) {key : String} {position : List Nat}
    {e : Element} (h : (n.blueprint.view .builtin document key).at? position = some (.element e)) :
    ∃ part, n.at? position = some part ∧ e.Fits part := by
  obtain ⟨part, identity, hpart, -, hwithin, hview⟩ :=
    exists_of_at?_view_element Registry.builtin_allAdapters h
  exact ⟨part, hpart, fits_of_view_eq_element (hn.of_isWithin hwithin) hview⟩

/-- Nothing stands inside a void element, so the start tags in HTML are those of the view. -/
theorem Node.filter_isStart_markup_view (n : Node) (key : String) :
    let v := n.blueprint.view .builtin document key
    v.markup.filter Markup.isStart = v.preorder.filterMap View.startMarkup? :=
  filter_isStart_markup fun _ he => children_of_void Registry.builtin_allAdapters he

/-- The start tags of a view are those of its elements and placeholders. -/
theorem Node.mem_markup_isStart_iff {n : Node} {key : String} {t : Markup} :
    (t ∈ (n.blueprint.view .builtin document key).markup ∧ t.isStart = true) ↔
      ∃ x ∈ (n.blueprint.view .builtin document key).preorder, x.startMarkup? = some t := by
  rw [← List.mem_filter, filter_isStart_markup_view, List.mem_filterMap]

end Views

/-- Every element of a view fits the node at its position.  In HTML the start tags are those of the
elements and of the placeholders, and the tags that close themselves are those of elements with
nothing inside. -/
theorem Node.view_shape (n : Node) (hn : n.Ordered) (document : Value) :
    let v := n.view .builtin document
    (∀ e ∈ v.elements, ∃ position, v.at? position = some (.element e)) ∧
    (∀ position e, v.at? position = some (.element e) →
      ∃ part, n.at? position = some part ∧ e.Fits part) ∧
    (Html.view v).toList = v.markup.flatMap Markup.write ∧
    v.markup.filter Markup.isStart = v.preorder.filterMap View.startMarkup? ∧
    ∀ tag attrs, .selfClosed tag attrs ∈ v.markup →
      ∃ e ∈ v.elements, e.startMarkup = .selfClosed tag attrs ∧ e.tag = tag ∧ e.children = [] := by
  intro v
  have hposition : ∀ e ∈ v.elements, ∃ position, v.at? position = some (.element e) :=
    fun e he => View.mem_elements_iff_at?.mp he
  have hfits : ∀ position e, v.at? position = some (.element e) →
      ∃ part, n.at? position = some part ∧ e.Fits part := fun _ _ h => fits_of_at?_view hn h
  refine ⟨hposition, hfits, toList_view v, filter_isStart_markup_view n _, fun tag attrs h => ?_⟩
  obtain ⟨x, hx, hstart⟩ := mem_markup_isStart_iff.mp ⟨h, rfl⟩
  -- of the parts that have a start tag, a placeholder is never closed in it
  cases x with
  | element e =>
    replace hstart : e.startMarkup = .selfClosed tag attrs := Option.some.inj hstart
    have he : e ∈ v.elements := View.mem_elements.mpr hx
    obtain ⟨htag, hvoid⟩ := startMarkup_eq_selfClosed hstart
    obtain ⟨position, hat⟩ := hposition e he
    obtain ⟨part, -, hfit⟩ := hfits position e hat
    exact ⟨e, he, hstart, htag, hfit.children_of_void hvoid⟩
  | placeholder p => cases hstart
  | _ => cases hstart

/-- A childless component that declares children, a binding in a payload, an event that is not wired
and a component nobody knows. -/
def Node.signUp : Node :=
  ⟨"Form", none,
    .nodes
      [⟨"Input", none, .nodes [.ofComponent "Button"], some "name", none,
          some [(.change, ⟨.custom, some [("was", .str "{{ x }}")]⟩), (.other "focus", .ofKind .api)]⟩,
        ⟨"Divider", none, .text "unseen", none, none, none⟩,
        .ofComponent "Captcha"],
    none, none,
    some [(.click, .ofKind .api), (.submit, .ofKind .custom)]⟩

theorem Node.view_shape_signUp :
    signUp.Ordered ∧
      let v := signUp.view .builtin .null
      v.markup.filter Markup.isStart =
        [.opening "form" [("class", some "sdui-form"),
            ("data-sdui-on-click", some "\x7b\"type\":\"api\"\x7d"),
            ("data-sdui-on-submit", some "\x7b\"type\":\"custom\"\x7d")],
          .selfClosed "input" [("class", some "sdui-input"), ("data-sdui-on-change", some
            "\x7b\"type\":\"custom\",\"payload\":\x7b\"was\":\"\x7b\x7b x \x7d\x7d\"\x7d\x7d")],
          .selfClosed "hr" [("class", some "sdui-divider")],
          .opening "div" [("class", some "sdui-error"), ("role", some "alert")]] ∧
        ∀ e ∈ v.elements, e.void = true → e.children = [] := by
  have ho : signUp.Ordered := by decide
  obtain ⟨hposition, hfits, -, hstarts, -⟩ := view_shape signUp ho .null
  refine ⟨ho, hstarts.trans (by decide +kernel), fun e he => ?_⟩
  obtain ⟨position, hat⟩ := hposition e he
  obtain ⟨part, -, hfit⟩ := hfits position e hat
  exact hfit.children_of_void

end ServerUi
