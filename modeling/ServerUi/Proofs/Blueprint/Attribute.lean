import ServerUi.Proofs.Blueprint.Shape

/-!
# ServerUi.Proofs.Blueprint.Attribute — where the attributes of an element come from

A built-in component puts a class on its element, may set or drop a few attributes more and takes
the rest from the props of the node (`Component.Decorates`).  Nothing compares the names that are
written in the end, so the props decide whether a start tag has a name twice
(`Node.attributeNames_nodup_iff`).
-/

namespace ServerUi

open Html

/-! ### Filled props -/

theorem ValueTemplate.keys_ofMembers : ∀ ms : Members, Dict.keys (ofMembers ms) = Dict.keys ms
  | [] => rfl
  | (k, _) :: rest => congrArg (k :: ·) (keys_ofMembers rest)

theorem ValueTemplate.keys_fillMembers_sublist (document : Value) :
    ∀ ts : MemberTemplates, (Dict.keys (fillMembers document ts)).Sublist (Dict.keys ts)
  | [] => .slnil
  | (k, t) :: rest => by
    have ih := keys_fillMembers_sublist document rest
    rw [fillMembers]
    cases fill document t with
    | none => exact ih.cons k
    | some v => exact ih.cons_cons k

theorem Members.ordered_fill {ms : Members} (h : Dict.Ordered ms) (document : Value) :
    Dict.Ordered (Members.fill ms document) := by
  have hsub := ValueTemplate.keys_fillMembers_sublist document (ValueTemplate.ofMembers ms)
  rw [ValueTemplate.keys_ofMembers] at hsub
  exact List.Pairwise.sublist hsub h

theorem Node.Ordered.filled {n : Node} (h : n.Ordered) (document : Value) :
    Dict.Ordered (Members.fill (n.props.getD []) document) := by
  obtain ⟨hprops, -, -, -⟩ := every_iff.mp h
  refine Members.ordered_fill ?_ document
  cases hn : n.props with
  | none => exact List.Pairwise.nil
  | some ms => exact (hprops ms hn).1

/-! ### Attributes of built-in components -/

namespace Component

/-- The attributes that built-in components set or drop. -/
def ownAttributes : List String := ["className", "type", "role", "level"]

/-- The attributes have a class and are otherwise those of the props, but for what built-in
components see to themselves. -/
structure Decorates (props attrs : Members) : Prop where
  ordered : Dict.Ordered props → Dict.Ordered attrs
  className : ∃ text, Dict.get? "className" attrs = some (.str text)
  others : ∀ name ∉ ownAttributes, Dict.get? name attrs = Dict.get? name props

section Decorates

variable {props attrs : Members}

/-- The class is put into the one attribute that is set for it. -/
theorem decorates_styled (props : Members) (class_ : String) :
    Decorates props (styled props class_) where
  ordered h := h.insert _ _
  className := ⟨_, by rw [styled, Dict.get?_insert, if_pos rfl]⟩
  others name h := by
    have hne : name ≠ "className" := by
      rintro rfl
      exact h (by decide)
    rw [styled, Dict.get?_insert, if_neg hne]

/-- A component may change an attribute of its own other than the class. -/
theorem Decorates.change {attrs' : Members} (h : Decorates props attrs) {name : String}
    (hname : name ∈ ownAttributes.erase "className")
    (hordered : Dict.Ordered attrs → Dict.Ordered attrs')
    (hget : ∀ name' ≠ name, Dict.get? name' attrs' = Dict.get? name' attrs) :
    Decorates props attrs' where
  ordered hprops := hordered (h.ordered hprops)
  className := by
    have hne : "className" ≠ name := by
      rintro rfl
      exact absurd hname (by decide)
    rw [hget _ hne]
    exact h.className
  others name' h' := by
    have hne : name' ≠ name := by
      rintro rfl
      exact h' (List.mem_of_mem_erase hname)
    rw [hget _ hne]
    exact h.others name' h'

theorem Decorates.insert (h : Decorates props attrs) {name : String}
    (hname : name ∈ ownAttributes.erase "className") (v : Value) :
    Decorates props (Dict.insert name v attrs) :=
  h.change hname (fun hattrs => hattrs.insert name v) fun name' hne => by
    rw [Dict.get?_insert, if_neg hne]

theorem Decorates.erase (h : Decorates props attrs) {name : String}
    (hname : name ∈ ownAttributes.erase "className") : Decorates props (Dict.erase name attrs) :=
  h.change hname (fun hattrs => hattrs.erase name) fun name' hne => by
    rw [Dict.get?_erase, if_neg hne]

theorem Decorates.setAttrIfAbsent {e : Element} (h : Decorates props e.attrs) {name : String}
    (hname : name ∈ ownAttributes.erase "className") (v : Value) :
    Decorates props (setAttrIfAbsent e name v).attrs := by
  unfold Component.setAttrIfAbsent
  split
  · exact h
  · exact h.insert hname v

/-- An attribute that the component does not set itself is written exactly if the prop is. -/
theorem Decorates.mem_written_iff (h : Decorates props attrs) (hprops : Dict.Ordered props)
    {name : String} (hname : name ∉ ownAttributes) :
    name ∈ written attrs ↔ name ∈ written props := by
  have hattrs : Dict.Ordered attrs := h.ordered hprops
  rw [mem_written hattrs.nodup, mem_written hprops.nodup, h.others name hname]

theorem Decorates.className_mem_written (h : Decorates props attrs) (hprops : Dict.Ordered props) :
    "className" ∈ written attrs := by
  have hattrs : Dict.Ordered attrs := h.ordered hprops
  obtain ⟨text, htext⟩ := h.className
  exact (mem_written hattrs.nodup).mpr ⟨_, htext, rfl⟩

end Decorates

/-- Every built-in component keeps the props but those it sets itself. -/
theorem builtin_decorates {name : String} {c : Component}
    (h : Registry.builtin.get? name = some c) {input : Input} {e : Element}
    (he : c.view input = .element e) : Decorates input.props e.attrs := by
  have hrole : "role" ∈ ownAttributes.erase "className" := by decide
  have htype : "type" ∈ ownAttributes.erase "className" := by decide
  have hlevel : "level" ∈ ownAttributes.erase "className" := by decide
  have hstyled := decorates_styled input.props
  obtain ⟨tag, class_, -, rfl⟩ | ⟨-, rfl⟩ | ⟨-, rfl⟩ | ⟨-, rfl⟩ | ⟨-, rfl⟩ :=
    Registry.builtin_cases h
  all_goals obtain rfl := View.element.inj he
  · exact hstyled class_
  · exact (hstyled _).erase hlevel
  · exact (hstyled _).insert htype _
  · exact Decorates.setAttrIfAbsent ((hstyled _).insert htype _) hrole _
  · exact Decorates.setAttrIfAbsent (hstyled _) hrole _

end Component

/-! ### Names -/

/-- A prop of the node is written under a name that its start tag has already: that of the class,
that of another prop or that of a handler.  Names are compared as they are written, letter case
included, so `onclick` and `onClick` are two. -/
def Node.RepeatsName (document : Value) (n : Node) : Prop :=
  let names := written (Members.fill (n.props.getD []) document)
  "class" ∈ names ∨ ("for" ∈ names ∧ "htmlFor" ∈ names) ∨
    ∃ h ∈ n.wiredHandlers, eventName h.event ∈ names

section Views

variable {document : Value}

/-- A start tag has a name twice exactly if its node repeats one. -/
theorem Node.attributeNames_nodup_iff {n : Node} (hn : n.Ordered) {key : String} {e : Element}
    (h : n.blueprint.view .builtin document key = .element e) :
    e.startMarkup.attributeNames.Nodup ↔ ¬n.RepeatsName document := by
  have hfits := fits_of_view_eq_element hn h
  obtain ⟨c, hc, hview, hw⟩ := view_eq_element Registry.builtin_allAdapters h
  have hhandlers : e.handlers = n.wiredHandlers := hw.handlers
  have hprops : Dict.Ordered (Members.fill (n.props.getD []) document) := hn.filled document
  have hattrs : Component.Decorates (Members.fill (n.props.getD []) document) e.attrs :=
    Component.builtin_decorates hc hview
  have hordered : Dict.Ordered e.attrs := hattrs.ordered hprops
  have hsame : ∀ name ∉ Component.ownAttributes,
      (name ∈ written e.attrs ↔ name ∈ written (Members.fill (n.props.getD []) document)) :=
    fun _ hname => hattrs.mem_written_iff hprops hname
  have hevents : (∀ handler ∈ n.wiredHandlers, eventName handler.event ∉ written e.attrs) ↔
      ∀ handler ∈ n.wiredHandlers,
        eventName handler.event ∉ written (Members.fill (n.props.getD []) document) := by
    -- no component sets an attribute that is called like an event
    have hown : ∀ event ∈ Event.known, eventName event ∉ Component.ownAttributes := by decide
    refine forall₂_congr fun handler hm => ?_
    rw [hsame _ (hown _ (mem_wiredHandlers.mp hm).2.1)]
  rw [attributeNames_startMarkup, nodup_startAttributes_iff hordered.nodup hfits.events, hhandlers,
    hevents, hsame "class" (by decide), hsame "for" (by decide), hsame "htmlFor" (by decide),
    and_iff_left (hattrs.className_mem_written hprops)]
  simp only [RepeatsName, not_or, not_exists, not_and, and_assoc]

/-- The same at a position of a view: the node that stands there decides. -/
theorem Node.attributeNames_nodup_iff_of_at?_view {n : Node} (hn : n.Ordered) {key : String}
    {position : List Nat} {e : Element}
    (h : (n.blueprint.view .builtin document key).at? position = some (.element e)) :
    ∃ part, n.at? position = some part ∧
      (e.startMarkup.attributeNames.Nodup ↔ ¬part.RepeatsName document) := by
  obtain ⟨part, identity, hpart, -, hwithin, hview⟩ :=
    exists_of_at?_view_element Registry.builtin_allAdapters h
  exact ⟨part, hpart, attributeNames_nodup_iff (hn.of_isWithin hwithin) hview⟩

end Views

/-- The HTML of a view is its markup. Every name stands once in every start tag exactly if no node
that is shown as an element repeats one, and where a node does it is its own start tag that has the
name twice. Names that differ in letter case alone are two names here. -/
theorem Node.startTags_nodup_iff (n : Node) (hn : n.Ordered) (document : Value) :
    let v := n.view .builtin document
    (Html.view v).toList = v.markup.flatMap Markup.write ∧
    (∀ position e, v.at? position = some (.element e) → e.startMarkup ∈ v.markup ∧
      ∃ part, n.at? position = some part ∧
        (e.startMarkup.attributeNames.Nodup ↔ ¬part.RepeatsName document)) ∧
    ((∀ t ∈ v.markup, t.attributeNames.Nodup) ↔
      ∀ position e part, v.at? position = some (.element e) → n.at? position = some part →
        ¬part.RepeatsName document) := by
  intro v
  have hmem : ∀ {position e}, v.at? position = some (.element e) → e.startMarkup ∈ v.markup := by
    intro position e hat
    have hpart : .element e ∈ v.preorder := (View.mem_preorder_iff_at? v _).mpr ⟨position, hat⟩
    exact (mem_markup_isStart_iff.mpr ⟨_, hpart, rfl⟩).1
  refine ⟨toList_view v, fun position e hat => ⟨hmem hat, ?_⟩, fun h position e part hat hpart => ?_,
    fun h t ht => ?_⟩
  · exact attributeNames_nodup_iff_of_at?_view hn hat
  · obtain ⟨part', hpart', hiff⟩ := attributeNames_nodup_iff_of_at?_view hn hat
    obtain rfl := Option.some.inj (hpart.symm.trans hpart')
    exact hiff.mp (h _ (hmem hat))
  · -- closing tags and texts have no attributes
    cases hstart : t.isStart with
    | false =>
      cases t with
      | opening | selfClosed => cases hstart
      | _ => exact List.nodup_nil
    | true =>
      obtain ⟨x, hx, htag⟩ := mem_markup_isStart_iff.mp ⟨ht, hstart⟩
      cases x with
      | element e =>
        obtain rfl := Option.some.inj htag
        obtain ⟨position, hat⟩ := (View.mem_preorder_iff_at? v _).mp hx
        obtain ⟨part, hpart, hiff⟩ := attributeNames_nodup_iff_of_at?_view hn hat
        exact hiff.mpr (h position e part hat hpart)
      | placeholder p =>
        obtain rfl := Option.some.inj htag
        show ["class", "role"].Nodup
        decide
      | _ => cases htag

/-- Props under the names that the class, another prop and a handler take. -/
def Node.crowded (v : Value) : Node :=
  ⟨"Form", none,
    .nodes
      [⟨"Box", some [("class", v)], .absent, none, none, none⟩,
        ⟨"Label", some [("for", .str "a"), ("htmlFor", v)], .absent, none, none, none⟩,
        ⟨"Button", some [("data-sdui-on-click", v)], .absent, none, none,
          some [(.click, .ofKind .custom)]⟩],
    none, none, none⟩

theorem Node.startTags_nodup_iff_crowded :
    (crowded .null).Ordered ∧
      let v := (crowded .null).view .builtin .null
      (v.markup.filter Markup.isStart).map Markup.attributeNames =
        [["class"], ["class"], ["class", "for"], ["class", "data-sdui-on-click"]] ∧
      ∀ position e part, v.at? position = some (.element e) →
        (crowded .null).at? position = some part → ¬part.RepeatsName .null := by
  have ho : (crowded .null).Ordered := by decide
  obtain ⟨-, -, hiff⟩ := startTags_nodup_iff (crowded .null) ho .null
  exact ⟨ho, by decide +kernel, hiff.mp (by decide +kernel)⟩

/-- As soon as the props are written, each of the three start tags has a name twice. -/
theorem Node.attributeNames_crowded :
    let v := (crowded (.str "b")).view .builtin .null
    (v.markup.filter Markup.isStart).map Markup.attributeNames =
        [["class"], ["class", "class"], ["class", "for", "for"],
          ["class", "data-sdui-on-click", "data-sdui-on-click"]] ∧
      ¬∀ t ∈ v.markup, t.attributeNames.Nodup := by
  decide +kernel

end ServerUi
