import ServerUi.Proofs.Html.Markup

/-!
# ServerUi.Proofs.Html.StartTag — the start tags of a view and their names

If nothing stands inside a void element, the markup of a view is that of its parts one after
another, closing tags aside (`flatMap_markup`).  So the start tags in the HTML of a view are those
of its elements and placeholders, in the order of the view (`filter_isStart_markup`).

The names in a start tag come from members and from events.  Two members are renamed, so a name can
stand in a start tag twice although no member does; `nodup_startAttributes_iff` says when.
-/

namespace ServerUi

open Html

namespace Html.Markup

/-- A tag that opens an element, or is one. -/
def isStart : Markup → Bool
  | opening .. | selfClosed .. => true
  | _ => false

/-- The names of the attributes in a start tag. -/
def attributeNames : Markup → List String
  | opening _ attrs | selfClosed _ attrs => attrs.map Prod.fst
  | _ => []

end Html.Markup

/-- The start tag of an element. -/
def Element.startMarkup (e : Element) : Markup :=
  if isSelfClosed e.void e.tag then .selfClosed e.tag (startAttributes e.attrs e.handlers)
  else .opening e.tag (startAttributes e.attrs e.handlers)

/-- The start tag of a view itself. -/
def View.startMarkup? : View → Option Markup
  | element e => some e.startMarkup
  | placeholder _ => some (.opening "div" [("class", some "sdui-error"), ("role", some "alert")])
  | _ => none

/-- The tags and texts of a view itself, closing tags and children aside. -/
def View.ownMarkup : View → List Markup
  | element e => [e.startMarkup]
  | text t => [.text t]
  | placeholder p =>
    [.opening "div" [("class", some "sdui-error"), ("role", some "alert")], .text p.message]
  | _ => []

namespace Html

/-! ### The start tags of a view -/

theorem attributeNames_startMarkup (e : Element) :
    e.startMarkup.attributeNames = (startAttributes e.attrs e.handlers).map Prod.fst := by
  unfold Element.startMarkup
  split <;> rfl

theorem isStart_startMarkup (e : Element) : e.startMarkup.isStart = true := by
  unfold Element.startMarkup
  split <;> rfl

/-- Only a void element is closed in its start tag. -/
theorem startMarkup_eq_selfClosed {e : Element} {tag : String} {attrs : List Attribute}
    (h : e.startMarkup = .selfClosed tag attrs) : e.tag = tag ∧ e.void = true := by
  unfold Element.startMarkup at h
  split at h
  · rename_i hself
    injection h with htag
    exact ⟨htag, (Bool.and_eq_true_iff.mp hself).1⟩
  · cases h

theorem markup_eq (e : Element) : e.markup = e.startMarkup ::
    if isSelfClosed e.void e.tag then []
    else (if e.void then [] else markups e.children) ++ [.closing e.tag] := by
  obtain ⟨component, tag, key, attrs, handlers, children, void⟩ := e
  rw [Element.markup, Element.startMarkup]
  split <;> rfl

section Parts

variable {α : Type} {f : Markup → List α}

mutual

/-- What is said of each tag but the closing ones is said of each part of a view in turn. -/
theorem flatMap_markup (hf : ∀ tag, f (.closing tag) = []) : ∀ {v : View},
    (∀ e, .element e ∈ v.preorder → e.void = true → e.children = []) →
      v.markup.flatMap f = v.preorder.flatMap fun x => x.ownMarkup.flatMap f
  | .empty, _ => rfl
  | .text _, _ => (List.flatMap_singleton _ _).symm
  | .element e, h => by
    rw [View.markup]
    exact flatMap_element_markup hf h
  | .fragment children, h => by
    rw [View.preorder] at h
    rw [View.markup, View.preorder, List.flatMap_cons]
    exact flatMap_markups hf fun e he => h e (List.mem_cons_of_mem _ he)
  | .placeholder p, _ => by
    simp [View.markup, Placeholder.markup, View.preorder, View.ownMarkup, hf]

/-- The same for an element: its start tag, then its children. -/
theorem flatMap_element_markup (hf : ∀ tag, f (.closing tag) = []) : ∀ {e : Element},
    (∀ e', .element e' ∈ (View.element e).preorder → e'.void = true → e'.children = []) →
      e.markup.flatMap f = (View.element e).preorder.flatMap fun x => x.ownMarkup.flatMap f
  | ⟨component, tag, key, attrs, handlers, children, void⟩, h => by
    have hvoid : void = true → children = [] := h _ (View.mem_preorder_element.mpr (.inl rfl))
    have hchildren : (markups children).flatMap f =
        (View.preorders children).flatMap fun x => x.ownMarkup.flatMap f :=
      flatMap_markups hf fun e he => h e (View.mem_preorder_element.mpr (.inr he))
    rw [markup_eq, List.flatMap_cons, View.preorder_element, List.flatMap_cons, ← hchildren,
      View.ownMarkup, List.flatMap_singleton]
    refine congrArg (_ ++ ·) ?_
    -- what a void element leaves out is nothing, what another element adds is its closing tag
    cases void with
    | true =>
      obtain rfl := hvoid rfl
      split
      · rfl
      · rw [if_pos rfl, List.nil_append, List.flatMap_singleton]
        exact hf tag
    | false =>
      rw [isSelfClosed, Bool.false_and, if_neg Bool.false_ne_true, if_neg Bool.false_ne_true,
        List.flatMap_append, List.flatMap_singleton, hf]
      exact List.append_nil _

theorem flatMap_markups (hf : ∀ tag, f (.closing tag) = []) : ∀ {vs : List View},
    (∀ e, .element e ∈ View.preorders vs → e.void = true → e.children = []) →
      (markups vs).flatMap f = (View.preorders vs).flatMap fun x => x.ownMarkup.flatMap f
  | [], _ => rfl
  | v :: rest, h => by
    rw [View.preorders] at h
    rw [markups, View.preorders, List.flatMap_append, List.flatMap_append,
      flatMap_markup hf fun e he => h e (List.mem_append_left _ he),
      flatMap_markups hf fun e he => h e (List.mem_append_right _ he)]

end

end Parts

/-- The start tags of a view are those of its parts, in the order of the parts. -/
theorem filter_isStart_markup {v : View}
    (h : ∀ e, .element e ∈ v.preorder → e.void = true → e.children = []) :
    v.markup.filter Markup.isStart = v.preorder.filterMap View.startMarkup? := by
  have hown : ∀ x : View, x.ownMarkup.flatMap (fun t => [t].filter Markup.isStart) =
      x.startMarkup?.toList := by
    intro x
    cases x with
    | element e =>
      rw [View.ownMarkup, List.flatMap_singleton, List.filter_cons_of_pos (isStart_startMarkup e)]
      rfl
    | _ => rfl
  calc v.markup.filter Markup.isStart
      = v.markup.flatMap fun t => [t].filter Markup.isStart := by
        rw [← List.filter_flatMap, List.flatMap_singleton']
    _ = v.preorder.flatMap fun x => x.startMarkup?.toList := by
        rw [flatMap_markup (fun _ => rfl) h]
        exact congrArg (v.preorder.flatMap ·) (funext hown)
    _ = v.preorder.filterMap View.startMarkup? := (List.filterMap_eq_flatMap_toList ..).symm

/-! ### Names in a start tag -/

/-- The names of the members that are written as attributes. -/
def written (attrs : Members) : List String :=
  Dict.keys (attrs.filter fun (name, v) => (writtenAttribute name v).isSome)

/-- The name of the attribute that holds the action of an event. -/
def eventName (event : Event) : String := "data-sdui-on-" ++ event.spelling

theorem mem_written {attrs : Members} (hattrs : (Dict.keys attrs).Nodup) {name : String} :
    name ∈ written attrs ↔
      ∃ v, Dict.get? name attrs = some v ∧ (writtenAttribute name v).isSome = true := by
  simp only [Dict.get?_eq_some_iff hattrs, written, Dict.keys, List.mem_map, List.mem_filter]
  constructor
  · rintro ⟨⟨_, v⟩, ⟨hmem, hwritten⟩, rfl⟩
    exact ⟨v, hmem, hwritten⟩
  · rintro ⟨v, hmem, hwritten⟩
    exact ⟨(name, v), ⟨hmem, hwritten⟩, rfl⟩

/-- No attribute is written twice under its own name. -/
theorem written_nodup {attrs : Members} (hattrs : (Dict.keys attrs).Nodup) :
    (written attrs).Nodup :=
  hattrs.sublist (List.filter_sublist.map _)

theorem writtenAttribute_name {name : String} {v : Value} {a : Attribute}
    (h : writtenAttribute name v = some a) : a.1 = htmlName name := by
  unfold writtenAttribute at h
  split at h
  · split at h
    all_goals cases h
    all_goals rfl
  · cases h

/-- Written members keep their names but for the two that HTML calls otherwise. -/
theorem names_writtenAttributes : ∀ attrs : Members,
    (attrs.filterMap fun (name, v) => writtenAttribute name v).map Prod.fst =
      (written attrs).map htmlName
  | [] => rfl
  | (name, v) :: attrs => by
    have ih := names_writtenAttributes attrs
    unfold written at ih ⊢
    obtain hwritten | ⟨a, hwritten⟩ := Option.eq_none_or_eq_some (writtenAttribute name v)
    · simp only [List.filterMap_cons, List.filter_cons, hwritten]
      exact ih
    · simp only [List.filterMap_cons, List.filter_cons, hwritten, List.map_cons, ih,
        writtenAttribute_name hwritten]
      rfl

/-- A start tag has the HTML names of its attributes and then the names of its events. -/
theorem names_startAttributes (attrs : Members) (handlers : List Handler) :
    (startAttributes attrs handlers).map Prod.fst =
      (written attrs).map htmlName ++ handlers.map (eventName ·.event) := by
  rw [startAttributes, List.map_append, names_writtenAttributes, List.map_map]
  rfl

/-- Two names that HTML does not tell apart. -/
theorem htmlName_eq_iff {name name' : String} : htmlName name = htmlName name' ↔
    name = name' ∨ (name = "className" ∧ name' = "class") ∨ (name = "class" ∧ name' = "className") ∨
      (name = "htmlFor" ∧ name' = "for") ∨ (name = "for" ∧ name' = "htmlFor") := by
  unfold htmlName
  split_ifs <;> simp_all [eq_comm]

/-- HTML names repeat only where an attribute stands beside its alias. -/
theorem nodup_map_htmlName_iff {names : List String} (hnames : names.Nodup) :
    (names.map htmlName).Nodup ↔
      ¬("class" ∈ names ∧ "className" ∈ names) ∧ ¬("for" ∈ names ∧ "htmlFor" ∈ names) := by
  rw [List.nodup_map_iff_inj_on hnames]
  constructor
  · intro h
    exact ⟨fun ⟨hclass, hclassName⟩ => absurd (h _ hclass _ hclassName rfl) (by decide),
      fun ⟨hfor, hhtmlFor⟩ => absurd (h _ hfor _ hhtmlFor rfl) (by decide)⟩
  · rintro ⟨hclass, hfor⟩ name hname name' hname' heq
    obtain rfl | ⟨rfl, rfl⟩ | ⟨rfl, rfl⟩ | ⟨rfl, rfl⟩ | ⟨rfl, rfl⟩ := htmlName_eq_iff.mp heq
    · rfl
    · exact absurd ⟨hname', hname⟩ hclass
    · exact absurd ⟨hname, hname'⟩ hclass
    · exact absurd ⟨hname', hname⟩ hfor
    · exact absurd ⟨hname, hname'⟩ hfor

/-- Only an attribute that is called like an event is written like it. -/
theorem htmlName_eq_eventName_iff {name : String} {event : Event} (h : event ∈ Event.known) :
    htmlName name = eventName event ↔ name = eventName event := by
  have hkept : ∀ event ∈ Event.known, htmlName (eventName event) = eventName event := by decide
  have hother : ∀ event ∈ Event.known, ∀ renamed ∈ ["class", "className", "for", "htmlFor"],
      renamed ≠ eventName event := by decide
  constructor
  · intro heq
    rw [← hkept event h] at heq
    obtain hname | ⟨-, hname⟩ | ⟨-, hname⟩ | ⟨-, hname⟩ | ⟨-, hname⟩ := htmlName_eq_iff.mp heq
    · exact hname
    all_goals exact absurd hname.symm (hother event h _ (by decide))
  · rintro rfl
    exact hkept event h

/-- A start tag repeats a name exactly if a member has the HTML name of another or that of the
attribute of an event. -/
theorem nodup_startAttributes_iff {attrs : Members} {handlers : List Handler}
    (hattrs : (Dict.keys attrs).Nodup)
    (hhandlers : (handlers.map Handler.event).Sublist Event.known) :
    ((startAttributes attrs handlers).map Prod.fst).Nodup ↔
      (¬("class" ∈ written attrs ∧ "className" ∈ written attrs) ∧
        ¬("for" ∈ written attrs ∧ "htmlFor" ∈ written attrs)) ∧
        ∀ h ∈ handlers, eventName h.event ∉ written attrs := by
  have hevents : (handlers.map (eventName ·.event)).Nodup := by
    have hknown : (Event.known.map eventName).Nodup := by decide
    have hsub := hhandlers.map eventName
    rw [List.map_map] at hsub
    exact hknown.sublist hsub
  rw [names_startAttributes, List.nodup_append, nodup_map_htmlName_iff (written_nodup hattrs)]
  -- events have different names, so one is repeated by an attribute or not at all
  refine and_congr_right fun _ => ⟨fun ⟨_, hne⟩ h hm hw => ?_, fun hne => ⟨hevents, ?_⟩⟩
  · have hknown := hhandlers.mem (List.mem_map_of_mem hm)
    exact hne _ (List.mem_map_of_mem hw) _ (List.mem_map_of_mem (f := (eventName ·.event)) hm)
      ((htmlName_eq_eventName_iff hknown).mpr rfl)
  · intro a ha b hb hab
    obtain ⟨name, hname, rfl⟩ := List.mem_map.mp ha
    obtain ⟨h, hm, rfl⟩ := List.mem_map.mp hb
    have hknown := hhandlers.mem (List.mem_map_of_mem hm)
    exact hne h hm ((htmlName_eq_eventName_iff hknown).mp hab ▸ hname)

end Html

end ServerUi
