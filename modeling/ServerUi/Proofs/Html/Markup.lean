import ServerUi.Proofs.Blueprint.Shown
import ServerUi.Proofs.Html.Scanner

/-!
# ServerUi.Proofs.Html.Markup — what the HTML of a view says

`View.markup` lists the tags and texts of a view without a character of HTML in it.  The HTML of a
view is its markup written token by token, so a scanner finds the markup again, whatever the texts,
values, messages and actions are made of.  Names are the one thing that is not escaped; the built-in
components use plain ones.
-/

namespace ServerUi

open Html

namespace Html

/-- The attribute a member of the attributes is written as.  What has no attribute form and what has
no plain name is left out. -/
def writtenAttribute (name : String) (v : Value) : Option Attribute :=
  if isPlainName (htmlName name) then
    match v with
    | .bool true => some (htmlName name, none)
    | .str s => some (htmlName name, some s)
    | .num n => some (htmlName name, some n.text)
    | _ => none
  else none

/-- The attribute of a handler: its action as JSON under the name of its event. -/
def handlerAttribute (h : Handler) : Attribute :=
  ("data-sdui-on-" ++ h.event.spelling, some h.action.toValue.compact)

/-- The attributes in a start tag, in order. -/
def startAttributes (attrs : Members) (handlers : List Handler) : List Attribute :=
  attrs.filterMap (fun (name, v) => writtenAttribute name v) ++ handlers.map handlerAttribute

end Html

/-- A placeholder is an element around its message. -/
def Placeholder.markup (p : Placeholder) : List Markup :=
  [.opening "div" [("class", some "sdui-error"), ("role", some "alert")], .text p.message,
    .closing "div"]

mutual

/-- The tags and texts of a view.  A void element has nothing inside. -/
def View.markup : View → List Markup
  | .empty => []
  | .text t => [.text t]
  | .element e => e.markup
  | .fragment children => markups children
  | .placeholder p => p.markup

/-- An element is one tag, or its children between two. -/
def Element.markup : Element → List Markup
  | ⟨_, tag, _, attrs, handlers, children, void⟩ =>
    if isSelfClosed void tag then [.selfClosed tag (startAttributes attrs handlers)]
    else .opening tag (startAttributes attrs handlers) ::
      (if void then [] else markups children) ++ [.closing tag]

/-- The markup of views one after the other. -/
def markups : List View → List Markup
  | [] => []
  | v :: rest => v.markup ++ markups rest

end

/-- The tag and the events of the element have plain names. -/
def Element.HasPlainNames (e : Element) : Prop :=
  isPlainName e.tag = true ∧ ∀ h ∈ e.handlers, isPlainName h.event.spelling = true

/-- The tags and events in the view have plain names. -/
def View.HasPlainNames (v : View) : Prop := ∀ e ∈ v.elements, e.HasPlainNames

instance (e : Element) : Decidable e.HasPlainNames :=
  inferInstanceAs (Decidable (_ ∧ _))

instance (v : View) : Decidable v.HasPlainNames :=
  inferInstanceAs (Decidable (∀ e ∈ v.elements, e.HasPlainNames))

namespace Html

/-! ### The HTML of a view is its markup, written -/

theorem toList_bare (name : String) : (" " ++ name).toList = writeAttribute (name, none) := by
  rw [String.toList_append]
  rfl

theorem toList_quoted (name : String) {text value : String}
    (h : text.toList = entities value.toList) :
    (" " ++ name ++ "=\"" ++ text ++ "\"").toList = writeAttribute (name, some value) := by
  simp [writeAttribute, h]

/-- A prop is written as one attribute or not at all. -/
theorem toList_attr (name : String) (v : Value) :
    (attr name v).toList = (writtenAttribute name v).toList.flatMap writeAttribute := by
  have hsome (a : Attribute) : (some a).toList.flatMap writeAttribute = writeAttribute a :=
    List.flatMap_singleton writeAttribute a
  unfold attr writtenAttribute
  by_cases h : isPlainName (htmlName name) = true
  · rw [if_pos h, if_pos h]
    cases v with
    | bool b =>
      cases b with
      | true => exact (toList_bare (htmlName name)).trans (hsome _).symm
      | false => rfl
    | str s => exact (toList_quoted (htmlName name) (toList_escape s)).trans (hsome _).symm
    | num n => exact (toList_quoted (htmlName name) (entities_number n).symm).trans (hsome _).symm
    | _ => rfl
  · rw [if_neg h, if_neg h]
    rfl

theorem toList_handler (h : Handler) :
    (handler h).toList = writeAttribute (handlerAttribute h) := by
  have hdata : " data-sdui-on-" = " " ++ "data-sdui-on-" := by decide
  unfold handler
  rw [hdata, @String.append_assoc " "]
  exact toList_quoted _ (toList_escape _)

theorem toList_startTag (e : Element) : (startTag e).toList =
    '<' :: e.tag.toList ++ (startAttributes e.attrs e.handlers).flatMap writeAttribute := by
  have hattrs : ∀ attrs : Members, (attrs.map fun (name, v) => attr name v).flatMap String.toList =
      (attrs.filterMap fun (name, v) => writtenAttribute name v).flatMap writeAttribute := by
    intro attrs
    rw [List.flatMap_map, List.filterMap_eq_flatMap_toList, List.flatMap_assoc]
    refine congrArg (attrs.flatMap ·) (funext fun a => ?_)
    obtain ⟨name, v⟩ := a
    exact toList_attr name v
  have hhandlers : ∀ handlers : List Handler, (handlers.map handler).flatMap String.toList =
      (handlers.map handlerAttribute).flatMap writeAttribute := by
    intro handlers
    rw [List.flatMap_map, List.flatMap_map]
    exact congrArg (handlers.flatMap ·) (funext toList_handler)
  rw [startTag, String.toList_append, String.toList_append, String.toList_append,
    String.toList_join, String.toList_join, hattrs, hhandlers, startAttributes,
    List.flatMap_append, ← List.append_assoc]
  rfl

theorem toList_append_escape_append (before s after : String) :
    (before ++ escape s ++ after).toList =
      before.toList ++ (entities s.toList ++ after.toList) := by
  rw [String.toList_append, String.toList_append, toList_escape, List.append_assoc]

theorem toList_placeholder (p : Placeholder) :
    (placeholder p).toList = p.markup.flatMap Markup.write := by
  have hopening : "<div class=\"sdui-error\" role=\"alert\">".toList =
      (Markup.opening "div" [("class", some "sdui-error"), ("role", some "alert")]).write := by
    decide +kernel
  have hclosing : "</div>".toList = (Markup.closing "div").write := by decide +kernel
  have hmarkup : p.markup.flatMap Markup.write =
      (Markup.opening "div" [("class", some "sdui-error"), ("role", some "alert")]).write ++
        (entities p.message.toList ++ (Markup.closing "div").write) := by
    unfold Placeholder.markup
    rw [List.flatMap_cons, List.flatMap_cons, List.flatMap_singleton]
    rfl
  rw [hmarkup, ← hopening, ← hclosing]
  exact toList_append_escape_append _ _ _

mutual

/-- The HTML of a view is its markup written out. -/
theorem toList_view : ∀ v : View, (view v).toList = v.markup.flatMap Markup.write
  | .empty => rfl
  | .text t => by
    rw [view, toList_escape, View.markup, List.flatMap_singleton, Markup.write]
  | .element e => by
    rw [view, View.markup]
    exact toList_element e
  | .fragment children => by
    rw [view, View.markup]
    exact toList_views children
  | .placeholder p => by
    rw [view, View.markup]
    exact toList_placeholder p

theorem toList_element : ∀ e : Element, (element e).toList = e.markup.flatMap Markup.write
  | ⟨component, tag, key, attrs, handlers, children, void⟩ => by
    have hchildren := toList_views children
    rw [element, Element.markup, String.toList_append, toList_startTag]
    -- the brackets after the start tag belong to the tokens
    by_cases hs : isSelfClosed void tag = true
    · rw [if_pos hs, if_pos hs, List.flatMap_singleton, Markup.write]
      rfl
    · rw [if_neg hs, if_neg hs]
      cases void with
      | true => simp [Markup.write]
      | false => simp [Markup.write, hchildren]

theorem toList_views : ∀ vs : List View, (views vs).toList = (markups vs).flatMap Markup.write
  | [] => rfl
  | v :: rest => by
    rw [views, markups, String.toList_append, List.flatMap_append, toList_view v, toList_views rest]

end

/-! ### Plain names -/

theorem isPlainName_append {name name' : String} (h : ∀ c ∈ name.toList, isNameChar c = true)
    (h' : isPlainName name' = true) : isPlainName (name ++ name') = true := by
  obtain ⟨hne, hall⟩ := isPlainName_iff.mp h'
  rw [isPlainName_iff, String.toList_append]
  exact ⟨List.append_ne_nil_of_right_ne_nil _ hne, List.forall_mem_append.mpr ⟨h, hall⟩⟩

/-- What is written as an attribute has a plain name. -/
theorem isPlainName_of_writtenAttribute {name : String} {v : Value} {a : Attribute}
    (h : writtenAttribute name v = some a) : isPlainName a.1 = true := by
  unfold writtenAttribute at h
  by_cases hname : isPlainName (htmlName name) = true
  · rw [if_pos hname] at h
    split at h
    all_goals
      cases h
      try exact hname
  · rw [if_neg hname] at h
    cases h

/-- The attributes of a start tag have plain names if the events of its handlers do. -/
theorem isPlainName_of_mem_startAttributes {attrs : Members} {handlers : List Handler}
    (h : ∀ handler ∈ handlers, isPlainName handler.event.spelling = true) :
    ∀ a ∈ startAttributes attrs handlers, isPlainName a.1 = true := by
  have hdata : ∀ c ∈ "data-sdui-on-".toList, isNameChar c = true :=
    List.all_eq_true.mp (by decide)
  intro a ha
  obtain ha | ha := List.mem_append.mp ha
  · obtain ⟨⟨name, v⟩, -, hwritten⟩ := List.mem_filterMap.mp ha
    exact isPlainName_of_writtenAttribute hwritten
  · obtain ⟨handler, hm, rfl⟩ := List.mem_map.mp ha
    exact isPlainName_append hdata (h handler hm)

mutual

theorem isPlain_of_mem_markup : ∀ {v : View}, (∀ e, .element e ∈ v.preorder → e.HasPlainNames) →
    ∀ t ∈ v.markup, t.IsPlain
  | .empty, _, _, ht => by cases ht
  | .text t, _, _, ht => by
    obtain rfl := List.mem_singleton.mp ht
    trivial
  | .element e, h, t, ht => by
    rw [View.markup] at ht
    exact isPlain_of_mem_element_markup h t ht
  | .fragment children, h, t, ht => by
    rw [View.markup] at ht
    refine isPlain_of_mem_markups (fun e he => h e ?_) t ht
    rw [View.preorder]
    exact List.mem_cons_of_mem _ he
  | .placeholder p, _, t, ht => by
    -- the names in a placeholder are fixed
    have hdiv : isPlainName "div" = true := by decide
    have hattrs : ∀ a ∈ ([("class", some "sdui-error"), ("role", some "alert")] : List Attribute),
        isPlainName a.1 = true := by decide
    rw [View.markup, Placeholder.markup] at ht
    simp only [List.mem_cons, List.not_mem_nil, or_false] at ht
    obtain rfl | rfl | rfl := ht
    · exact ⟨hdiv, hattrs⟩
    · trivial
    · exact hdiv

theorem isPlain_of_mem_element_markup :
    ∀ {e : Element}, (∀ e', .element e' ∈ (View.element e).preorder → e'.HasPlainNames) →
      ∀ t ∈ e.markup, t.IsPlain
  | ⟨component, tag, key, attrs, handlers, children, void⟩, h, t, ht => by
    obtain ⟨htag, hhandlers⟩ := h _ (View.mem_preorder_element.mpr (.inl rfl))
    have hattrs : ∀ a ∈ startAttributes attrs handlers, isPlainName a.1 = true :=
      isPlainName_of_mem_startAttributes hhandlers
    have hchildren : ∀ t ∈ markups children, t.IsPlain := isPlain_of_mem_markups fun e he =>
      h e (View.mem_preorder_element.mpr (.inr he))
    rw [Element.markup] at ht
    by_cases hs : isSelfClosed void tag = true
    · rw [if_pos hs, List.mem_singleton] at ht
      subst ht
      exact ⟨htag, hattrs⟩
    · rw [if_neg hs, List.mem_append, List.mem_cons, List.mem_singleton] at ht
      obtain (rfl | ht) | rfl := ht
      · exact ⟨htag, hattrs⟩
      · cases void with
        | true => cases ht
        | false => exact hchildren t ht
      · exact htag

theorem isPlain_of_mem_markups :
    ∀ {vs : List View}, (∀ e, .element e ∈ View.preorders vs → e.HasPlainNames) →
      ∀ t ∈ markups vs, t.IsPlain
  | [], _, _, ht => by cases ht
  | v :: rest, h, t, ht => by
    rw [markups, List.mem_append] at ht
    rw [View.preorders] at h
    obtain ht | ht := ht
    · exact isPlain_of_mem_markup (fun e he => h e (List.mem_append_left _ he)) t ht
    · exact isPlain_of_mem_markups (fun e he => h e (List.mem_append_right _ he)) t ht

end

/-! ### Nesting -/

/-- Every tag that is opened is closed once, in the reverse order. -/
inductive Nested : List Markup → Prop
  | nil : Nested []
  | text {s : String} {rest : List Markup} (h : Nested rest) : Nested (.text s :: rest)
  | selfClosed {tag : String} {attrs : List Attribute} {rest : List Markup} (h : Nested rest) :
      Nested (.selfClosed tag attrs :: rest)
  | element {tag : String} {attrs : List Attribute} {inside rest : List Markup}
      (hinside : Nested inside) (h : Nested rest) :
      Nested (.opening tag attrs :: inside ++ .closing tag :: rest)

theorem Nested.append {ts ts' : List Markup} (h : Nested ts) (h' : Nested ts') :
    Nested (ts ++ ts') := by
  induction h with
  | nil => exact h'
  | text _ ih => exact .text ih
  | selfClosed _ ih => exact .selfClosed ih
  | element hinside _ _ ih =>
    rw [List.append_assoc, List.cons_append]
    exact .element hinside ih

theorem nested_textRun (s : String) : Nested (textRun s) := by
  unfold textRun
  split
  · exact .nil
  · exact .text .nil

/-- Texts are not joined across a tag. -/
theorem joinedAfter_append_tag {t : Markup} (h : t.isTag = true) (bs : List Markup) :
    ∀ (pending : String) (as : List Markup),
      joinedAfter pending (as ++ t :: bs) = joinedAfter pending as ++ t :: joinedAfter "" bs
  | pending, [] => by rw [List.nil_append, joinedAfter_tag h, joinedAfter]
  | pending, a :: as => by
    rw [List.cons_append]
    cases ha : a.isTag with
    | true =>
      rw [joinedAfter_tag ha, joinedAfter_tag ha, joinedAfter_append_tag h bs "" as,
        List.append_assoc, List.cons_append]
    | false =>
      obtain ⟨s, rfl⟩ := Markup.exists_text_of_not_isTag ha
      rw [joinedAfter, joinedAfter, joinedAfter_append_tag h bs (pending ++ s) as]

/-- Joining texts leaves the nesting of the tags as it is. -/
theorem Nested.joinedAfter {ts : List Markup} (h : Nested ts) :
    ∀ pending, Nested (joinedAfter pending ts) := by
  induction h with
  | nil => exact nested_textRun
  | text _ ih =>
    intro pending
    rw [Html.joinedAfter]
    exact ih _
  | selfClosed _ ih =>
    intro pending
    -- the pending text is written out before the tag, and none is pending behind it
    rw [joinedAfter_tag rfl]
    exact (nested_textRun pending).append (.selfClosed (ih ""))
  | element _ _ ihinside ih =>
    intro pending
    rw [List.cons_append, joinedAfter_tag rfl, joinedAfter_append_tag rfl]
    exact (nested_textRun pending).append (.element (ihinside "") (ih ""))

mutual

/-- The tags of a view nest. -/
theorem nested_markup : ∀ v : View, Nested v.markup
  | .empty => .nil
  | .text _ => .text .nil
  | .element e => by
    rw [View.markup]
    exact nested_element_markup e
  | .fragment children => by
    rw [View.markup]
    exact nested_markups children
  | .placeholder p => by
    rw [View.markup]
    exact .element (.text .nil) .nil

theorem nested_element_markup : ∀ e : Element, Nested e.markup
  | ⟨_, tag, _, attrs, handlers, children, void⟩ => by
    rw [Element.markup]
    by_cases hs : isSelfClosed void tag = true
    · rw [if_pos hs]
      exact .selfClosed .nil
    · rw [if_neg hs]
      cases void with
      | true => exact .element .nil .nil
      | false => exact .element (nested_markups children) .nil

theorem nested_markups : ∀ vs : List View, Nested (markups vs)
  | [] => .nil
  | v :: rest => by
    rw [markups]
    exact (nested_markup v).append (nested_markups rest)

end

theorem filter_isTag_textRun (s : String) : (textRun s).filter Markup.isTag = [] := by
  unfold textRun
  split <;> rfl

/-- Joining texts leaves the tags alone. -/
theorem filter_isTag_joinedAfter :
    ∀ (ts : List Markup) (pending : String),
      (joinedAfter pending ts).filter Markup.isTag = ts.filter Markup.isTag
  | [], pending => filter_isTag_textRun pending
  | t :: ts, pending => by
    cases ht : t.isTag with
    | true =>
      rw [joinedAfter_tag ht, List.filter_append, filter_isTag_textRun, List.nil_append,
        List.filter_cons_of_pos ht, List.filter_cons_of_pos ht, filter_isTag_joinedAfter ts ""]
    | false =>
      obtain ⟨s, rfl⟩ := Markup.exists_text_of_not_isTag ht
      rw [joinedAfter, filter_isTag_joinedAfter ts (pending ++ s)]
      rfl

/-! ### Scanning the HTML of a view -/

/-- Wired events have plain names. -/
theorem isPlainName_of_isWired {event : Event} (h : event.isWired = true) :
    isPlainName event.spelling = true := by
  cases event with
  | other => cases h
  | _ => decide

/-- Tags and events of the built-in components have plain names, whatever the schema. -/
theorem hasPlainNames_builtin (n : Node) (document : Value) :
    (n.view .builtin document).HasPlainNames := by
  intro e he
  obtain ⟨part, -, hshown⟩ :=
    Node.shows_of_mem_view Registry.builtin_allAdapters (View.mem_elements.mp he)
  cases hshown with
  | @component c input _ hc hview hw _ hhandlers =>
    obtain ⟨e', he', -, htag⟩ := Component.builtin_view hc input
    obtain rfl : e = e' := View.element.inj (hview.symm.trans he')
    have hplain : ∀ tag ∈ Component.hostTags, isPlainName tag = true := by decide +kernel
    refine ⟨hplain _ htag, fun h hm => ?_⟩
    rw [hw.handlers, hhandlers] at hm
    exact isPlainName_of_isWired (Node.mem_of_mem_wiredHandlers hm).2

/-- A scanner finds in the HTML of a view the view's tags with their attributes, and its texts
between them.  The tags are nested, and no text makes or unmakes one.  Whatever the built-in
components show is covered. -/
theorem scan_view :
    (∀ v : View, v.HasPlainNames →
      scan (view v) = some (joined v.markup) ∧ Nested (joined v.markup) ∧
        (joined v.markup).filter Markup.isTag = v.markup.filter Markup.isTag) ∧
      ∀ (s : Schema) (document : Value), (s.root.view .builtin document).HasPlainNames := by
  refine ⟨fun v hv => ⟨?_, (nested_markup v).joinedAfter "", filter_isTag_joinedAfter _ ""⟩,
    fun s document => hasPlainNames_builtin s.root document⟩
  have hview : view v = String.ofList (v.markup.flatMap Markup.write) := by
    rw [← toList_view, String.ofList_toList]
  rw [hview]
  exact scan_write (isPlain_of_mem_markup fun e he => hv e (View.mem_elements.mpr he))

/-- Tags, quotes and entities in every place where a text can stand. -/
def hostile : View :=
  .fragment
    [.element
      { component := "Link", tag := "a", key := none, void := false
        attrs := [("bad name", .str "x"), ("className", .str "b\" onclick=\"&quot;"),
          ("disabled", .bool true), ("hidden", .bool false), ("tabIndex", .num (.int (-1)))]
        handlers := [.wire .click ((Action.ofKind .navigate).insertPayload "path" (.str "\"></a>"))]
        children := [.text "1 < 2 &amp; ", .text "</a><script>",
          .placeholder (.unknownComponent "<b>")] },
    .element ⟨"Image", "img", none, [], [], [.text "unseen"], true⟩]

theorem scan_view_hostile :
    hostile.HasPlainNames ∧
      scan (view hostile) = some
        [.opening "a" [("class", some "b\" onclick=\"&quot;"), ("disabled", none),
            ("tabIndex", some "-1"), ("data-sdui-on-click",
              some "\x7b\"type\":\"navigate\",\"payload\":\x7b\"path\":\"\\\"></a>\"\x7d\x7d")],
          .text "1 < 2 &amp; </a><script>",
          .opening "div" [("class", some "sdui-error"), ("role", some "alert")],
          .text "Unknown component: <b>", .closing "div", .closing "a", .selfClosed "img" []] := by
  have hplain : hostile.HasPlainNames := by decide +kernel
  exact ⟨hplain, (scan_view.1 hostile hplain).1.trans (by decide +kernel)⟩

end Html

end ServerUi
