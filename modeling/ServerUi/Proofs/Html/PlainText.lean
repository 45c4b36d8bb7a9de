import ServerUi.Proofs.Html.StartTag

/-!
# ServerUi.Proofs.Html.PlainText — HTML without its tags

A tag is a span from `<` to `>` with no other `>` in it, since names are plain and values escaped,
and escaped text has no `<`.  So deleting the spans leaves the texts of the markup, escaped, and
reading the entities gives the text that the view shows.
-/

namespace ServerUi

open Html

namespace Html

/-- The text without its spans from `<` to the next `>`.  A `<` with no `>` after it begins none. -/
def withoutSpans : List Char → List Char
  | [] => []
  | c :: rest =>
    if c = '<' ∧ '>' ∈ rest then withoutSpans (rest.dropWhile (· ≠ '>')).tail
    else c :: withoutSpans rest
termination_by s => s.length
decreasing_by
  · have hdrop : (rest.dropWhile (· ≠ '>')).length ≤ rest.length :=
      (List.dropWhile_sublist _).length_le
    simp only [List.length_tail, List.length_cons]
    omega
  · simp

theorem withoutSpans_append {s : List Char} (h : '<' ∉ s) (rest : List Char) :
    withoutSpans (s ++ rest) = s ++ withoutSpans rest := by
  induction s with
  | nil => rfl
  | cons c s ih =>
    obtain ⟨hc, hs⟩ : '<' ≠ c ∧ '<' ∉ s := by simpa using h
    rw [List.cons_append, withoutSpans, if_neg fun hspan => hc hspan.1.symm, ih hs,
      List.cons_append]

theorem withoutSpans_span {inside : List Char} (h : '>' ∉ inside) (rest : List Char) :
    withoutSpans ('<' :: inside ++ '>' :: rest) = withoutSpans rest := by
  have hkept : ∀ c ∈ inside, (decide (c ≠ '>')) = true := by
    intro c hc
    exact decide_eq_true fun hgt => h (hgt ▸ hc)
  have hmem : '>' ∈ inside ++ '>' :: rest := List.mem_append_right _ List.mem_cons_self
  rw [List.cons_append, withoutSpans, if_pos ⟨rfl, hmem⟩, List.dropWhile_append_of_pos hkept]
  rfl

/-! ### Written tokens -/

theorem not_mem_of_isPlainName {name : String} (h : isPlainName name = true) :
    '>' ∉ name.toList := by
  intro hgt
  have hplain : isNameChar '>' = true := (isPlainName_iff.mp h).2 _ hgt
  revert hplain
  decide

/-- An attribute with a plain name closes no bracket: its value is escaped. -/
theorem not_mem_writeAttribute {a : Attribute} (h : isPlainName a.1 = true) :
    '>' ∉ writeAttribute a := by
  obtain ⟨name, value⟩ := a
  have hname : '>' ∉ name.toList := not_mem_of_isPlainName h
  cases value with
  | none => simp [writeAttribute, hname]
  | some value =>
    have hvalue : '>' ∉ entities value.toList := fun hgt =>
      ne_of_mem_entities hgt (by decide) (by decide) rfl
    simp [writeAttribute, hname, hvalue]

theorem not_mem_writeAttributes {attrs : List Attribute}
    (h : ∀ a ∈ attrs, isPlainName a.1 = true) : '>' ∉ attrs.flatMap writeAttribute := by
  intro hgt
  obtain ⟨a, ha, hmem⟩ := List.mem_flatMap.mp hgt
  exact not_mem_writeAttribute (h a ha) hmem

/-- A written tag is one span. -/
theorem exists_span {t : Markup} (ht : t.isTag = true) (h : t.IsPlain) :
    ∃ inside, t.write = '<' :: inside ++ ['>'] ∧ '>' ∉ inside := by
  cases t with
  | opening tag attrs =>
    refine ⟨tag.toList ++ attrs.flatMap writeAttribute, rfl, ?_⟩
    exact List.not_mem_append (not_mem_of_isPlainName h.1) (not_mem_writeAttributes h.2)
  | closing tag => exact ⟨'/' :: tag.toList, rfl, by simpa using not_mem_of_isPlainName h⟩
  | selfClosed tag attrs =>
    refine ⟨tag.toList ++ attrs.flatMap writeAttribute ++ [' ', '/'], ?_, ?_⟩
    · simp [Markup.write]
    · refine List.not_mem_append ?_ (by decide)
      exact List.not_mem_append (not_mem_of_isPlainName h.1) (not_mem_writeAttributes h.2)
  | text s => cases ht

/-- What a token says to a reader. -/
def Markup.said : Markup → String
  | text s => s
  | _ => ""

theorem said_of_isTag {t : Markup} (h : t.isTag = true) : t.said = "" := by
  cases t with
  | text s => cases h
  | _ => rfl

/-- What is left of plain markup without its tags is what the markup says, escaped. -/
theorem withoutSpans_write : ∀ {ts : List Markup}, (∀ t ∈ ts, t.IsPlain) →
    withoutSpans (ts.flatMap Markup.write) = entities (ts.flatMap (·.said.toList))
  | [], _ => by
    rw [List.flatMap_nil, List.flatMap_nil, withoutSpans]
    rfl
  | t :: ts, h => by
    obtain ⟨ht, hts⟩ := List.forall_mem_cons.mp h
    have ih := withoutSpans_write hts
    rw [List.flatMap_cons, List.flatMap_cons, entities_append, ← ih]
    cases htag : t.isTag with
    | true =>
      -- a tag is one span, as nothing in it closes the bracket
      obtain ⟨inside, hwrite, hinside⟩ := exists_span htag ht
      rw [hwrite, List.append_assoc, List.singleton_append, withoutSpans_span hinside,
        said_of_isTag htag]
      rfl
    | false =>
      obtain ⟨s, rfl⟩ := Markup.exists_text_of_not_isTag htag
      -- an escaped text opens no bracket
      have hlt : '<' ∉ entities s.toList := fun hmem =>
        ne_of_mem_entities hmem (by decide) (by decide) rfl
      exact withoutSpans_append hlt _

/-! ### Views -/

/-- What a part of a view says on its own is its own text. -/
theorem flatMap_said_ownMarkup (x : View) :
    x.ownMarkup.flatMap (·.said.toList) = x.ownText.toList := by
  cases x with
  | element e =>
    have hsaid : e.startMarkup.said = "" := by
      unfold Element.startMarkup
      split <;> rfl
    rw [View.ownMarkup, List.flatMap_singleton, hsaid]
    rfl
  | _ => simp [View.ownMarkup, View.ownText, Markup.said]

/-- The texts of the markup are those that the view shows. -/
theorem flatMap_said_markup {v : View}
    (h : ∀ e, .element e ∈ v.preorder → e.void = true → e.children = []) :
    v.markup.flatMap (·.said.toList) = v.shownText.toList := by
  rw [flatMap_markup (fun _ => rfl) h, View.shownText, String.toList_join, List.flatMap_map]
  exact congrArg (v.preorder.flatMap ·) (funext flatMap_said_ownMarkup)

/-- What is left of the HTML of a view without its tags is the text it shows, escaped. -/
theorem withoutSpans_view {v : View} (hplain : v.HasPlainNames)
    (hvoid : ∀ e, .element e ∈ v.preorder → e.void = true → e.children = []) :
    withoutSpans (view v).toList = entities v.shownText.toList := by
  rw [toList_view, withoutSpans_write (isPlain_of_mem_markup fun e he =>
    hplain e (View.mem_elements.mpr he)), flatMap_said_markup hvoid]

end Html

/-- The HTML of a schema, its tags deleted and its entities read, is the text its view shows. -/
theorem Schema.unescape_withoutSpans_view (s : Schema) (document : Value) :
    let v := s.root.view .builtin document
    unescape (withoutSpans (Html.view v).toList) = v.shownText.toList := by
  intro v
  have hvoid : ∀ e, .element e ∈ v.preorder → e.void = true → e.children = [] :=
    fun _ he => Node.children_of_void Registry.builtin_allAdapters he
  rw [withoutSpans_view (hasPlainNames_builtin s.root document) hvoid, unescape_entities]

end ServerUi
