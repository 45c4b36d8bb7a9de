import Mathlib.Data.List.Basic
import ServerUi.Proofs.Number.Text
import ServerUi.View.Html

/-!
# ServerUi.Proofs.Html.Escape — escaping character by character

Replacements one after the other come to one pass if none replaces what an earlier one has written
(`toList_replaceEach`), and in their order the five of `escape` are such (`escapes_pairwise`).  So
escaping writes an entity for each special character (`toList_escape`).  No special character but the
ampersand is left, every ampersand begins an entity (`exists_of_entities_eq_append`), and reading the
entities gives the text back (`unescape_entities`).
-/

namespace ServerUi

namespace Html

/-- The text that stands for a character. -/
def entity (c : Char) : List Char :=
  if c = '&' then ['&', 'a', 'm', 'p', ';']
  else if c = '<' then ['&', 'l', 't', ';']
  else if c = '>' then ['&', 'g', 't', ';']
  else if c = '"' then ['&', 'q', 'u', 'o', 't', ';']
  else if c = '\'' then ['&', '#', '3', '9', ';']
  else [c]

/-- The characters that have an entity. -/
def specialChars : List Char := ['&', '<', '>', '"', '\'']

/-- Every character written as its entity. -/
def entities (s : List Char) : List Char := s.flatMap entity

/-- Every entity read as its character, in one pass. -/
def unescape : List Char → List Char
  | '&' :: 'a' :: 'm' :: 'p' :: ';' :: rest => '&' :: unescape rest
  | '&' :: 'l' :: 't' :: ';' :: rest => '<' :: unescape rest
  | '&' :: 'g' :: 't' :: ';' :: rest => '>' :: unescape rest
  | '&' :: 'q' :: 'u' :: 'o' :: 't' :: ';' :: rest => '"' :: unescape rest
  | '&' :: '#' :: '3' :: '9' :: ';' :: rest => '\'' :: unescape rest
  | c :: rest => c :: unescape rest
  | [] => []

theorem not_mem_specialChars {c : Char} :
    c ∉ specialChars ↔ c ≠ '&' ∧ c ≠ '<' ∧ c ≠ '>' ∧ c ≠ '"' ∧ c ≠ '\'' := by
  simp [specialChars]

theorem forall_mem_specialChars {P : Char → Prop} :
    (∀ c ∈ specialChars, P c) ↔ P '&' ∧ P '<' ∧ P '>' ∧ P '"' ∧ P '\'' := by
  simp [specialChars]

theorem entity_of_not_special {c : Char} (h : c ∉ specialChars) : entity c = [c] := by
  obtain ⟨hamp, hlt, hgt, hquot, hapos⟩ := not_mem_specialChars.mp h
  rw [entity, if_neg hamp, if_neg hlt, if_neg hgt, if_neg hquot, if_neg hapos]

theorem entities_cons (c : Char) (s : List Char) : entities (c :: s) = entity c ++ entities s :=
  List.flatMap_cons

theorem entities_append (s t : List Char) : entities (s ++ t) = entities s ++ entities t :=
  List.flatMap_append

theorem entities_eq_self {s : List Char} (h : ∀ c ∈ s, c ∉ specialChars) : entities s = s := by
  induction s with
  | nil => rfl
  | cons c s ih =>
    obtain ⟨hc, hs⟩ := List.forall_mem_cons.mp h
    rw [entities_cons, entity_of_not_special hc, ih hs, List.singleton_append]

/-! ### The replacements -/

theorem toList_replace (c : Char) (text s : String) :
    (replace c text s).toList = s.toList.flatMap fun x => if x = c then text.toList else [x] := by
  rw [replace, String.toList_ofList]

/-- The replacements of a table, each over what the ones before it have left. -/
def replaceEach (table : List (Char × String)) (s : String) : String :=
  table.foldl (fun s (c, text) => replace c text s) s

/-- The text that stands for a character in a table of replacements. -/
def substitute (table : List (Char × String)) (c : Char) : List Char :=
  ((Dict.get? c table).map String.toList).getD [c]

/-- The replacements of `escape` in their order. -/
def escapes : List (Char × String) :=
  [('&', "&amp;"), ('<', "&lt;"), ('>', "&gt;"), ('"', "&quot;"), ('\'', "&#39;")]

theorem substitute_cons (c c' : Char) (text : String) (table : List (Char × String)) :
    substitute ((c', text) :: table) c = if c = c' then text.toList else substitute table c := by
  rw [substitute, Dict.get?_cons]
  split <;> rfl

theorem substitute_of_not_mem {c : Char} {table : List (Char × String)}
    (h : ∀ p ∈ table, p.1 ≠ c) : substitute table c = [c] := by
  induction table with
  | nil => rfl
  | cons p table ih =>
    obtain ⟨hp, htable⟩ := List.forall_mem_cons.mp h
    rw [substitute_cons, if_neg hp.symm, ih htable]

/-- Replacements leave a text alone that has none of their characters. -/
theorem flatMap_substitute_eq_self {table : List (Char × String)} {s : List Char}
    (h : ∀ p ∈ table, p.1 ∉ s) : s.flatMap (substitute table) = s := by
  have hkept : ∀ c ∈ s, substitute table c = [c] := fun c hc =>
    substitute_of_not_mem fun p hp e => h p hp (e ▸ hc)
  rw [List.flatMap_congr hkept, List.flatMap_singleton']

/-- Replacements one after the other come to one pass, unless one replaces what an earlier one has
written. -/
theorem toList_replaceEach {table : List (Char × String)}
    (h : table.Pairwise fun earlier later => later.1 ∉ earlier.2.toList) (s : String) :
    (replaceEach table s).toList = s.toList.flatMap (substitute table) := by
  induction table generalizing s with
  | nil => exact (List.flatMap_singleton' s.toList).symm
  | cons p table ih =>
    obtain ⟨c, text⟩ := p
    -- the later replacements leave alone what the first one inserts
    obtain ⟨htext, htable⟩ := List.pairwise_cons.mp h
    calc (replaceEach table (replace c text s)).toList
        = (s.toList.flatMap fun x => if x = c then text.toList else [x]).flatMap
            (substitute table) := by rw [ih htable, toList_replace]
      _ = s.toList.flatMap (substitute ((c, text) :: table)) := by
          rw [List.flatMap_assoc]
          refine List.flatMap_congr fun x _ => ?_
          rw [substitute_cons]
          split
          · exact flatMap_substitute_eq_self htext
          · exact List.flatMap_singleton _ x

/-- No entity has a character that is replaced after it is written. -/
theorem escapes_pairwise :
    escapes.Pairwise fun earlier later => later.1 ∉ earlier.2.toList := by
  decide

/-- The five replacements are the five entities. -/
theorem substitute_escapes (c : Char) : substitute escapes c = entity c := by
  simp only [escapes, substitute_cons]
  rfl

/-- Escaping writes an entity for each special character. -/
theorem toList_escape (s : String) : (escape s).toList = entities s.toList := by
  have hreplaced : (escape s).toList = s.toList.flatMap (substitute escapes) :=
    toList_replaceEach escapes_pairwise s
  rw [hreplaced, funext substitute_escapes, entities]

/-! ### What is left after escaping -/

theorem mem_entity {c x : Char} (h : x ∈ entity c) : x = '&' ∨ x ∉ specialChars := by
  by_cases hc : c ∈ specialChars
  · have hspecial : ∀ c ∈ specialChars, ∀ x ∈ entity c, x = '&' ∨ x ∉ specialChars := by
      refine forall_mem_specialChars.mpr ⟨?_, ?_, ?_, ?_, ?_⟩ <;> simp [entity, specialChars]
    exact hspecial c hc x h
  · rw [entity_of_not_special hc, List.mem_singleton] at h
    exact .inr (h ▸ hc)

/-- Escaped text has no special character but the ampersand. -/
theorem mem_entities {s : List Char} {x : Char} (h : x ∈ entities s) :
    x = '&' ∨ x ∉ specialChars := by
  obtain ⟨c, -, hx⟩ := List.mem_flatMap.mp h
  exact mem_entity hx

/-- No special character is left but the ampersand. -/
theorem ne_of_mem_entities {s : List Char} {x c : Char} (h : x ∈ entities s)
    (hc : c ∈ specialChars) (hamp : c ≠ '&') : x ≠ c := by
  rintro rfl
  obtain h | h := mem_entities h
  · exact hamp h
  · exact h hc

/-- An ampersand stands at most at the start of what a character is written as, and then that is an
entity. -/
theorem exists_entity_eq_cons (c : Char) :
    ∃ first rest, entity c = first :: rest ∧ '&' ∉ rest ∧ (first = '&' → c ∈ specialChars) := by
  by_cases hc : c ∈ specialChars
  · have hspecial : ∀ c ∈ specialChars, entity c = '&' :: (entity c).tail ∧ '&' ∉ (entity c).tail :=
      forall_mem_specialChars.mpr (by decide)
    exact ⟨'&', _, (hspecial c hc).1, (hspecial c hc).2, fun _ => hc⟩
  · refine ⟨c, [], entity_of_not_special hc, List.not_mem_nil, ?_⟩
    rintro rfl
    exact absurd (by decide) hc

/-- A character that is not in the first part stands in the second. -/
theorem exists_of_append_eq_append_cons {x : Char} :
    ∀ {s rest before after : List Char}, x ∉ s → s ++ rest = before ++ x :: after →
      ∃ before', before = s ++ before' ∧ rest = before' ++ x :: after
  | [], _, before, _, _, h => ⟨before, rfl, h⟩
  | c :: s, _, [], _, hx, h => absurd ((List.cons.inj h).1 ▸ List.mem_cons_self) hx
  | c :: s, _, c' :: before, _, hx, h => by
    obtain ⟨rfl, htail⟩ := List.cons.inj h
    obtain ⟨before', rfl, hrest⟩ :=
      exists_of_append_eq_append_cons (fun hmem => hx (List.mem_cons_of_mem _ hmem)) htail
    exact ⟨before', rfl, hrest⟩

/-- Every ampersand of escaped text begins the entity of a special character. -/
theorem exists_of_entities_eq_append {s before after : List Char}
    (h : entities s = before ++ '&' :: after) :
    ∃ s₁ c s₂, s = s₁ ++ c :: s₂ ∧ c ∈ specialChars ∧ before = entities s₁ ∧
      '&' :: after = entity c ++ entities s₂ := by
  induction s generalizing before with
  | nil => simp [entities] at h
  | cons c s ih =>
    obtain ⟨first, rest, hentity, hrest, hspecial⟩ := exists_entity_eq_cons c
    rw [entities_cons, hentity] at h
    cases before with
    | nil =>
      -- the ampersand is the first character, so it begins the entity of `c`
      rw [← hentity] at h
      refine ⟨[], c, s, rfl, hspecial ?_, rfl, h.symm⟩
      rw [hentity] at h
      exact (List.cons.inj h).1
    | cons first' before =>
      obtain ⟨rfl, htail⟩ := List.cons.inj h
      -- it is not in the rest of what `c` is written as, so it comes from what follows `c`
      obtain ⟨before', rfl, hlater⟩ := exists_of_append_eq_append_cons hrest htail
      obtain ⟨s₁, c', s₂, rfl, hc', rfl, hafter⟩ := ih hlater
      refine ⟨c :: s₁, c', s₂, rfl, hc', ?_, hafter⟩
      rw [entities_cons, hentity]
      rfl

/-! ### Reading entities -/

theorem unescape_cons {c : Char} (h : c ≠ '&') (rest : List Char) :
    unescape (c :: rest) = c :: unescape rest := by
  rw [unescape]
  all_goals
    intro _ hc
    exact absurd hc h

/-- The entity of a character is read as that character, whatever follows. -/
theorem unescape_entity_append (c : Char) (rest : List Char) :
    unescape (entity c ++ rest) = c :: unescape rest := by
  by_cases hc : c ∈ specialChars
  · simp only [specialChars, List.mem_cons, List.not_mem_nil, or_false] at hc
    obtain rfl | rfl | rfl | rfl | rfl := hc <;> simp [entity, unescape]
  · rw [entity_of_not_special hc, List.singleton_append,
      unescape_cons (not_mem_specialChars.mp hc).1]

theorem unescape_entities_append :
    ∀ s rest : List Char, unescape (entities s ++ rest) = s ++ unescape rest
  | [], _ => rfl
  | c :: s, rest => by
    rw [entities_cons, List.append_assoc, unescape_entity_append, unescape_entities_append s rest,
      List.cons_append]

theorem unescape_entities (s : List Char) : unescape (entities s) = s := by
  have h := unescape_entities_append s []
  rwa [List.append_nil, unescape, List.append_nil] at h

/-! ### Text that needs no escaping -/

theorem not_special_of_isNumeric {c : Char} (h : isNumeric c = true) : c ∉ specialChars := by
  have hspecial : ∀ c ∈ specialChars, isNumeric c = false :=
    forall_mem_specialChars.mpr (by decide)
  intro hc
  rw [hspecial c hc] at h
  cases h

theorem entities_number (n : Number) : entities n.text.toList = n.text.toList :=
  entities_eq_self fun c hc => not_special_of_isNumeric (n.isNumeric_of_mem_text c hc)

/-! ### Escaping -/

/-- Texts are escaped part by part. -/
theorem escape_append (s t : String) : escape (s ++ t) = escape s ++ escape t := by
  rw [← String.toList_inj, String.toList_append, toList_escape, toList_escape, toList_escape,
    String.toList_append, entities_append]

/-- Reading the entities of an escaped text gives the text back. -/
theorem ofList_unescape_escape (s : String) : String.ofList (unescape (escape s).toList) = s := by
  rw [toList_escape, unescape_entities, String.ofList_toList]

/-- The replacements, and the first of them however many, come to one pass over the characters.  In
what they leave every ampersand begins the entity of a character of the text, no other special
character is left, and one pass over the entities reads the text back. -/
theorem escape_single_pass (s : String) :
    escape s = String.ofList (s.toList.flatMap entity) ∧
    escape s = replaceEach escapes s ∧
    (∀ count, (replaceEach (escapes.take count) s).toList =
      s.toList.flatMap (substitute (escapes.take count))) ∧
    (∀ t, escape (s ++ t) = escape s ++ escape t) ∧
    (∀ c ∈ ['<', '>', '"', '\''], c ∉ (escape s).toList) ∧
    (∀ before after, (escape s).toList = before ++ '&' :: after →
      ∃ s₁ c s₂, s = s₁ ++ String.singleton c ++ s₂ ∧ c ∈ specialChars ∧
        before = (escape s₁).toList ∧ '&' :: after = entity c ++ (escape s₂).toList) ∧
    String.ofList (unescape (escape s).toList) = s ∧ ∀ t, escape t = escape s → t = s := by
  refine ⟨?_, rfl, fun count => ?_, escape_append s, ?_, fun before after h => ?_,
    ofList_unescape_escape s, fun t h => ?_⟩
  · rw [← String.toList_inj, String.toList_ofList]
    exact toList_escape s
  · exact toList_replaceEach (escapes_pairwise.sublist (List.take_sublist count escapes)) s
  · have hspecial : ∀ c ∈ ['<', '>', '"', '\''], c ∈ specialChars ∧ c ≠ '&' := by
      simp [specialChars]
    intro c hc hmem
    rw [toList_escape] at hmem
    exact ne_of_mem_entities hmem (hspecial c hc).1 (hspecial c hc).2 rfl
  · rw [toList_escape] at h
    obtain ⟨s₁, c, s₂, hs, hc, hbefore, hafter⟩ := exists_of_entities_eq_append h
    refine ⟨String.ofList s₁, c, String.ofList s₂, ?_, hc, ?_, ?_⟩
    · rw [← String.toList_inj, hs]
      simp
    · rw [toList_escape, String.toList_ofList, hbefore]
    · rw [toList_escape, String.toList_ofList, hafter]
  · rw [← ofList_unescape_escape t, h, ofList_unescape_escape]

/-- Text with an entity in it is escaped once more and so comes back as it was. -/
theorem escape_single_pass_entity :
    escape "&amp;lt; 'a'<b" = "&amp;amp;lt; &#39;a&#39;&lt;b" ∧
      (∃ s₁ c s₂, "&amp;lt; 'a'<b" = s₁ ++ String.singleton c ++ s₂ ∧ c ∈ specialChars ∧
        "&amp;amp;lt; ".toList = (escape s₁).toList ∧
        "&#39;a&#39;&lt;b".toList = entity c ++ (escape s₂).toList) ∧
      String.ofList (unescape "&amp;amp;lt; &#39;a&#39;&lt;b".toList) = "&amp;lt; 'a'<b" := by
  have hescape : escape "&amp;lt; 'a'<b" = "&amp;amp;lt; &#39;a&#39;&lt;b" := by decide +kernel
  obtain ⟨-, -, -, -, -, hampersand, hback, -⟩ := escape_single_pass "&amp;lt; 'a'<b"
  refine ⟨hescape, hampersand "&amp;amp;lt; ".toList "#39;a&#39;&lt;b".toList ?_, ?_⟩
  · rw [hescape]
    decide +kernel
  · rwa [hescape] at hback

end Html

end ServerUi
