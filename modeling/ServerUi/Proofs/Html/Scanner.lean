import ServerUi.Proofs.Html.Escape

/-!
# ServerUi.Proofs.Html.Scanner — reading tags, attributes and text

The scanner reads HTML text one character at a time and knows nothing of how it was written: `<`
starts a tag, a quote ends a value, entities stand for characters, and text lies between tags.
`Markup.write` writes a token, and `scan_write` reads written tokens back; texts that follow each
other come back as one.
-/

namespace ServerUi

namespace Html

/-- The name of an attribute and its value, unless it stands alone. -/
abbrev Attribute := String × Option String

/-- A text or a tag with its attributes. -/
inductive Markup where
  | opening (tag : String) (attrs : List Attribute)
  | closing (tag : String)
  | selfClosed (tag : String) (attrs : List Attribute)
  | text (text : String)
  deriving DecidableEq, Repr

/-- Empty text is no token. -/
def textRun (s : String) : List Markup := if s = "" then [] else [.text s]

/-! ### The scanner -/

namespace Scanner

/-- Where the scanner stands, with what it has read of a token. -/
inductive Mode where
  | text (read : List Char)
  /-- After an opening bracket. -/
  | bracket
  | closing (tag : List Char)
  | tag (tag : List Char)
  /-- After a blank in a start tag. -/
  | gap (tag : String) (attrs : List Attribute)
  | name (tag : String) (attrs : List Attribute) (name : List Char)
  /-- Between the name of an attribute and its quoted value. -/
  | equals (tag : String) (attrs : List Attribute) (name : String)
  | value (tag : String) (attrs : List Attribute) (name : String) (read : List Char)
  /-- After a closing quote. -/
  | quoted (tag : String) (attrs : List Attribute)
  | slash (tag : String) (attrs : List Attribute)
  | broken

end Scanner

/-- What was found so far, and what is being read. -/
structure Scanner where
  found : List Markup
  mode : Scanner.Mode

namespace Scanner

/-- Before the first character. -/
def start : Scanner := ⟨[], .text []⟩

/-- What was read, with its entities read as characters. -/
def decoded (read : List Char) : String := String.ofList (unescape read)

/-- In a start tag, after its name or an attribute. -/
def inStartTag (found : List Markup) (tag : String) (attrs : List Attribute) (c : Char) : Scanner :=
  if c = ' ' then ⟨found, .gap tag attrs⟩
  else if c = '/' then ⟨found, .slash tag attrs⟩
  else if c = '>' then ⟨found ++ [.opening tag attrs], .text []⟩
  else ⟨found, .broken⟩

/-- Read one character. -/
def step : Scanner → Char → Scanner
  | ⟨found, .text read⟩, c =>
    if c = '<' then ⟨found ++ textRun (decoded read), .bracket⟩
    else ⟨found, .text (read ++ [c])⟩
  | ⟨found, .bracket⟩, c =>
    if isNameChar c then ⟨found, .tag [c]⟩
    else if c = '/' then ⟨found, .closing []⟩
    else ⟨found, .broken⟩
  | ⟨found, .closing tag⟩, c =>
    if isNameChar c then ⟨found, .closing (tag ++ [c])⟩
    else if c = '>' ∧ tag ≠ [] then ⟨found ++ [.closing (String.ofList tag)], .text []⟩
    else ⟨found, .broken⟩
  | ⟨found, .tag tag⟩, c =>
    if isNameChar c then ⟨found, .tag (tag ++ [c])⟩
    else inStartTag found (String.ofList tag) [] c
  | ⟨found, .gap tag attrs⟩, c =>
    if isNameChar c then ⟨found, .name tag attrs [c]⟩ else inStartTag found tag attrs c
  | ⟨found, .name tag attrs name⟩, c =>
    if isNameChar c then ⟨found, .name tag attrs (name ++ [c])⟩
    else if c = '=' then ⟨found, .equals tag attrs (String.ofList name)⟩
    else inStartTag found tag (attrs ++ [(String.ofList name, none)]) c
  | ⟨found, .equals tag attrs name⟩, c =>
    if c = '"' then ⟨found, .value tag attrs name []⟩ else ⟨found, .broken⟩
  | ⟨found, .value tag attrs name read⟩, c =>
    if c = '"' then ⟨found, .quoted tag (attrs ++ [(name, some (decoded read))])⟩
    else ⟨found, .value tag attrs name (read ++ [c])⟩
  | ⟨found, .quoted tag attrs⟩, c => inStartTag found tag attrs c
  | ⟨found, .slash tag attrs⟩, c =>
    if c = '>' then ⟨found ++ [.selfClosed tag attrs], .text []⟩ else ⟨found, .broken⟩
  | ⟨found, .broken⟩, _ => ⟨found, .broken⟩

/-- The scanner after some characters. -/
def run (s : Scanner) (cs : List Char) : Scanner := cs.foldl step s

/-- The tokens, if the text does not end within a tag. -/
def tokens? : Scanner → Option (List Markup)
  | ⟨found, .text read⟩ => some (found ++ textRun (decoded read))
  | _ => none

end Scanner

/-- The tokens of HTML text. -/
def scan (s : String) : Option (List Markup) := (Scanner.start.run s.toList).tokens?

/-! ### Writing tokens -/

/-- An attribute as it is written in a tag. -/
def writeAttribute : Attribute → List Char
  | (name, none) => ' ' :: name.toList
  | (name, some value) => ' ' :: name.toList ++ '=' :: '"' :: entities value.toList ++ ['"']

namespace Markup

/-- Markup as it is written. -/
def write : Markup → List Char
  | opening tag attrs => '<' :: tag.toList ++ attrs.flatMap writeAttribute ++ ['>']
  | closing tag => '<' :: '/' :: tag.toList ++ ['>']
  | selfClosed tag attrs => '<' :: tag.toList ++ attrs.flatMap writeAttribute ++ [' ', '/', '>']
  | text s => entities s.toList

/-- Everything but text. -/
def isTag : Markup → Bool
  | text _ => false
  | _ => true

/-- Tags and attributes have plain names. -/
def IsPlain : Markup → Prop
  | opening tag attrs | selfClosed tag attrs =>
    isPlainName tag = true ∧ ∀ a ∈ attrs, isPlainName a.1 = true
  | closing tag => isPlainName tag = true
  | text _ => True

end Markup

/-- The tokens after some text, where texts that follow each other are one. -/
def joinedAfter (pending : String) : List Markup → List Markup
  | [] => textRun pending
  | .text s :: rest => joinedAfter (pending ++ s) rest
  | t :: rest => textRun pending ++ t :: joinedAfter "" rest

/-- The markup with neighbouring texts as one. -/
def joined (ts : List Markup) : List Markup := joinedAfter "" ts

theorem Markup.exists_text_of_not_isTag {t : Markup} (h : t.isTag = false) : ∃ s, t = text s := by
  cases t with
  | text s => exact ⟨s, rfl⟩
  | _ => cases h

theorem joinedAfter_tag {t : Markup} (h : t.isTag = true) (pending : String) (rest : List Markup) :
    joinedAfter pending (t :: rest) = textRun pending ++ t :: joinedAfter "" rest := by
  cases t with
  | text s => cases h
  | _ => rfl

theorem isPlainName_iff {name : String} :
    isPlainName name = true ↔ name.toList ≠ [] ∧ ∀ c ∈ name.toList, isNameChar c = true := by
  simp [isPlainName]

namespace Scanner

variable {found : List Markup} {tag : String} {attrs : List Attribute}

theorem run_append (s : Scanner) (cs cs' : List Char) : s.run (cs ++ cs') = (s.run cs).run cs' :=
  List.foldl_append

theorem run_cons (s : Scanner) (c : Char) (cs : List Char) : s.run (c :: cs) = (s.step c).run cs :=
  rfl

/-- A mode that takes up each of the characters has taken up all of them. -/
theorem run_collect {m : List Char → Mode} {P : Char → Prop}
    (h : ∀ read c, P c → step ⟨found, m read⟩ c = ⟨found, m (read ++ [c])⟩) :
    ∀ (cs read : List Char), (∀ c ∈ cs, P c) → run ⟨found, m read⟩ cs = ⟨found, m (read ++ cs)⟩
  | [], read, _ => by rw [List.append_nil]; rfl
  | c :: cs, read, hcs => by
    obtain ⟨hc, hcs⟩ := List.forall_mem_cons.mp hcs
    rw [run_cons, h read c hc, run_collect h cs _ hcs, List.append_assoc, List.singleton_append]

/-- Escaped text holds no special character that could end it. -/
theorem run_entities {m : List Char → Mode} {stop : Char} (hstop : stop ∈ specialChars)
    (hamp : stop ≠ '&') (h : ∀ read c, c ≠ stop → step ⟨found, m read⟩ c = ⟨found, m (read ++ [c])⟩)
    (s : String) (read : List Char) :
    run ⟨found, m read⟩ (entities s.toList) = ⟨found, m (read ++ entities s.toList)⟩ :=
  run_collect h _ read fun _ hc => ne_of_mem_entities hc hstop hamp

/-- Escaped text is taken up as it is, and no tag begins in it. -/
theorem run_text (s : String) (read : List Char) :
    run ⟨found, .text read⟩ (entities s.toList) = ⟨found, .text (read ++ entities s.toList)⟩ := by
  have hlt : '<' ∈ specialChars := by decide
  refine run_entities hlt (by decide) (fun read c hc => ?_) s read
  rw [step, if_neg hc]

/-- An escaped value ends at the quote behind it and not before. -/
theorem run_value (name value : String) :
    run ⟨found, .value tag attrs name []⟩ (entities value.toList ++ ['"']) =
      ⟨found, .quoted tag (attrs ++ [(name, some value)])⟩ := by
  have hvalue : run ⟨found, .value tag attrs name []⟩ (entities value.toList) =
      ⟨found, .value tag attrs name ([] ++ entities value.toList)⟩ := by
    have hquote : '"' ∈ specialChars := by decide
    refine run_entities hquote (by decide) (fun read c hc => ?_) value []
    rw [step, if_neg hc]
  rw [run_append, hvalue, List.nil_append, run_cons, step, if_pos rfl, decoded,
    unescape_entities, String.ofList_toList]
  rfl

/-- The scanner is at the end of a start tag with some attributes. -/
inductive InStartTag (found : List Markup) (tag : String) : List Attribute → Scanner → Prop
  | tag : InStartTag found tag [] ⟨found, .tag tag.toList⟩
  | name {attrs : List Attribute} {name : String} :
      InStartTag found tag (attrs ++ [(name, none)]) ⟨found, .name tag attrs name.toList⟩
  | quoted {attrs : List Attribute} : InStartTag found tag attrs ⟨found, .quoted tag attrs⟩

/-- In a start tag, whatever is part of no name ends what was being read. -/
theorem InStartTag.step {s : Scanner} (h : InStartTag found tag attrs s) {c : Char}
    (hc : isNameChar c = false) (heq : c ≠ '=') : s.step c = inStartTag found tag attrs c := by
  cases h with
  | tag => rw [Scanner.step, if_neg (by simp [hc]), String.ofList_toList]
  | name => rw [Scanner.step, if_neg (by simp [hc]), if_neg heq, String.ofList_toList]
  | quoted => rw [Scanner.step]

/-- A mode that is entered by the first character of a name takes up the whole name. -/
theorem run_name_of_step {m : List Char → Mode} {s : Scanner} {name : String}
    (hname : isPlainName name = true)
    (hfirst : ∀ c, isNameChar c = true → s.step c = ⟨found, m [c]⟩)
    (hnext : ∀ read c, isNameChar c = true → step ⟨found, m read⟩ c = ⟨found, m (read ++ [c])⟩) :
    s.run name.toList = ⟨found, m name.toList⟩ := by
  obtain ⟨hne, hall⟩ := isPlainName_iff.mp hname
  obtain ⟨c, cs, hcons⟩ := List.exists_cons_of_ne_nil hne
  rw [hcons] at hall ⊢
  obtain ⟨hc, hcs⟩ := List.forall_mem_cons.mp hall
  rw [run_cons, hfirst c hc]
  exact run_collect hnext cs [c] hcs

theorem run_tag (h : isPlainName tag = true) :
    run ⟨found, .bracket⟩ tag.toList = ⟨found, .tag tag.toList⟩ := by
  refine run_name_of_step h (fun c hc => ?_) (fun read c hc => ?_)
  · rw [step, if_pos hc]
  · rw [step, if_pos hc]

theorem run_closing (h : isPlainName tag = true) :
    run ⟨found, .closing []⟩ tag.toList = ⟨found, .closing tag.toList⟩ := by
  refine run_name_of_step h (fun c hc => ?_) (fun read c hc => ?_)
  · rw [step, if_pos hc, List.nil_append]
  · rw [step, if_pos hc]

theorem run_name {name : String} (h : isPlainName name = true) :
    run ⟨found, .gap tag attrs⟩ name.toList = ⟨found, .name tag attrs name.toList⟩ := by
  refine run_name_of_step h (fun c hc => ?_) (fun read c hc => ?_)
  · rw [step, if_pos hc]
  · rw [step, if_pos hc]

/-- A written attribute is found, and the scanner is in the start tag still. -/
theorem InStartTag.run_attribute {s : Scanner} (h : InStartTag found tag attrs s) {a : Attribute}
    (ha : isPlainName a.1 = true) :
    InStartTag found tag (attrs ++ [a]) (s.run (writeAttribute a)) := by
  obtain ⟨name, value⟩ := a
  have hblank : s.step ' ' = ⟨found, .gap tag attrs⟩ := h.step (by decide) (by decide)
  cases value with
  | none =>
    rw [writeAttribute, run_cons, hblank, run_name ha]
    exact .name
  | some value =>
    have hequals : Scanner.step ⟨found, .name tag attrs name.toList⟩ '=' =
        ⟨found, .equals tag attrs name⟩ := by
      rw [Scanner.step, if_neg (by decide), if_pos rfl, String.ofList_toList]
    have hquote : Scanner.step ⟨found, .equals tag attrs name⟩ '"' =
        ⟨found, .value tag attrs name []⟩ := by
      rw [Scanner.step, if_pos rfl]
    -- a blank, the name, the equals sign, and the value between its quotes
    rw [writeAttribute, List.append_assoc, List.cons_append, run_cons, hblank, run_append,
      run_name ha, List.cons_append, List.cons_append, run_cons, hequals, run_cons, hquote,
      run_value]
    exact .quoted

theorem InStartTag.run_attributes :
    ∀ {as attrs : List Attribute} {s : Scanner}, InStartTag found tag attrs s →
      (∀ a ∈ as, isPlainName a.1 = true) →
      InStartTag found tag (attrs ++ as) (s.run (as.flatMap writeAttribute))
  | [], attrs, s, h, _ => by
    rw [List.append_nil]
    exact h
  | a :: as, attrs, s, h, has => by
    obtain ⟨ha, has⟩ := List.forall_mem_cons.mp has
    have hrest := (h.run_attribute ha).run_attributes has
    rw [List.append_assoc, List.singleton_append] at hrest
    rw [List.flatMap_cons, run_append]
    exact hrest

theorem step_bracket (pending : String) :
    step ⟨found, .text (entities pending.toList)⟩ '<' = ⟨found ++ textRun pending, .bracket⟩ := by
  rw [step, if_pos rfl, decoded, unescape_entities, String.ofList_toList]

/-- A start tag up to its end. -/
theorem run_startTag (pending : String) (htag : isPlainName tag = true)
    (hattrs : ∀ a ∈ attrs, isPlainName a.1 = true) :
    InStartTag (found ++ textRun pending) tag attrs
      (run ⟨found, .text (entities pending.toList)⟩
        ('<' :: tag.toList ++ attrs.flatMap writeAttribute)) := by
  rw [List.cons_append, run_cons, step_bracket, run_append, run_tag htag]
  exact InStartTag.tag.run_attributes hattrs

theorem run_write_text (pending s : String) :
    run ⟨found, .text (entities pending.toList)⟩ (Markup.text s).write =
      ⟨found, .text (entities (pending ++ s).toList)⟩ := by
  rw [Markup.write, run_text, String.toList_append, entities_append]

theorem run_write_opening (pending : String) (h : (Markup.opening tag attrs).IsPlain) :
    run ⟨found, .text (entities pending.toList)⟩ (Markup.opening tag attrs).write =
      ⟨found ++ textRun pending ++ [.opening tag attrs], .text []⟩ := by
  have hin : InStartTag (found ++ textRun pending) tag attrs _ := run_startTag pending h.1 h.2
  rw [Markup.write, run_append, run_cons, hin.step (by decide) (by decide), inStartTag,
    if_neg (by decide), if_neg (by decide), if_pos rfl]
  rfl

theorem run_write_selfClosed (pending : String) (h : (Markup.selfClosed tag attrs).IsPlain) :
    run ⟨found, .text (entities pending.toList)⟩ (Markup.selfClosed tag attrs).write =
      ⟨found ++ textRun pending ++ [.selfClosed tag attrs], .text []⟩ := by
  have hin : InStartTag (found ++ textRun pending) tag attrs _ := run_startTag pending h.1 h.2
  have hblank : step _ ' ' = ⟨found ++ textRun pending, .gap tag attrs⟩ :=
    hin.step (by decide) (by decide)
  rw [Markup.write, run_append, run_cons, hblank, run_cons, step, if_neg (by decide), inStartTag,
    if_neg (by decide), if_pos rfl, run_cons, step, if_pos rfl]
  rfl

theorem run_write_closing (pending : String) (h : (Markup.closing tag).IsPlain) :
    run ⟨found, .text (entities pending.toList)⟩ (Markup.closing tag).write =
      ⟨found ++ textRun pending ++ [.closing tag], .text []⟩ := by
  have hne : tag.toList ≠ [] := (isPlainName_iff.mp h).1
  rw [Markup.write, List.cons_append, List.cons_append, run_cons, step_bracket, run_cons, step,
    if_neg (by decide), if_pos rfl, run_append, run_closing h, run_cons, step, if_neg (by decide),
    if_pos ⟨rfl, hne⟩, String.ofList_toList]
  rfl

/-- A written tag is found, behind the text that was pending. -/
theorem run_write_tag {t : Markup} (ht : t.isTag = true) (h : t.IsPlain) (pending : String) :
    run ⟨found, .text (entities pending.toList)⟩ t.write =
      ⟨found ++ textRun pending ++ [t], .text []⟩ := by
  cases t with
  | opening tag attrs => exact run_write_opening pending h
  | closing tag => exact run_write_closing pending h
  | selfClosed tag attrs => exact run_write_selfClosed pending h
  | text s => cases ht

/-- Behind some text, the scanner finds the tokens that are written. -/
theorem tokens?_run_write :
    ∀ (ts found : List Markup) (pending : String), (∀ t ∈ ts, t.IsPlain) →
      (run ⟨found, .text (entities pending.toList)⟩ (ts.flatMap Markup.write)).tokens? =
        some (found ++ joinedAfter pending ts)
  | [], found, pending, _ => by
    show some (found ++ textRun (decoded _)) = _
    rw [decoded, unescape_entities, String.ofList_toList, joinedAfter]
  | t :: ts, found, pending, h => by
    obtain ⟨ht, hts⟩ := List.forall_mem_cons.mp h
    rw [List.flatMap_cons, run_append]
    cases htag : t.isTag with
    | true =>
      -- the tag ends the pending text, and the scanner starts anew behind it
      have hrest : (run ⟨found ++ textRun pending ++ [t], .text []⟩
          (ts.flatMap Markup.write)).tokens? =
            some (found ++ textRun pending ++ [t] ++ joinedAfter "" ts) :=
        tokens?_run_write ts _ "" hts
      rw [run_write_tag htag ht, joinedAfter_tag htag, hrest]
      simp only [List.append_assoc, List.singleton_append]
    | false =>
      obtain ⟨s, rfl⟩ := Markup.exists_text_of_not_isTag htag
      rw [run_write_text, joinedAfter]
      exact tokens?_run_write ts found (pending ++ s) hts

end Scanner

/-- Written tokens are read back, texts that follow each other as one. -/
theorem scan_write {ts : List Markup} (h : ∀ t ∈ ts, t.IsPlain) :
    scan (String.ofList (ts.flatMap Markup.write)) = some (joined ts) := by
  rw [scan, String.toList_ofList]
  exact Scanner.tokens?_run_write ts [] "" h

end Html

end ServerUi
