import Mathlib.Data.List.Forall2
import ServerUi.Proofs.Binding.Scan

/-!
# ServerUi.Proofs.Binding.Lossless — nothing lost, no token left

Written out again, each binding between braces and blanks, the segments of a text are the text.  A
token remains a token when more text follows it, though its path may change
(`IsToken.exists_append`).  So a literal has no token in it even when it is taken out of the text,
and reading it again gives the literal back (`ofString_lossless`).
-/

namespace ServerUi

/-- A text of which the segment is read: a literal is its own text, a binding has braces and blanks
around its path. -/
def Segment.IsWritten : Segment → List Char → Prop
  | .literal text, s => s = text.toList
  | .binding path, s => ∃ w w' : List Char,
      (∀ c ∈ w, Text.isBlank c = true) ∧ (∀ c ∈ w', Text.isBlank c = true) ∧
        s = '\x7b' :: '\x7b' :: (w ++ path.toList ++ w' ++ ['\x7d', '\x7d'])

namespace Template

/-! ### Tokens in front of more text -/

/-- What can be a path can be one whatever follows the token. -/
theorem CanBePath.append {s path after : List Char} (h : CanBePath s path after)
    (more : List Char) : CanBePath (s ++ more) path (after ++ more) := by
  obtain ⟨hne, hline, rest, rfl, blanks, hblanks, rfl⟩ := h
  exact ⟨hne, hline, _, List.append_assoc .., blanks, hblanks, by simp⟩

/-- Two opening braces before something that can be a path begin a token, if not always one with
that path. -/
theorem exists_isToken_of_canBePath {blanks s path after : List Char}
    (hblanks : ∀ c ∈ blanks, Text.isBlank c = true) (hstart : ∀ c ∈ s.head?, Text.isBlank c = false)
    (h : CanBePath s path after) :
    ∃ path' after', IsToken ('\x7b' :: '\x7b' :: (blanks ++ s)) path' after' := by
  cases hfound : path? s with
  | none => exact absurd h (path?_eq_none_iff.mp hfound path after)
  | some found => exact ⟨_, _, .path hblanks hstart (path?_eq_some_iff.mp hfound)⟩

/-- Some token stands where one stood before more text was written behind it. -/
theorem IsToken.exists_append {s path after : List Char} (h : IsToken s path after)
    (more : List Char) : ∃ path' after', IsToken (s ++ more) path' after' := by
  cases h with
  | @path blanks s _ _ hblanks hstart hpath =>
    have hhead : ∀ c ∈ (s ++ more).head?, Text.isBlank c = false := by
      obtain ⟨hne, -, rest, rfl, -⟩ := hpath.1
      obtain ⟨c, path, rfl⟩ := List.exists_cons_of_ne_nil hne
      exact hstart
    obtain ⟨path', after', htoken⟩ :=
      exists_isToken_of_canBePath hblanks hhead (hpath.1.append more)
    exact ⟨path', after', by rwa [← List.append_assoc] at htoken⟩
  | @blank blanks breaks after c hblanks hc hline hbreaks hnone =>
    have hsplit : '\x7b' :: '\x7b' :: (blanks ++ c :: breaks ++ '\x7d' :: '\x7d' :: after) ++ more =
        '\x7b' :: '\x7b' :: (blanks ++ c :: breaks ++ '\x7d' :: '\x7d' :: (after ++ more)) := by
      simp
    rw [hsplit]
    -- the text behind may close a path that starts at the closing braces
    by_cases hpath : ∃ path after', CanBePath ('\x7d' :: '\x7d' :: (after ++ more)) path after'
    · obtain ⟨path, after', hpath⟩ := hpath
      refine exists_isToken_of_canBePath ?_ (by simp [not_isBlank_brace]) hpath
      exact List.forall_mem_append.mpr ⟨hblanks, List.forall_mem_cons.mpr
        ⟨hc, fun d hd => hbreaks d hd ▸ isBlank_break⟩⟩
    · exact ⟨_, _, .blank hblanks hc hline hbreaks fun path after' h => hpath ⟨path, after', h⟩⟩

/-- A text with no token in front of another has none on its own. -/
theorem NoToken.of_append {before rest : List Char} (h : NoToken before rest) :
    NoToken before [] := by
  intro start hstart hne path after htoken
  rw [List.append_nil] at htoken
  obtain ⟨path', after', htoken'⟩ := htoken.exists_append rest
  exact h start hstart hne path' after' htoken'

/-! ### Texts without tokens -/

theorem plain_eq_nil_or (text : String) : plain text = [] ∨ plain text = [.literal text] := by
  unfold plain
  split_ifs
  · exact .inl rfl
  · exact .inr rfl

theorem literal_mem_plain {text s : String} (h : .literal s ∈ plain text) :
    s = text ∧ plain text = [.literal text] := by
  obtain hnil | hliteral := plain_eq_nil_or text
  · rw [hnil] at h
    cases h
  · rw [hliteral] at h
    cases List.mem_singleton.mp h
    exact ⟨rfl, hliteral⟩

theorem paths_plain (text : String) : (plain text).paths = [] := by
  obtain h | h := plain_eq_nil_or text <;> rw [h] <;> rfl

theorem fill_plain (text : String) (document : Value) : (plain text).fill document = text := by
  unfold plain
  split_ifs with h
  · exact h.symm
  · simp [fill, Segment.fill, String.join]

theorem ofString_of_noToken {text : String} (h : NoToken text.toList []) :
    ofString text = plain text := by
  rw [ofString_eq_scan, scan_eq_of_cut (.literal h), String.ofList_toList]

theorem cut_ofString (source : String) : Cut source.toList (ofString source) := by
  rw [ofString_eq_scan, ← scan_eq_iff]

theorem Cut.noToken_of_not_isBound {text : List Char} {t : Template} (h : Cut text t)
    (hbound : t.isBound = false) : NoToken text [] := by
  cases h with
  | literal hnone => exact hnone
  | token => simp [isBound, paths, Segment.path?] at hbound

/-- A text has bindings if there is a token in it. -/
theorem isBound_eq_false_iff {source : String} :
    (ofString source).isBound = false ↔ NoToken source.toList [] := by
  refine ⟨(cut_ofString source).noToken_of_not_isBound, fun h => ?_⟩
  rw [ofString_of_noToken h, isBound, paths_plain]
  rfl

/-- A text whose template has no binding is its own rendering. -/
theorem fill_ofString_of_not_isBound {source : String} (h : (ofString source).isBound = false)
    (document : Value) : (ofString source).fill document = source := by
  rw [ofString_of_noToken (isBound_eq_false_iff.mp h), fill_plain]

/-! ### Segments -/

theorem forall₂_isWritten_plain (text : List Char) :
    ∃ pieces, List.Forall₂ Segment.IsWritten (plain (String.ofList text)) pieces ∧
      pieces.flatten = text := by
  cases text with
  | nil => exact ⟨[], .nil, rfl⟩
  | cons c text =>
    rw [plain_cons]
    exact ⟨[c :: text], .cons String.toList_ofList.symm .nil, List.append_nil _⟩

/-- The segments are written one after the other. -/
theorem Cut.exists_pieces {text : List Char} {t : Template} (h : Cut text t) :
    ∃ pieces, List.Forall₂ Segment.IsWritten t pieces ∧ pieces.flatten = text := by
  induction h with
  | literal => exact forall₂_isWritten_plain _
  | @token before here path after t _ htoken _ ih =>
    obtain ⟨start, hstart, hbefore⟩ := forall₂_isWritten_plain before
    obtain ⟨w, w', hw, hw', rfl⟩ := htoken.eq_append
    obtain ⟨pieces, hpieces, rfl⟩ := ih
    have hbinding : (Segment.binding (String.ofList path)).IsWritten
        ('\x7b' :: '\x7b' :: (w ++ path ++ w' ++ ['\x7d', '\x7d'])) :=
      ⟨w, w', hw, hw', by rw [String.toList_ofList]⟩
    refine ⟨start ++ _ :: pieces, List.rel_append hstart (.cons hbinding hpieces), ?_⟩
    rw [List.flatten_append, List.flatten_cons, hbefore]

/-- A literal is not empty and has no token in it. -/
theorem Cut.literal_mem {text : List Char} {t : Template} (h : Cut text t) {s : String}
    (hs : .literal s ∈ t) : plain s = [.literal s] ∧ NoToken s.toList [] := by
  induction h with
  | literal hnone =>
    obtain ⟨rfl, hplain⟩ := literal_mem_plain hs
    exact ⟨hplain, by rwa [String.toList_ofList]⟩
  | token hfirst _ _ ih =>
    obtain hs | hs := List.mem_append.mp hs
    · obtain ⟨rfl, hplain⟩ := literal_mem_plain hs
      exact ⟨hplain, by rw [String.toList_ofList]; exact hfirst.of_append⟩
    · obtain hs | hs := List.mem_cons.mp hs
      · cases hs
      · exact ih hs

/-- A binding stands between two literals. -/
theorem Cut.not_literals_infix {text : List Char} {t : Template} (h : Cut text t) (a b : String) :
    ¬[.literal a, .literal b] <:+: t := by
  induction h with
  | @literal text =>
    intro hinfix
    have hlength := hinfix.length_le
    obtain h | h := plain_eq_nil_or (String.ofList text) <;> simp [h] at hlength
  | @token before here path after t _ _ _ ih =>
    -- a token was cut between the literals, so its binding stands between them
    have hbinding : ¬[.literal a, .literal b] <:+: .binding (String.ofList path) :: t := by
      rw [List.infix_cons_iff, List.cons_prefix_cons]
      rintro (⟨h, -⟩ | h)
      · cases h
      · exact ih h
    obtain h | h := plain_eq_nil_or (String.ofList before) <;> rw [h]
    · exact hbinding
    · rw [List.singleton_append, List.infix_cons_iff, List.cons_prefix_cons, List.cons_prefix_cons]
      rintro (⟨-, h, -⟩ | h)
      · cases h
      · exact hbinding h

/-- The segments of a text are what it is written of.  No literal is empty, next to another literal
or read as anything but itself, and a text without bindings is filled with nothing. -/
theorem ofString_lossless (source : String) :
    (∃ pieces, List.Forall₂ Segment.IsWritten (ofString source) pieces ∧
        pieces.flatten = source.toList) ∧
      (∀ text, .literal text ∈ ofString source → text ≠ "" ∧ ofString text = [.literal text]) ∧
      (∀ a b, ¬[.literal a, .literal b] <:+: ofString source) ∧
      ((ofString source).isBound = false →
        ∀ document, (ofString source).fill document = source) := by
  have hcut := cut_ofString source
  refine ⟨hcut.exists_pieces, fun text htext => ?_, hcut.not_literals_infix,
    fill_ofString_of_not_isBound⟩
  obtain ⟨hplain, hnone⟩ := hcut.literal_mem htext
  refine ⟨?_, by rw [ofString_of_noToken hnone, hplain]⟩
  rintro rfl
  cases hplain

/-- Braces that open no token in front of a token, and behind it. -/
def remnants : String := "\x7b\x7b a\n\x7b\x7b b \x7d\x7d\x7d \x7b\x7b\n\x7d\x7d"

theorem ofString_lossless_remnants :
    ofString remnants =
        [.literal "\x7b\x7b a\n", .binding "b", .literal "\x7d \x7b\x7b\n\x7d\x7d"] ∧
      ofString "\x7b\x7b a\n" = [.literal "\x7b\x7b a\n"] ∧
      ofString "\x7d \x7b\x7b\n\x7d\x7d" = [.literal "\x7d \x7b\x7b\n\x7d\x7d"] ∧
      (ofString "\x7b\x7b a\n").fill (.obj [("a", .null)]) = "\x7b\x7b a\n" := by
  have hsegments : ofString remnants =
      [.literal "\x7b\x7b a\n", .binding "b", .literal "\x7d \x7b\x7b\n\x7d\x7d"] := by
    decide +kernel
  obtain ⟨-, hliteral, -, -⟩ := ofString_lossless remnants
  have hbound : (ofString "\x7b\x7b a\n").isBound = false := by decide +kernel
  refine ⟨hsegments, (hliteral _ ?_).2, (hliteral _ ?_).2, ?_⟩
  · rw [hsegments]
    exact List.mem_cons_self
  · rw [hsegments]
    exact List.mem_cons_of_mem _ (List.mem_cons_of_mem _ List.mem_cons_self)
  · exact (ofString_lossless "\x7b\x7b a\n").2.2.2 hbound _

end Template

end ServerUi
