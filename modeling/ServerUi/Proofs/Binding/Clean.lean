import ServerUi.Proofs.Binding.Scan

/-!
# ServerUi.Proofs.Binding.Clean — clean and unclean paths

A path should be what stands between the braces without the blanks around it.  The shortest path
after all blanks is that (`IsShortestPath.isClean`), as a blank at its end or braces inside it would
have closed a shorter one.  It is not where the braces close at once: then there is nothing to be a
path, and either a blank is given back for it or the closing braces are taken in with all text up to
the next ones (`IsToken.clean_iff`).
-/

namespace ServerUi

namespace Template

/-! ### Tokens -/

/-- A path that is not empty, does not begin or end with a blank and has no closing braces in
it. -/
def IsClean (path : List Char) : Prop :=
  path ≠ [] ∧ (∀ c ∈ path.head?, Text.isBlank c = false) ∧
    (∀ c ∈ path.getLast?, Text.isBlank c = false) ∧ ¬['\x7d', '\x7d'] <:+: path

instance (path : List Char) : Decidable (IsClean path) :=
  -- given here, lest all characters there are be tried for the one at an end
  have (c? : Option Char) : Decidable (∀ c ∈ c?, Text.isBlank c = false) :=
    Option.decidableForallMem c?
  have : Decidable (['\x7d', '\x7d'] <:+: path) := List.instDecidableIsInfixOfDecidableEq _ _
  inferInstanceAs (Decidable (_ ∧ _ ∧ _ ∧ _))

/-- Two closing braces, and not three, follow the opening ones with nothing but blanks between
them. -/
def ClosesAtOnce (s : List Char) : Prop :=
  ∃ blanks rest : List Char, (∀ c ∈ blanks, Text.isBlank c = true) ∧ rest.head? ≠ some '\x7d' ∧
    s = '\x7b' :: '\x7b' :: (blanks ++ '\x7d' :: '\x7d' :: rest)

theorem dropWhile_blanks {blanks s : List Char} (hblanks : ∀ c ∈ blanks, Text.isBlank c = true)
    (hstart : ∀ c ∈ s.head?, Text.isBlank c = false) :
    (blanks ++ s).dropWhile Text.isBlank = s := by
  rw [List.dropWhile_append_of_pos hblanks]
  cases s with
  | nil => rfl
  | cons c rest => rw [List.dropWhile_cons, if_neg (by simp [hstart c rfl])]

/-- After blanks a token closes at once exactly if two closing braces and no third one follow. -/
theorem closesAtOnce_iff {blanks s : List Char} (hblanks : ∀ c ∈ blanks, Text.isBlank c = true)
    (hstart : ∀ c ∈ s.head?, Text.isBlank c = false) :
    ClosesAtOnce ('\x7b' :: '\x7b' :: (blanks ++ s)) ↔
      ∃ rest, s = '\x7d' :: '\x7d' :: rest ∧ rest.head? ≠ some '\x7d' := by
  constructor
  · rintro ⟨blanks', rest, hblanks', hrest, heq⟩
    have htail : blanks ++ s = blanks' ++ '\x7d' :: '\x7d' :: rest :=
      (List.cons.inj (List.cons.inj heq).2).2
    have hbrace : ∀ c ∈ ('\x7d' :: '\x7d' :: rest).head?, Text.isBlank c = false := by
      simp [not_isBlank_brace]
    refine ⟨rest, ?_, hrest⟩
    rw [← dropWhile_blanks hblanks hstart, htail, dropWhile_blanks hblanks' hbrace]
  · rintro ⟨rest, rfl, hrest⟩
    exact ⟨blanks, rest, hblanks, hrest, rfl⟩

/-- Of three closing braces the first can be the path. -/
theorem canBePath_brace (rest : List Char) :
    CanBePath ('\x7d' :: '\x7d' :: '\x7d' :: rest) ['\x7d'] rest :=
  ⟨List.cons_ne_nil _ _, by decide, _, rfl, [], nofun, rfl⟩

/-- A path that starts where braces close takes both of them in. -/
theorem IsShortestPath.braces_prefix {rest path after : List Char}
    (h : IsShortestPath ('\x7d' :: '\x7d' :: rest) path after) (hrest : rest.head? ≠ some '\x7d') :
    ['\x7d', '\x7d'] <+: path := by
  obtain ⟨hne, -, tail, hs, hcloses⟩ := h.1
  obtain ⟨c, path, rfl⟩ := List.exists_cons_of_ne_nil hne
  obtain ⟨rfl, hsecond⟩ := List.cons.inj hs
  cases path with
  | nil =>
    have htail : tail = '\x7d' :: rest := hsecond.symm
    have hclosed := hcloses.eq_of_not_blank (by simp [htail, not_isBlank_brace])
    rw [htail] at hclosed
    exact absurd (congrArg List.head? (List.cons.inj hclosed).2) hrest
  | cons d path =>
    obtain ⟨rfl, -⟩ := List.cons.inj hsecond
    exact ⟨path, rfl⟩

/-- A shortest path that starts with no blank ends with none either, unless the braces close at
once. -/
theorem IsShortestPath.isClean {s path after : List Char} (h : IsShortestPath s path after)
    (hstart : ∀ c ∈ s.head?, Text.isBlank c = false)
    (hbraces : ∀ rest, s = '\x7d' :: '\x7d' :: rest → rest.head? = some '\x7d') :
    IsClean path := by
  obtain ⟨⟨hne, hline, tail, rfl, hcloses⟩, hshortest⟩ := h
  have hhead : ∀ c ∈ path.head?, Text.isBlank c = false := by
    intro c hc
    refine hstart c ?_
    rw [List.head?_append, Option.mem_def.mp hc]
    rfl
  refine ⟨hne, hhead, ?_, ?_⟩
  · -- a blank at the end would be left to the closing
    intro c hc
    obtain ⟨front, rfl⟩ := List.getLast?_eq_some_iff.mp hc
    by_contra hblank
    have hfront : front ≠ [] := by
      rintro rfl
      exact hblank (hhead c rfl)
    obtain ⟨blanks, hblanks, rfl⟩ := hcloses
    have hcloses' : Closes (c :: (blanks ++ '\x7d' :: '\x7d' :: after)) after :=
      ⟨c :: blanks, List.forall_mem_cons.mpr ⟨by simpa using hblank, hblanks⟩, rfl⟩
    have hle := hshortest front after
      ⟨hfront, fun hmem => hline (List.mem_append_left _ hmem), _, List.append_assoc .., hcloses'⟩
    rw [List.length_append, List.length_singleton] at hle
    omega
  · -- braces inside would close a shorter path
    rintro ⟨front, back, rfl⟩
    rw [List.append_assoc front] at hbraces hshortest
    cases front with
    | nil =>
      have hthird : (back ++ tail).head? = some '\x7d' := hbraces (back ++ tail) rfl
      obtain ⟨rest, hrest⟩ := List.head?_eq_some_iff.mp hthird
      have hle := hshortest ['\x7d'] rest (by
        simpa [hrest] using canBePath_brace rest)
      simp at hle
    | cons c front =>
      have hlines : '\n' ∉ c :: front := fun hmem =>
        hline (List.mem_append_left _ (List.mem_append_left _ hmem))
      have hle := hshortest (c :: front) (back ++ tail)
        ⟨List.cons_ne_nil _ _, hlines, '\x7d' :: '\x7d' :: (back ++ tail), by simp, [], nofun, rfl⟩
      simp only [List.length_append, List.length_cons] at hle
      omega

theorem not_isClean_of_isBlank {c : Char} (hc : Text.isBlank c = true) : ¬IsClean [c] := by
  rintro ⟨-, hhead, -⟩
  rw [hhead c rfl] at hc
  cases hc

/-- The path of a token is clean unless its braces close at once.  Then it is a blank or begins with
them. -/
theorem IsToken.clean_iff {s path after : List Char} (h : IsToken s path after) :
    (IsClean path ↔ ¬ClosesAtOnce s) ∧
      (ClosesAtOnce s →
        (∃ c, Text.isBlank c = true ∧ path = [c]) ∨ ['\x7d', '\x7d'] <+: path) := by
  cases h with
  | path hblanks hstart hpath =>
    -- the braces close at once only if the path begins with them
    rw [closesAtOnce_iff hblanks hstart]
    constructor
    · constructor
      · rintro ⟨-, -, -, hbraces⟩ ⟨rest, rfl, hrest⟩
        exact hbraces (hpath.braces_prefix hrest).isInfix
      · intro hnot
        refine hpath.isClean hstart fun rest hs => ?_
        by_contra hrest
        exact hnot ⟨rest, hs, hrest⟩
    · rintro ⟨rest, rfl, hrest⟩
      exact .inr (hpath.braces_prefix hrest)
  | @blank blanks breaks _ c hblanks hc hline hbreaks hnone =>
    -- with a third brace behind them the closing braces could begin a path
    have hrest : after.head? ≠ some '\x7d' := by
      intro hthird
      obtain ⟨rest, rfl⟩ := List.head?_eq_some_iff.mp hthird
      exact hnone _ _ (canBePath_brace rest)
    have hall : ∀ d ∈ blanks ++ c :: breaks, Text.isBlank d = true :=
      List.forall_mem_append.mpr ⟨hblanks, List.forall_mem_cons.mpr
        ⟨hc, fun d hd => hbreaks d hd ▸ isBlank_break⟩⟩
    have hcloses : ClosesAtOnce
        ('\x7b' :: '\x7b' :: (blanks ++ c :: breaks ++ '\x7d' :: '\x7d' :: after)) :=
      ⟨blanks ++ c :: breaks, after, hall, hrest, rfl⟩
    exact ⟨iff_of_false (not_isClean_of_isBlank hc) fun hnot => hnot hcloses,
      fun _ => .inl ⟨c, hc, rfl⟩⟩

/-! ### Segments -/

theorem binding_not_mem_plain (text path : String) : .binding path ∉ plain text := by
  unfold plain
  split_ifs <;> simp

/-- A binding is the path of a token, and the segments of what follows the token come after it. -/
theorem Cut.exists_token {text : List Char} {segments t t' : Template} {path : String}
    (h : Cut text segments) (hsegments : segments = t ++ .binding path :: t') :
    ∃ before here after, text = before ++ here ∧ IsToken here path.toList after ∧ Cut after t' := by
  induction h generalizing t with
  | @literal text hnone =>
    have hmem : .binding path ∈ plain (String.ofList text) := by simp [hsegments]
    exact absurd hmem (binding_not_mem_plain _ _)
  | @token before here found after rest hfirst htoken hrest ih =>
    obtain ⟨earlier, rfl, hlater⟩ | ⟨later, hplain, hlater⟩ :=
      List.append_eq_append_iff.mp hsegments
    · -- the plain text ends before the binding
      cases earlier with
      | nil =>
        cases hlater
        exact ⟨before, here, after, rfl, by rwa [String.toList_ofList], hrest⟩
      | cons segment earlier =>
        obtain ⟨before', here', after', rfl, htoken', hrest'⟩ := ih (List.cons.inj hlater).2
        obtain ⟨w, w', -, -, rfl⟩ := htoken.eq_append
        exact ⟨_, here', after', by rw [← List.append_assoc, ← List.append_assoc], htoken', hrest'⟩
    · -- the plain text holds no binding, so it ends where the binding begins
      cases later with
      | nil =>
        cases hlater
        exact ⟨before, here, after, rfl, by rwa [String.toList_ofList], hrest⟩
      | cons segment later =>
        obtain ⟨rfl, -⟩ := List.cons.inj hlater
        have hmem : .binding path ∈ plain (String.ofList before) := by simp [hplain]
        exact absurd hmem (binding_not_mem_plain _ _)

/-- The path of a binding is not empty and has no line break.  It is clean unless the braces of its
token close at once, and then it is a blank or begins with the closing braces. -/
theorem path_isClean_iff {source path : String} {t t' : Template}
    (h : ofString source = t ++ .binding path :: t') :
    path ≠ "" ∧ '\n' ∉ path.toList ∧
      ∃ before here after, source.toList = before ++ here ∧ IsToken here path.toList after ∧
        ofString (String.ofList after) = t' ∧
        (IsClean path.toList ↔ ¬ClosesAtOnce here) ∧
        (ClosesAtOnce here →
          (∃ c, Text.isBlank c = true ∧ path.toList = [c]) ∨ ['\x7d', '\x7d'] <+: path.toList) := by
  have hcut : Cut source.toList (ofString source) := by rw [ofString_eq_scan, ← scan_eq_iff]
  obtain ⟨before, here, after, hsource, htoken, hafter⟩ := hcut.exists_token h
  obtain ⟨hne, hline⟩ := htoken.nonempty_line
  obtain ⟨hclean, hshape⟩ := htoken.clean_iff
  refine ⟨?_, hline, before, here, after, hsource, htoken, ?_, hclean, hshape⟩
  · rintro rfl
    exact hne rfl
  · rw [ofString_eq_scan, String.toList_ofList, scan_eq_iff]
    exact hafter

/-- A blank token, an empty one that swallows text up to the next closing braces, and a good one. -/
def blankTokens : String :=
  "\x7b\x7b \x7d\x7d\n\x7b\x7b\x7d\x7d or \x7b\x7b a \x7d\x7d\x7b\x7b b \x7d\x7d"

theorem path_isClean_iff_blankTokens :
    ofString blankTokens = [.binding " ", .literal "\n", .binding "\x7d\x7d or \x7b\x7b a",
        .binding "b"] ∧
      (∃ here after, IsToken here " ".toList after ∧ ClosesAtOnce here) ∧
      (∃ here after, IsToken here "\x7d\x7d or \x7b\x7b a".toList after ∧ ClosesAtOnce here) ∧
      ∃ here after, IsToken here "b".toList after ∧ ¬ClosesAtOnce here := by
  have hsegments : ofString blankTokens = [.binding " ", .literal "\n",
      .binding "\x7d\x7d or \x7b\x7b a", .binding "b"] := by decide +kernel
  have hblank : ¬IsClean " ".toList := by decide
  have hswallowing : ¬IsClean "\x7d\x7d or \x7b\x7b a".toList := by decide +kernel
  have hgood : IsClean "b".toList := by decide
  refine ⟨hsegments, ?_, ?_, ?_⟩
  · obtain ⟨-, -, _, here, after, -, htoken, -, hclean, -⟩ := path_isClean_iff (t := []) hsegments
    exact ⟨here, after, htoken, not_not.mp fun h => hblank (hclean.mpr h)⟩
  · obtain ⟨-, -, _, here, after, -, htoken, -, hclean, -⟩ :=
      path_isClean_iff (t := [.binding " ", .literal "\n"]) hsegments
    exact ⟨here, after, htoken, not_not.mp fun h => hswallowing (hclean.mpr h)⟩
  · obtain ⟨-, -, _, here, after, -, htoken, -, hclean, -⟩ :=
      path_isClean_iff (t := [.binding " ", .literal "\n", .binding "\x7d\x7d or \x7b\x7b a"])
        hsegments
    exact ⟨here, after, htoken, hclean.mp hgood⟩

/-- A blank token captures its blank. -/
theorem ofString_blank_token :
    ofString "\x7b\x7b \x7d\x7d" = [.binding " "] ∧ ¬IsClean " ".toList := by
  decide +kernel

end Template

end ServerUi
