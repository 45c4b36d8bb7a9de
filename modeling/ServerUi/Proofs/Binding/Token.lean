import Mathlib.Data.List.TakeWhile
import ServerUi.Binding.Template

/-!
# ServerUi.Proofs.Binding.Token — which tokens stand where

`IsToken` says without a search what a token is: after opening braces and all blanks that follow
them comes the shortest path that is closed, or, where nothing can be a path, one of the blanks
does for it.  There is at most one token at a place, and `token?` finds it (`token?_eq_some_iff`).
-/

namespace ServerUi

namespace Template

/-! ### Tokens -/

/-- Optional blanks and closing braces stand at the front of `s`, and `after` follows them. -/
def Closes (s after : List Char) : Prop :=
  ∃ blanks : List Char, (∀ c ∈ blanks, Text.isBlank c = true) ∧
    s = blanks ++ '\x7d' :: '\x7d' :: after

/-- Text of one line, closed, with which `s` begins. -/
def CanBePath (s path after : List Char) : Prop :=
  path ≠ [] ∧ '\n' ∉ path ∧ ∃ rest, s = path ++ rest ∧ Closes rest after

/-- The shortest text with which `s` begins that can be a path. -/
def IsShortestPath (s path after : List Char) : Prop :=
  CanBePath s path after ∧
    ∀ path' after', CanBePath s path' after' → path.length ≤ path'.length

/-- `s` begins with a token that has a path and is followed by `after`. -/
inductive IsToken : List Char → List Char → List Char → Prop
  /-- The shortest path after all blanks. -/
  | path {blanks s path after : List Char} (hblanks : ∀ c ∈ blanks, Text.isBlank c = true)
      (hstart : ∀ c ∈ s.head?, Text.isBlank c = false) (hpath : IsShortestPath s path after) :
      IsToken ('\x7b' :: '\x7b' :: (blanks ++ s)) path after
  /-- The last blank that is no line break, where closing braces follow the blanks and nothing
  from there on can be a path. -/
  | blank {blanks breaks after : List Char} {c : Char}
      (hblanks : ∀ d ∈ blanks, Text.isBlank d = true) (hc : Text.isBlank c = true)
      (hline : c ≠ '\n') (hbreaks : ∀ d ∈ breaks, d = '\n')
      (hnone : ∀ path after', ¬CanBePath ('\x7d' :: '\x7d' :: after) path after') :
      IsToken ('\x7b' :: '\x7b' :: (blanks ++ c :: breaks ++ '\x7d' :: '\x7d' :: after)) [c] after

/-! ### Closing braces -/

theorem not_isBlank_brace : Text.isBlank '\x7d' = false := by decide

theorem isBlank_break : Text.isBlank '\n' = true := by decide

/-- Blanks before the closing braces are passed over. -/
theorem close?_append {blanks : List Char} (h : ∀ c ∈ blanks, Text.isBlank c = true)
    (s : List Char) : close? (blanks ++ s) = close? s := by
  rw [close?, close?, List.dropWhile_append_of_pos h]

/-- `close?` finds the closing braces that may end a token. -/
theorem close?_eq_some_iff {s after : List Char} : close? s = some after ↔ Closes s after := by
  constructor
  · intro h
    rw [close?] at h
    split at h
    · rename_i rest hdrop
      obtain rfl := Option.some.inj h
      refine ⟨s.takeWhile Text.isBlank, fun c hc => List.mem_takeWhile_imp hc, ?_⟩
      rw [← hdrop, List.takeWhile_append_dropWhile]
    · cases h
  · rintro ⟨blanks, hblanks, rfl⟩
    rw [close?_append hblanks]
    rfl

/-! ### Paths -/

/-- A path is one character before the closing braces, or one before a shorter path. -/
theorem canBePath_cons {c : Char} {rest path after : List Char} :
    CanBePath (c :: rest) path after ↔ c ≠ '\n' ∧
      ((path = [c] ∧ Closes rest after) ∨
        ∃ path', path = c :: path' ∧ CanBePath rest path' after) := by
  constructor
  · rintro ⟨hne, hline, tail, hsplit, hclose⟩
    obtain ⟨d, path', rfl⟩ := List.exists_cons_of_ne_nil hne
    obtain ⟨rfl, rfl⟩ := List.cons.inj hsplit
    obtain ⟨hc, hline⟩ : c ≠ '\n' ∧ '\n' ∉ path' := by
      simpa [eq_comm] using hline
    refine ⟨hc, ?_⟩
    cases path' with
    | nil => exact .inl ⟨rfl, hclose⟩
    | cons d path' => exact .inr ⟨_, rfl, List.cons_ne_nil _ _, hline, tail, rfl, hclose⟩
  · rintro ⟨hc, ⟨rfl, hclose⟩ | ⟨path', rfl, -, hline, tail, rfl, hclose⟩⟩
    · exact ⟨List.cons_ne_nil _ _, by simpa [eq_comm] using hc, rest, rfl, hclose⟩
    · exact ⟨List.cons_ne_nil _ _, by simpa [eq_comm, hline] using hc, tail, rfl, hclose⟩

/-- The search for a path fails exactly if nothing can be one. -/
theorem path?_eq_none_iff {s : List Char} :
    path? s = none ↔ ∀ path after, ¬CanBePath s path after := by
  induction s with
  | nil =>
    refine ⟨fun _ => ?_, fun _ => rfl⟩
    rintro path after ⟨hne, -, tail, hsplit, -⟩
    exact hne (List.append_eq_nil_iff.mp hsplit.symm).1
  | cons c rest ih =>
    rw [path?]
    by_cases hc : c = '\n'
    · rw [if_pos hc]
      exact ⟨fun _ path after h => (canBePath_cons.mp h).1 hc, fun _ => rfl⟩
    · rw [if_neg hc]
      -- a path may end with this character or behind it
      cases hclose : close? rest with
      | some after =>
        refine ⟨nofun, fun h => absurd ?_ (h [c] after)⟩
        exact canBePath_cons.mpr ⟨hc, .inl ⟨rfl, close?_eq_some_iff.mp hclose⟩⟩
      | none =>
        rw [Option.map_eq_none_iff, ih]
        constructor
        · intro h path after hpath
          obtain ⟨-, ⟨-, hcloses⟩ | ⟨path', -, hpath'⟩⟩ := canBePath_cons.mp hpath
          · cases hclose.symm.trans (close?_eq_some_iff.mpr hcloses)
          · exact h path' after hpath'
        · intro h path after hpath
          exact h (c :: path) after (canBePath_cons.mpr ⟨hc, .inr ⟨path, rfl, hpath⟩⟩)

/-- The search for a path stops at the first character behind which the braces close. -/
theorem isShortestPath_of_path? {s path after : List Char} (h : path? s = some (path, after)) :
    IsShortestPath s path after := by
  induction s generalizing path with
  | nil => cases h
  | cons c rest ih =>
    rw [path?] at h
    split at h
    · cases h
    · rename_i hc
      split at h
      · rename_i after' hclose
        cases h
        -- no path is shorter than one character
        refine ⟨canBePath_cons.mpr ⟨hc, .inl ⟨rfl, close?_eq_some_iff.mp hclose⟩⟩, ?_⟩
        rintro path' after' ⟨hne, -⟩
        exact List.length_pos_iff.mpr hne
      · rename_i hclose
        obtain ⟨⟨path', after'⟩, hpath, heq⟩ := Option.map_eq_some_iff.mp h
        cases heq
        obtain ⟨hcan, hshortest⟩ := ih hpath
        refine ⟨canBePath_cons.mpr ⟨hc, .inr ⟨path', rfl, hcan⟩⟩, ?_⟩
        -- no path ends here, so every one has this character in front of a path of the rest
        intro other after'' hother
        obtain ⟨-, ⟨-, hcloses⟩ | ⟨other', rfl, hother'⟩⟩ := canBePath_cons.mp hother
        · cases hclose.symm.trans (close?_eq_some_iff.mpr hcloses)
        · exact Nat.succ_le_succ (hshortest other' after'' hother')

theorem IsShortestPath.unique {s path after path' after' : List Char}
    (h : IsShortestPath s path after) (h' : IsShortestPath s path' after') :
    path = path' ∧ after = after' := by
  have hlength : path.length = path'.length :=
    Nat.le_antisymm (h.2 path' after' h'.1) (h'.2 path after h.1)
  obtain ⟨-, -, tail, hs, hcloses⟩ := h.1
  obtain ⟨-, -, tail', hs', hcloses'⟩ := h'.1
  obtain ⟨rfl, rfl⟩ := List.append_inj (hs.symm.trans hs') hlength
  refine ⟨rfl, Option.some.inj ?_⟩
  rw [← close?_eq_some_iff.mpr hcloses, close?_eq_some_iff.mpr hcloses']

/-- `path?` finds the shortest path. -/
theorem path?_eq_some_iff {s path after : List Char} :
    path? s = some (path, after) ↔ IsShortestPath s path after := by
  refine ⟨isShortestPath_of_path?, fun h => ?_⟩
  cases hfound : path? s with
  | none => exact absurd h.1 (path?_eq_none_iff.mp hfound path after)
  | some found =>
    obtain ⟨rfl, rfl⟩ := h.unique (isShortestPath_of_path? hfound)
    rfl

/-! ### Blanks given back -/

theorem body?_of_not_blank {s : List Char} (h : ∀ c ∈ s.head?, Text.isBlank c = false) :
    body? s = path? s := by
  cases s with
  | nil => rfl
  | cons c rest => rw [body?, if_neg (by simp [h c rfl])]

/-- A search that succeeds after some blanks does not give them back. -/
theorem body?_append_of_some {s : List Char} {found : List Char × List Char}
    (hs : body? s = some found) {blanks : List Char} (h : ∀ c ∈ blanks, Text.isBlank c = true) :
    body? (blanks ++ s) = some found := by
  induction blanks with
  | nil => exact hs
  | cons b blanks ih =>
    obtain ⟨hb, hblanks⟩ := List.forall_mem_cons.mp h
    rw [List.cons_append, body?, if_pos hb, ih hblanks]

theorem path?_break (s : List Char) : path? ('\n' :: s) = none := rfl

/-- Line breaks are of no use when they are given back. -/
theorem body?_breaks {s : List Char} (hs : body? s = none) {breaks : List Char}
    (h : ∀ d ∈ breaks, d = '\n') : body? (breaks ++ s) = none := by
  induction breaks with
  | nil => exact hs
  | cons b breaks ih =>
    obtain ⟨rfl, hbreaks⟩ := List.forall_mem_cons.mp h
    rw [List.cons_append, body?, if_pos isBlank_break, ih hbreaks, path?_break]

/-- Blanks in front of what is neither a path nor closed are no path. -/
theorem path?_blanks {s : List Char} (hpath : path? s = none) (hclose : close? s = none)
    {blanks : List Char} (h : ∀ c ∈ blanks, Text.isBlank c = true) :
    path? (blanks ++ s) = none := by
  induction blanks with
  | nil => exact hpath
  | cons b blanks ih =>
    obtain ⟨-, hblanks⟩ := List.forall_mem_cons.mp h
    rw [List.cons_append, path?, close?_append hblanks, hclose, ih hblanks]
    exact ite_self _

/-- Behind blanks there is nothing to find if there is neither a path nor the closing braces. -/
theorem body?_blanks {s : List Char} (hstart : ∀ c ∈ s.head?, Text.isBlank c = false)
    (hpath : path? s = none) (hclose : close? s = none) {blanks : List Char}
    (h : ∀ c ∈ blanks, Text.isBlank c = true) : body? (blanks ++ s) = none := by
  induction blanks with
  | nil => rwa [List.nil_append, body?_of_not_blank hstart]
  | cons b blanks ih =>
    obtain ⟨hb, hblanks⟩ := List.forall_mem_cons.mp h
    have hwhole := path?_blanks hpath hclose h
    rw [List.cons_append] at hwhole ⊢
    rw [body?, if_pos hb, ih hblanks, hwhole]

/-- Blanks are line breaks, or one of them is the last that is none. -/
theorem breaks_or_last (blanks : List Char) :
    (∀ c ∈ blanks, c = '\n') ∨
      ∃ earlier c breaks, blanks = earlier ++ c :: breaks ∧ c ≠ '\n' ∧ ∀ d ∈ breaks, d = '\n' := by
  induction blanks with
  | nil => exact .inl fun _ h => absurd h List.not_mem_nil
  | cons b blanks ih =>
    obtain h | ⟨earlier, c, breaks, rfl, hc, hbreaks⟩ := ih
    · by_cases hb : b = '\n'
      · exact .inl (List.forall_mem_cons.mpr ⟨hb, h⟩)
      · exact .inr ⟨[], b, blanks, rfl, hb, h⟩
    · exact .inr ⟨b :: earlier, c, breaks, rfl, hc, hbreaks⟩

/-- If nothing but blanks stands between the braces and no path begins with the closing ones, the
last blank that is no line break is the path. -/
theorem body?_blank {blanks breaks after : List Char} {c : Char}
    (hblanks : ∀ d ∈ blanks, Text.isBlank d = true) (hc : Text.isBlank c = true)
    (hline : c ≠ '\n') (hbreaks : ∀ d ∈ breaks, d = '\n')
    (hnone : path? ('\x7d' :: '\x7d' :: after) = none) :
    body? (blanks ++ c :: breaks ++ '\x7d' :: '\x7d' :: after) = some ([c], after) := by
  have hbrace : body? ('\x7d' :: '\x7d' :: after) = none := by
    rw [body?, if_neg (by simp [not_isBlank_brace]), hnone]
  have hbreaks' : ∀ d ∈ breaks, Text.isBlank d = true := fun d hd => hbreaks d hd ▸ isBlank_break
  have hclose : close? (breaks ++ '\x7d' :: '\x7d' :: after) = some after :=
    close?_append hbreaks' _
  rw [List.append_assoc]
  refine body?_append_of_some ?_ hblanks
  rw [List.cons_append, body?, if_pos hc, body?_breaks hbrace hbreaks, path?, if_neg hline, hclose]

/-- Text that is closed at once begins with the braces, unless it begins with a blank. -/
theorem Closes.eq_of_not_blank {s after : List Char} (h : Closes s after)
    (hstart : ∀ c ∈ s.head?, Text.isBlank c = false) : s = '\x7d' :: '\x7d' :: after := by
  obtain ⟨blanks, hblanks, rfl⟩ := h
  cases blanks with
  | nil => rfl
  | cons b blanks =>
    have hb : Text.isBlank b = true := hblanks b List.mem_cons_self
    rw [hstart b rfl] at hb
    cases hb

theorem isToken_of_body? {rest path after : List Char} (h : body? rest = some (path, after)) :
    IsToken ('\x7b' :: '\x7b' :: rest) path after := by
  obtain ⟨blanks, s, rfl, hblanks, hstart⟩ : ∃ blanks s, rest = blanks ++ s ∧
      (∀ c ∈ blanks, Text.isBlank c = true) ∧ ∀ c ∈ s.head?, Text.isBlank c = false := by
    refine ⟨rest.takeWhile Text.isBlank, rest.dropWhile Text.isBlank,
      List.takeWhile_append_dropWhile.symm, fun c hc => List.mem_takeWhile_imp hc, ?_⟩
    intro c hc
    have hnot := List.head?_dropWhile_not Text.isBlank rest
    rwa [Option.mem_def.mp hc] at hnot
  cases hpath : path? s with
  | some found =>
    have hfound := body?_append_of_some ((body?_of_not_blank hstart).trans hpath) hblanks
    obtain rfl : found = (path, after) := Option.some.inj (hfound.symm.trans h)
    exact .path hblanks hstart (path?_eq_some_iff.mp hpath)
  | none =>
    cases hclose : close? s with
    | none => cases (body?_blanks hstart hpath hclose hblanks).symm.trans h
    | some after' =>
      obtain rfl := (close?_eq_some_iff.mp hclose).eq_of_not_blank hstart
      -- the blanks are given back from the last one on, and a line break is no path
      obtain hbreaks | ⟨earlier, c, breaks, rfl, hline, hbreaks⟩ := breaks_or_last blanks
      · have hnone := body?_breaks ((body?_of_not_blank hstart).trans hpath) hbreaks
        cases hnone.symm.trans h
      · obtain ⟨hearlier, hc⟩ := List.forall_mem_append.mp hblanks
        have hc : Text.isBlank c = true := hc c List.mem_cons_self
        have hfound := body?_blank hearlier hc hline hbreaks hpath
        cases hfound.symm.trans h
        exact .blank hearlier hc hline hbreaks (path?_eq_none_iff.mp hpath)

/-- `token?` finds the tokens, and each with its path. -/
theorem token?_eq_some_iff {s path after : List Char} :
    token? s = some (path, after) ↔ IsToken s path after := by
  constructor
  · intro h
    unfold token? at h
    split at h
    · exact isToken_of_body? h
    · cases h
  · rintro (⟨hblanks, hstart, hpath⟩ | ⟨hblanks, hc, hline, hbreaks, hnone⟩)
    · exact body?_append_of_some
        ((body?_of_not_blank hstart).trans (path?_eq_some_iff.mpr hpath)) hblanks
    · exact body?_blank hblanks hc hline hbreaks (path?_eq_none_iff.mpr hnone)

/-- A token is its path between blanks and braces. -/
theorem IsToken.eq_append {s path after : List Char} (h : IsToken s path after) :
    ∃ w w' : List Char, (∀ c ∈ w, Text.isBlank c = true) ∧ (∀ c ∈ w', Text.isBlank c = true) ∧
      s = '\x7b' :: '\x7b' :: (w ++ path ++ w' ++ ['\x7d', '\x7d']) ++ after := by
  cases h with
  | @path blanks _ _ _ hblanks hstart hpath =>
    obtain ⟨-, -, tail, rfl, w', hw', rfl⟩ := hpath.1
    exact ⟨blanks, w', hblanks, hw', by simp⟩
  | @blank blanks breaks _ c hblanks hc hline hbreaks hnone =>
    exact ⟨blanks, breaks, hblanks, fun d hd => hbreaks d hd ▸ isBlank_break, by simp⟩

/-- A path is never empty and stays on one line. -/
theorem IsToken.nonempty_line {s path after : List Char} (h : IsToken s path after) :
    path ≠ [] ∧ '\n' ∉ path := by
  obtain ⟨-, -, hpath⟩ | ⟨-, -, hline, -, -⟩ := h
  · exact ⟨hpath.1.1, hpath.1.2.1⟩
  · exact ⟨List.cons_ne_nil _ _, by simpa [eq_comm] using hline⟩

end Template

end ServerUi
