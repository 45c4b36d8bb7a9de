import Mathlib.Data.List.Nodup
import ServerUi.Text.Excerpt

/-!
# ServerUi.Proofs.Text.Excerpt — where an excerpt has its caret

Flaws are located by line breaks: a text has one line more than it has breaks.  `Text.lines` has no
line behind a break at the end, so it falls one short of that count there (`Text.length_lines`), and
an excerpt shows the lines of `Text.lines` alone.  A flaw in any of them has its caret in the next
row of the excerpt, and a flaw behind the last break has none (`excerpt_caret`).
-/

namespace ServerUi

namespace Text

/-! ### Lines and line breaks -/

/-- A line without the carriage return that belongs to the break after it. -/
def withoutReturn (line : List Char) : List Char :=
  if line.getLast? = some '\r' then line.dropLast else line

/-- The line with a number, where line breaks alone are counted. -/
def lineAt (s : List Char) (n : Nat) : List Char :=
  let piece := (s.splitOn '\n').getD (n - 1) []
  if n ≤ s.count '\n' then withoutReturn piece else piece

/-- Nothing stands behind the last line break. -/
def EndsWithBreak (s : List Char) : Prop := s = [] ∨ s.getLast? = some '\n'

instance (s : List Char) : Decidable (EndsWithBreak s) :=
  inferInstanceAs (Decidable (s = [] ∨ s.getLast? = some '\n'))

/-- Induction over the line breaks of a text, from its end. -/
theorem induction_breaks {P : List Char → Prop} (plain : ∀ s, '\n' ∉ s → P s)
    (broken : ∀ s rest, '\n' ∉ s → P rest → P (s ++ '\n' :: rest)) (s : List Char) : P s := by
  by_cases h : '\n' ∈ s
  · obtain ⟨before, rest, hs, hbefore⟩ := List.eq_append_cons_of_mem h
    have hlt : rest.length < s.length := by
      rw [hs, List.length_append, List.length_cons]
      omega
    exact hs ▸ broken before rest hbefore (induction_breaks plain broken rest)
  · exact plain s h
termination_by s.length

theorem withoutReturn_cons {c : Char} {s : List Char} (h : s ≠ []) :
    withoutReturn (c :: s) = c :: withoutReturn s := by
  obtain ⟨d, rest, rfl⟩ := List.exists_cons_of_ne_nil h
  rw [withoutReturn, withoutReturn, List.getLast?_cons_cons, List.dropLast_cons_of_ne_nil h]
  split <;> rfl

theorem not_mem_withoutReturn {s : List Char} (h : '\n' ∉ s) : '\n' ∉ withoutReturn s := by
  unfold withoutReturn
  split
  · exact fun hmem => h (List.dropLast_sublist s |>.subset hmem)
  · exact h

theorem lines_break (rest : List Char) : lines ('\n' :: rest) = [] :: lines rest := by
  rw [lines]

theorem lines_singleton {c : Char} (h : c ≠ '\n') : lines [c] = [[c]] := by
  by_cases hreturn : c = '\r'
  · rw [hreturn, lines]
  · rw [lines] <;> simp [h, hreturn]

/-- A character that is part of no line break belongs to the line after it. -/
theorem lines_cons {c d : Char} {s line : List Char} {more : List (List Char)} (hc : c ≠ '\n')
    (hbreak : c = '\r' → d ≠ '\n') (h : lines (d :: s) = line :: more) :
    lines (c :: d :: s) = (c :: line) :: more := by
  rw [lines.eq_def]
  split
  case h_5 c' rest _ _ _ heq =>
    obtain ⟨rfl, rfl⟩ := List.cons.inj heq
    rw [h]
  -- the other patterns are the empty text, a break and a lone carriage return
  all_goals simp_all

/-- A text without a break is one line, unless it is empty. -/
theorem lines_of_not_mem {s : List Char} (h : '\n' ∉ s) (hs : s ≠ []) : lines s = [s] := by
  induction s with
  | nil => exact absurd rfl hs
  | cons c s ih =>
    obtain ⟨hc, hrest⟩ := List.ne_and_not_mem_of_not_mem_cons h
    cases s with
    | nil => exact lines_singleton hc.symm
    | cons d s =>
      have hd : d ≠ '\n' := (List.ne_of_not_mem_cons hrest).symm
      exact lines_cons hc.symm (fun _ => hd) (ih hrest (List.cons_ne_nil d s))

/-- The first break ends the first line, a carriage return before it included. -/
theorem lines_append {s : List Char} (h : '\n' ∉ s) (rest : List Char) :
    lines (s ++ '\n' :: rest) = withoutReturn s :: lines rest := by
  induction s with
  | nil => exact lines_break rest
  | cons c s ih =>
    obtain ⟨hc, hs⟩ := List.ne_and_not_mem_of_not_mem_cons h
    cases s with
    | nil =>
      -- a carriage return here is the first part of the break
      by_cases hreturn : c = '\r'
      · rw [hreturn, List.singleton_append, lines]
        rfl
      · have hkept : withoutReturn [c] = [c] := if_neg (by simpa using hreturn)
        rw [hkept]
        exact lines_cons hc.symm (fun e => absurd e hreturn) (lines_break rest)
    | cons d s =>
      have hd : d ≠ '\n' := (List.ne_of_not_mem_cons hs).symm
      rw [withoutReturn_cons (List.cons_ne_nil d s)]
      exact lines_cons hc.symm (fun _ => hd) (ih hs)

/-! ### Counting lines -/

theorem endsWithBreak_append (s rest : List Char) :
    EndsWithBreak (s ++ '\n' :: rest) ↔ EndsWithBreak rest := by
  cases rest with
  | nil => simp [EndsWithBreak]
  | cons c rest => simp [EndsWithBreak, List.getLast?_append]

theorem not_endsWithBreak {s : List Char} (h : '\n' ∉ s) (hs : s ≠ []) : ¬EndsWithBreak s := by
  rintro (rfl | hlast)
  · exact hs rfl
  · exact h (List.mem_of_getLast? hlast)

theorem count_append_break {s : List Char} (h : '\n' ∉ s) (rest : List Char) :
    (s ++ '\n' :: rest).count '\n' = rest.count '\n' + 1 := by
  rw [List.count_append, List.count_eq_zero_of_not_mem h, List.count_cons_self, Nat.zero_add]

/-- A text has one line more than it has breaks, but none behind a break at its end. -/
theorem length_lines (s : List Char) :
    (lines s).length = if EndsWithBreak s then s.count '\n' else s.count '\n' + 1 := by
  induction s using induction_breaks with
  | plain s h =>
    rw [List.count_eq_zero_of_not_mem h]
    by_cases hs : s = []
    · rw [hs]
      rfl
    · rw [lines_of_not_mem h hs, if_neg (not_endsWithBreak h hs)]
      rfl
  | broken s rest h ih =>
    rw [lines_append h, List.length_cons, ih, count_append_break h]
    simp only [endsWithBreak_append]
    split <;> rfl

theorem lineAt_append_one {s : List Char} (h : '\n' ∉ s) (rest : List Char) :
    lineAt (s ++ '\n' :: rest) 1 = withoutReturn s := by
  have hone : 1 ≤ (s ++ '\n' :: rest).count '\n' := by
    rw [count_append_break h]
    omega
  rw [lineAt, if_pos hone, List.splitOn_append_cons_self_of_not_mem h]
  rfl

/-- The further lines are those behind the first break. -/
theorem lineAt_append_succ {s : List Char} (h : '\n' ∉ s) (rest : List Char) (n : Nat) :
    lineAt (s ++ '\n' :: rest) (n + 2) = lineAt rest (n + 1) := by
  have hle : n + 2 ≤ rest.count '\n' + 1 ↔ n + 1 ≤ rest.count '\n' := Nat.succ_le_succ_iff
  simp only [lineAt, count_append_break h, List.splitOn_append_cons_self_of_not_mem h, hle]
  rfl

/-- The lines of a text are those that its line breaks make, as far as it has lines. -/
theorem getD_lines {s : List Char} {n : Nat} (h : n < (lines s).length) :
    (lines s).getD n [] = lineAt s (n + 1) := by
  induction s using induction_breaks generalizing n with
  | plain s hs =>
    by_cases hnil : s = []
    · rw [hnil] at h
      cases h
    · rw [lines_of_not_mem hs hnil] at h ⊢
      obtain rfl : n = 0 := Nat.lt_one_iff.mp h
      rw [lineAt, List.count_eq_zero_of_not_mem hs, if_neg (by omega),
        List.splitOn_eq_singleton hs]
  | broken s rest hs ih =>
    rw [lines_append hs] at h ⊢
    cases n with
    | zero => exact (lineAt_append_one hs rest).symm
    | succ n =>
      rw [lineAt_append_succ hs, ← ih (Nat.lt_of_succ_lt_succ h)]
      rfl

theorem lineAt_of_endsWithBreak {s : List Char} (h : EndsWithBreak s) :
    lineAt s (s.count '\n' + 1) = [] := by
  induction s using induction_breaks with
  | plain s hs =>
    by_cases hnil : s = []
    · rw [hnil]
      rfl
    · exact absurd h (not_endsWithBreak hs hnil)
  | broken s rest hs ih =>
    rw [count_append_break hs, lineAt_append_succ hs]
    exact ih ((endsWithBreak_append s rest).mp h)

theorem not_mem_of_mem_splitOn (s : List Char) : ∀ piece ∈ s.splitOn '\n', '\n' ∉ piece := by
  induction s using induction_breaks with
  | plain s h =>
    rw [List.splitOn_eq_singleton h]
    exact List.forall_mem_singleton.mpr h
  | broken s rest h ih =>
    rw [List.splitOn_append_cons_self_of_not_mem h]
    exact List.forall_mem_cons.mpr ⟨h, ih⟩

theorem not_mem_lineAt (s : List Char) (n : Nat) : '\n' ∉ lineAt s n := by
  have hpiece : '\n' ∉ (s.splitOn '\n').getD (n - 1) [] := by
    rw [List.getD_eq_getElem?_getD]
    cases hget : (s.splitOn '\n')[n - 1]? with
    | none => exact List.not_mem_nil
    | some piece => exact not_mem_of_mem_splitOn s piece (List.mem_of_getElem? hget)
  rw [lineAt]
  split
  · exact not_mem_withoutReturn hpiece
  · exact hpiece

/-- Rows that end with a break each are read back, with nothing behind the last break. -/
theorem splitOn_flatMap_break {rows : List (List Char)} (h : ∀ row ∈ rows, '\n' ∉ row) :
    (rows.flatMap (· ++ ['\n'])).splitOn '\n' = rows ++ [[]] := by
  induction rows with
  | nil => rfl
  | cons row rows ih =>
    obtain ⟨hrow, hrows⟩ := List.forall_mem_cons.mp h
    rw [List.flatMap_cons, List.append_assoc, List.singleton_append,
      List.splitOn_append_cons_self_of_not_mem hrow, ih hrows]
    rfl

end Text

/-! ### Rows of an excerpt -/

/-- What an excerpt shows of a line. -/
def numberedRow (source : String) (n : Nat) : List Char :=
  (margin n).toList ++ Text.lineAt source.toList n

/-- A caret as far from the margin as the column is. -/
def caretRow (n column : Nat) : List Char :=
  List.replicate ((margin n).length + (column - 1)) ' ' ++ ['^']

/-- A caret behind blanks and nothing else. -/
def IsCaretRow (row : List Char) : Prop := ∃ count, row = List.replicate count ' ' ++ ['^']

theorem toList_margin (n : Nat) :
    (margin n).toList = ' ' :: List.replicate (4 - (Nat.toDigits 10 n).length) ' ' ++
      Nat.toDigits 10 n ++ [' ', '|', ' '] := by
  simp [margin, lineNumber]

theorem not_mem_margin (n : Nat) : '\n' ∉ (margin n).toList := by
  have hdigits : '\n' ∉ Nat.toDigits 10 n := by
    intro hmem
    have hdigit : '\n'.isDigit = true := Nat.isDigit_of_mem_toDigits (by omega) (by omega) hmem
    revert hdigit
    decide
  simp [toList_margin, hdigits]

theorem not_mem_numberedRow (source : String) (n : Nat) : '\n' ∉ numberedRow source n :=
  List.not_mem_append (not_mem_margin n) (Text.not_mem_lineAt _ n)

theorem not_mem_caretRow (n column : Nat) : '\n' ∉ caretRow n column := by
  simp [caretRow]

/-- The number of a line tells its row from a caret. -/
theorem not_isCaretRow_numberedRow (source : String) (n : Nat) :
    ¬IsCaretRow (numberedRow source n) := by
  rintro ⟨count, hrow⟩
  obtain ⟨digit, hdigit⟩ := List.exists_mem_of_ne_nil _ (Nat.toDigits_ne_nil (b := 10) (n := n))
  have hmem : digit ∈ List.replicate count ' ' ++ ['^'] := by
    rw [← hrow, numberedRow, toList_margin]
    simp [hdigit]
  have hisDigit : digit.isDigit = true := Nat.isDigit_of_mem_toDigits (by omega) (by omega) hdigit
  obtain hblank | hcaret := List.mem_append.mp hmem
  · rw [List.eq_of_mem_replicate hblank] at hisDigit
    cases hisDigit
  · rw [List.mem_singleton.mp hcaret] at hisDigit
    cases hisDigit

theorem not_isCaretRow_nil : ¬IsCaretRow [] := by
  rintro ⟨count, h⟩
  simp at h

/-- The numbers of the lines that an excerpt shows. -/
def shownLines (source : String) (line : Nat) : List Nat :=
  let first := max 1 (line - 2)
  let last := min (Text.lines source.toList).length (line + 1)
  List.range' first (last + 1 - first)

/-- Shown are two lines before and one after, as far as the text has them. -/
theorem mem_shownLines {source : String} {line n : Nat} :
    n ∈ shownLines source line ↔
      (1 ≤ n ∧ line - 2 ≤ n) ∧ n ≤ (Text.lines source.toList).length ∧ n ≤ line + 1 := by
  simp only [shownLines, List.mem_range'_1]
  omega

/-- The rows that an excerpt shows of some lines. -/
def rowsOf (source : String) (line column : Nat) (numbers : List Nat) : List (List Char) :=
  numbers.flatMap fun n => numberedRow source n :: if n = line then [caretRow line column] else []

/-- Lines other than the one that is pointed to have no caret. -/
theorem rowsOf_of_not_mem {source : String} {line column : Nat} {numbers : List Nat}
    (h : line ∉ numbers) : rowsOf source line column numbers = numbers.map (numberedRow source) := by
  rw [rowsOf, List.map_eq_flatMap]
  refine List.flatMap_congr fun n hn => ?_
  have hne : n ≠ line := fun e => h (e ▸ hn)
  rw [if_neg hne]

theorem not_mem_of_mem_rowsOf {source : String} {line column : Nat} {numbers : List Nat}
    {row : List Char} (h : row ∈ rowsOf source line column numbers) : '\n' ∉ row := by
  obtain ⟨n, -, hrow⟩ := List.mem_flatMap.mp h
  obtain rfl | hcaret := List.mem_cons.mp hrow
  · exact not_mem_numberedRow source n
  · split at hcaret
    · rw [List.mem_singleton.mp hcaret]
      exact not_mem_caretRow line column
    · cases hcaret

/-- An excerpt is its rows, each with a break at its end. -/
theorem toList_excerpt (source : String) (line column : Nat) :
    (excerpt source line column).toList =
      (rowsOf source line column (shownLines source line)).flatMap (· ++ ['\n']) := by
  rw [excerpt, String.toList_join, List.flatMap_map, rowsOf, List.flatMap_assoc]
  refine List.flatMap_congr fun n hn => ?_
  obtain ⟨⟨hfirst, -⟩, hlast, -⟩ := mem_shownLines.mp hn
  have hline : (Text.lines source.toList).getD (n - 1) [] = Text.lineAt source.toList n := by
    rw [Text.getD_lines (by omega), Nat.sub_add_cancel hfirst]
  rw [hline, numberedRow]
  split
  · rename_i heq
    simp [heq, caretLine, caretRow]
  · simp

theorem splitOn_excerpt (source : String) (line column : Nat) :
    (excerpt source line column).toList.splitOn '\n' =
      rowsOf source line column (shownLines source line) ++ [[]] := by
  rw [toList_excerpt, Text.splitOn_flatMap_break fun _ => not_mem_of_mem_rowsOf]

theorem not_isCaretRow_of_mem_map (source : String) (numbers : List Nat) :
    ∀ row ∈ numbers.map (numberedRow source) ++ [[]], ¬IsCaretRow row := by
  refine List.forall_mem_append.mpr ⟨fun row hrow => ?_,
    List.forall_mem_singleton.mpr not_isCaretRow_nil⟩
  obtain ⟨n, -, rfl⟩ := List.mem_map.mp hrow
  exact not_isCaretRow_numberedRow source n

/-- A line that is shown is shown once, and the caret stands in the row after it. -/
theorem exists_rowsOf_eq {source : String} {line : Nat} (h : line ∈ shownLines source line)
    (column : Nat) :
    ∃ before after : List Nat, rowsOf source line column (shownLines source line) =
      before.map (numberedRow source) ++
        numberedRow source line :: caretRow line column :: after.map (numberedRow source) := by
  obtain ⟨before, after, hshown⟩ := List.append_of_mem h
  have hnodup : (before ++ line :: after).Nodup := hshown ▸ List.nodup_range'
  obtain ⟨hbefore, hafter⟩ : line ∉ before ∧ line ∉ after := by
    simpa using (List.nodup_middle.mp hnodup).notMem
  refine ⟨before, after, ?_⟩
  rw [hshown, rowsOf, List.flatMap_append, List.flatMap_cons, if_pos rfl]
  exact congrArg₂ (· ++ _ :: _ :: ·) (rowsOf_of_not_mem hbefore) (rowsOf_of_not_mem hafter)

/-- A text has a line for every line break and one more.  The excerpt at a line has one caret, in
the row after that line and below its column, unless the line is the empty one behind the last
break: then it has none. -/
theorem excerpt_caret (source : String) (line column : Nat) (hfirst : 1 ≤ line)
    (hlast : line ≤ source.toList.count '\n' + 1) :
    let rows := (excerpt source line column).toList.splitOn '\n'
    let text := Text.lineAt source.toList line
    let shown := (margin line).toList ++ text
    let caret := List.replicate ((margin line).length + (column - 1)) ' ' ++ ['^']
    let isBehindLastBreak :=
      line = source.toList.count '\n' + 1 ∧ Text.EndsWithBreak source.toList
    shown.drop (caret.length - 1) = text.drop (column - 1) ∧
    (¬isBehindLastBreak → ∃ before after, rows = before ++ shown :: caret :: after ∧
      ∀ row ∈ before ++ shown :: after, ¬IsCaretRow row) ∧
    (isBehindLastBreak → text = [] ∧ ∀ row ∈ rows, ¬IsCaretRow row) := by
  intro rows text shown caret isBehindLastBreak
  have hrows : rows = rowsOf source line column (shownLines source line) ++ [[]] :=
    splitOn_excerpt source line column
  have hlength := Text.length_lines source.toList
  refine ⟨?_, fun hnot => ?_, fun ⟨hline, hends⟩ => ⟨?_, ?_⟩⟩
  · have hcaret : caret.length - 1 = (margin line).toList.length + (column - 1) := by
      simp [caret, String.length_toList]
    rw [hcaret, ← List.drop_drop, List.drop_left]
  · -- the only line that is not among the lines is the empty one behind a last break
    have hmem : line ∈ shownLines source line := by
      refine mem_shownLines.mpr ⟨⟨hfirst, by omega⟩, ?_, by omega⟩
      by_cases hends : Text.EndsWithBreak source.toList
      · have hne : line ≠ source.toList.count '\n' + 1 := fun e => hnot ⟨e, hends⟩
        rw [hlength, if_pos hends]
        omega
      · rwa [hlength, if_neg hends]
    obtain ⟨before, after, heq⟩ := exists_rowsOf_eq hmem column
    refine ⟨before.map (numberedRow source), after.map (numberedRow source) ++ [[]], ?_, ?_⟩
    · rw [hrows, heq, List.append_assoc]
      rfl
    · have hall := not_isCaretRow_of_mem_map source (before ++ line :: after)
      have hshown : shown = numberedRow source line := rfl
      simpa [hshown] using hall
  · rw [← Text.lineAt_of_endsWithBreak hends, ← hline]
  · have hmem : line ∉ shownLines source line := by
      intro hmem
      have hle := (mem_shownLines.mp hmem).2.1
      rw [hlength, if_pos hends] at hle
      omega
    rw [hrows, rowsOf_of_not_mem hmem]
    exact not_isCaretRow_of_mem_map source _

/-- A text that stops in the middle of an object, behind a line break. -/
def unfinishedText : String := "\x7b\r\n  \"type\": \"Text\",\n"

theorem excerpt_caret_unfinishedText :
    (∃ before after, (excerpt unfinishedText 1 1).toList.splitOn '\n' =
        before ++ "    1 | \x7b".toList :: "        ^".toList :: after ∧
      ∀ row ∈ before ++ "    1 | \x7b".toList :: after, ¬IsCaretRow row) ∧
    (∃ before after, (excerpt unfinishedText 2 17).toList.splitOn '\n' =
        before ++ "    2 |   \"type\": \"Text\",".toList :: "                        ^".toList ::
          after ∧
      ∀ row ∈ before ++ "    2 |   \"type\": \"Text\",".toList :: after, ¬IsCaretRow row) ∧
    ∀ row ∈ (excerpt unfinishedText 3 1).toList.splitOn '\n', ¬IsCaretRow row := by
  obtain ⟨-, hopening, -⟩ := excerpt_caret unfinishedText 1 1 (by decide) (by decide)
  obtain ⟨-, hmember, -⟩ := excerpt_caret unfinishedText 2 17 (by decide) (by decide)
  obtain ⟨-, -, hbehind⟩ := excerpt_caret unfinishedText 3 1 (by decide) (by decide)
  exact ⟨hopening (by decide), hmember (by decide), (hbehind (by decide)).2⟩

/-- The first line of the empty text, where a reader misses its value, has no caret. -/
theorem excerpt_of_empty_text :
    1 ≤ "".toList.count '\n' + 1 ∧ excerpt "" 1 1 = "" ∧
      ¬∃ row ∈ (excerpt "" 1 1).toList.splitOn '\n', IsCaretRow row := by
  have hexcerpt : excerpt "" 1 1 = "" := by decide +kernel
  refine ⟨by decide, hexcerpt, ?_⟩
  rw [hexcerpt]
  rintro ⟨row, hrow, hcaret⟩
  obtain rfl := List.mem_singleton.mp hrow
  exact not_isCaretRow_nil hcaret

end ServerUi
