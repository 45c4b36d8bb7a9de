import Mathlib.Tactic.SplitIfs
import ServerUi.Binding.Template

/-!
# ServerUi.Proofs.Binding.Pattern — bindings as a regular expression

A backtracking search tries the ways in which a regular expression matches at the front of a text
in an order of preference and takes the first.  `Pattern.ways` lists them in that order: a greedy
repetition prefers the longest run, a lazy one the shortest.  Read so, a token is the first match
of `\x7b\x7b\s*(.+?)\s*\x7d\x7d` (`head?_ways_token`).
-/

namespace ServerUi

/-- A regular expression that repeats single characters only. -/
inductive Pattern where
  | one (accepts : Char → Bool)
  /-- Any number of characters, the most of them or the fewest first. -/
  | repeated (greedy : Bool) (accepts : Char → Bool)
  | seq (first second : Pattern)
  /-- A part whose text is captured. -/
  | group (inner : Pattern)

namespace Pattern

/-- A match at the front of a text: what it covers, what its groups have captured and the text that
follows it. -/
structure Match where
  text : List Char
  groups : List (List Char)
  rest : List Char
  deriving DecidableEq, Repr

namespace Match

/-- The match of nothing in front of `rest`. -/
def stop (rest : List Char) : Match := ⟨[], [], rest⟩

/-- The match with one more character before it. -/
def cons (c : Char) (m : Match) : Match := { m with text := c :: m.text }

/-- A match and one that follows it. -/
def append (m n : Match) : Match := ⟨m.text ++ n.text, m.groups ++ n.groups, n.rest⟩

/-- The match with its text as one more group. -/
def capture (m : Match) : Match := { m with groups := m.text :: m.groups }

end Match

/-- The runs of accepted characters at the front of a text. -/
def runs (greedy : Bool) (accepts : Char → Bool) : List Char → List Match
  | [] => [.stop []]
  | c :: rest =>
    let more := if accepts c then (runs greedy accepts rest).map (Match.cons c) else []
    if greedy then more ++ [.stop (c :: rest)] else .stop (c :: rest) :: more

/-- The matches at the front of a text, those a backtracking search prefers first. -/
def ways : Pattern → List Char → List Match
  | one _, [] => []
  | one accepts, c :: rest => if accepts c then [⟨[c], [], rest⟩] else []
  | repeated greedy accepts, s => runs greedy accepts s
  | seq first second, s =>
    (first.ways s).flatMap fun m => (second.ways m.rest).map m.append
  | group inner, s => (inner.ways s).map Match.capture

/-- Two braces of one kind. -/
def braces (brace : Char) : Pattern := seq (one (· = brace)) (one (· = brace))

/-- As many blanks as there are, and fewer if need be. -/
def blanks : Pattern := repeated true Text.isBlank

/-- Every character but a line break. -/
def inLine : Char → Bool := (· ≠ '\n')

/-- `.+?`. -/
def path : Pattern := seq (one inLine) (repeated false inLine)

/-- `\s*\x7d\x7d`. -/
def closing : Pattern := seq blanks (braces '\x7d')

/-- `\x7b\x7b\s*(.+?)\s*\x7d\x7d`. -/
def token : Pattern := seq (braces '\x7b') (seq blanks (seq (group path) closing))

/-! ### The preferred match of a part -/

variable {α : Type}

/-- A search through the ways of two patterns is a search within a search. -/
theorem findSome?_ways_seq (first second : Pattern) (s : List Char) (f : Match → Option α) :
    ((seq first second).ways s).findSome? f =
      (first.ways s).findSome? fun m => (second.ways m.rest).findSome? fun n => f (m.append n) := by
  rw [ways, ← List.head?_filterMap, List.filterMap_flatMap, List.head?_flatMap]
  simp only [List.head?_filterMap, List.findSome?_map]
  rfl

theorem findSome?_ways_one (accepts : Char → Bool) (c : Char) (rest : List Char)
    (f : Match → Option α) :
    ((one accepts).ways (c :: rest)).findSome? f =
      if accepts c then f ⟨[c], [], rest⟩ else none := by
  rw [ways]
  split_ifs with h
  · exact List.findSome?_singleton
  · rfl

/-- A greedy run tries one more character before it stops. -/
theorem findSome?_runs_greedy (accepts : Char → Bool) (c : Char) (rest : List Char)
    (f : Match → Option α) :
    (runs true accepts (c :: rest)).findSome? f =
      if accepts c then
        ((runs true accepts rest).findSome? fun m => f (m.cons c)).or (f (.stop (c :: rest)))
      else f (.stop (c :: rest)) := by
  rw [runs, if_pos rfl, List.findSome?_append, List.findSome?_singleton]
  split_ifs with h
  · rw [List.findSome?_map]
    rfl
  · rfl

/-- A lazy repetition stops at once or goes on by one character. -/
theorem findSome?_runs_lazy (accepts : Char → Bool) (s : List Char) (f : Match → Option α) :
    (runs false accepts s).findSome? f =
      (f (.stop s)).or (((seq (one accepts) (repeated false accepts)).ways s).findSome? f) := by
  rw [findSome?_ways_seq]
  cases s with
  | nil => exact List.findSome?_singleton.trans (Option.or_none).symm
  | cons c rest =>
    rw [findSome?_ways_one, runs, if_neg Bool.false_ne_true, List.findSome?_cons]
    split_ifs with h
    · rw [List.findSome?_map]
      cases f (.stop (c :: rest)) <;> rfl
    · cases f (.stop (c :: rest)) <;> rfl

/-! ### Tokens -/

/-- The text after double braces. -/
def afterBraces (brace : Char) : List Char → Option (List Char)
  | c :: d :: rest => if c = brace ∧ d = brace then some rest else none
  | _ => none

theorem afterBraces_eq_none {brace : Char} {s : List Char}
    (h : ∀ rest, s ≠ brace :: brace :: rest) : afterBraces brace s = none := by
  rcases s with _ | ⟨c, _ | ⟨d, rest⟩⟩
  · rfl
  · rfl
  · rw [afterBraces, if_neg]
    rintro ⟨rfl, rfl⟩
    exact h rest rfl

theorem close?_eq (s : List Char) :
    Template.close? s = afterBraces '\x7d' (s.dropWhile Text.isBlank) := by
  rw [Template.close?]
  split
  · rename_i rest h
    rw [h]
    rfl
  · rename_i h
    exact (afterBraces_eq_none h).symm

/-- The parser looks for two opening braces and leaves the rest to `body?`. -/
theorem token?_eq (s : List Char) :
    Template.token? s = (afterBraces '\x7b' s).bind Template.body? := by
  unfold Template.token?
  split
  · rfl
  · rename_i h
    rw [afterBraces_eq_none h, Option.bind_none]

theorem findSome?_ways_braces (brace : Char) (s : List Char)
    (f : List (List Char) → List Char → Option α) :
    ((braces brace).ways s).findSome? (fun m => f m.groups m.rest) =
      (afterBraces brace s).bind (f []) := by
  rw [braces, findSome?_ways_seq]
  rcases s with _ | ⟨c, _ | ⟨d, rest⟩⟩
  · rfl
  · rw [findSome?_ways_one]
    split_ifs <;> rfl
  · rw [findSome?_ways_one, findSome?_ways_one, afterBraces]
    by_cases hc : c = brace <;> by_cases hd : d = brace <;> simp [hc, hd, Match.append]

theorem findSome?_ways_closing (s : List Char) (f : List (List Char) → List Char → Option α) :
    (closing.ways s).findSome? (fun m => f m.groups m.rest) = (Template.close? s).bind (f []) := by
  have hbraces (t : List Char) (g : List (List Char)) :
      ((braces '\x7d').ways t).findSome? (fun n => f (g ++ n.groups) n.rest) =
        (afterBraces '\x7d' t).bind (f g) := by
    rw [findSome?_ways_braces '\x7d' t fun groups rest => f (g ++ groups) rest, List.append_nil]
  rw [closing, findSome?_ways_seq, close?_eq]
  simp only [Match.append, hbraces]
  induction s with
  | nil => rfl
  | cons c rest ih =>
    rw [blanks, ways] at ih ⊢
    rw [findSome?_runs_greedy, List.dropWhile_cons]
    split_ifs with hc
    · -- a blank is no brace: the braces close behind it or not at all
      have hbrace : c ≠ '\x7d' := by
        rintro rfl
        exact absurd hc (by decide)
      have hstop : afterBraces '\x7d' (c :: rest) = none :=
        afterBraces_eq_none fun _ h => hbrace (List.cons.inj h).1
      rw [Match.stop, hstop, Option.bind_none, Option.or_none]
      exact ih
    · rfl

/-- The lazy group followed by the end is what `path?` looks for: the shortest path wins in both. -/
theorem findSome?_ways_path (s : List Char)
    (f : List Char → List (List Char) → List Char → α) :
    (path.ways s).findSome? (fun m => (Template.close? m.rest).map (f m.text m.groups)) =
      (Template.path? s).map fun (path, after) => f path [] after := by
  induction s generalizing f with
  | nil => rfl
  | cons c rest ih =>
    rw [path, findSome?_ways_seq, findSome?_ways_one, Template.path?]
    by_cases hc : c = '\n'
    · simp [hc, inLine]
    · rw [if_pos (by simpa [inLine] using hc), if_neg hc]
      show (runs false inLine rest).findSome?
        (fun m => (Template.close? m.rest).map (f (c :: m.text) m.groups)) = _
      -- the character goes into `f`, for which the induction leaves `f` open
      rw [findSome?_runs_lazy, ← path, ih fun path => f (c :: path), Match.stop]
      cases Template.close? rest with
      | none => cases Template.path? rest <;> rfl
      | some after => rfl

/-- Greedy blanks before a path are given back one by one, as `body?` does it. -/
theorem findSome?_ways_blanks (s : List Char)
    (f : List (List Char) → List Char × List Char → α) :
    (blanks.ways s).findSome? (fun m => (Template.path? m.rest).map (f m.groups)) =
      (Template.body? s).map (f []) := by
  rw [blanks, ways]
  induction s with
  | nil => rfl
  | cons c rest ih =>
    rw [findSome?_runs_greedy, Template.body?]
    split_ifs with hc
    · show ((runs true Text.isBlank rest).findSome?
        fun m => (Template.path? m.rest).map (f m.groups)).or _ = _
      rw [ih]
      cases Template.body? rest <;> rfl
    · rfl

/-- Everything behind the opening braces is what `body?` looks for. -/
theorem findSome?_ways_body (s : List Char) (groups : List (List Char)) :
    ((seq blanks (seq (group path) closing)).ways s).findSome?
        (fun m => some (groups ++ m.groups, m.rest)) =
      (Template.body? s).map fun found => (groups ++ [found.1], found.2) := by
  -- from the end backwards: the closing braces, the path before them, the blanks before the path
  have hclosing (t : List Char) (g : List (List Char)) :
      (closing.ways t).findSome? (fun m => some (g ++ m.groups, m.rest)) =
        (Template.close? t).map fun after => (g, after) := by
    rw [findSome?_ways_closing t fun groups rest => some (g ++ groups, rest), List.append_nil,
      Option.map_eq_bind]
    rfl
  have hpath (t : List Char) (g : List (List Char)) :
      ((seq (group path) closing).ways t).findSome? (fun m => some (g ++ m.groups, m.rest)) =
        (Template.path? t).map fun found => (g ++ [found.1], found.2) := by
    rw [findSome?_ways_seq, ways, List.findSome?_map]
    simp only [Match.append, ← List.append_assoc, hclosing]
    exact findSome?_ways_path t fun path groups after => (g ++ path :: groups, after)
  have hblanks := findSome?_ways_blanks s fun before found =>
    (groups ++ before ++ [found.1], found.2)
  rw [List.append_nil] at hblanks
  rw [findSome?_ways_seq, ← hblanks]
  simp only [Match.append, ← List.append_assoc, hpath]

/-- A token is the match that the search for the pattern prefers. -/
theorem head?_ways_token (s : List Char) :
    (token.ways s).head?.map (fun m => (m.groups, m.rest)) =
      (Template.token? s).map fun found => ([found.1], found.2) := by
  have hhead (l : List Match) : l.head?.map (fun m => (m.groups, m.rest)) =
      l.findSome? fun m => some (m.groups, m.rest) := by
    cases l <;> rfl
  have hbraces := findSome?_ways_braces '\x7b' s fun groups rest =>
    (Template.body? rest).map fun found => (groups ++ [found.1], found.2)
  rw [hhead, token, findSome?_ways_seq, token?_eq, Option.map_bind]
  simp only [Match.append, findSome?_ways_body]
  exact hbraces

end Pattern

end ServerUi
