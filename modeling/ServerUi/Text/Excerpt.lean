/-!
# ServerUi.Text.Excerpt — the lines around a flaw

An excerpt shows a numbered line of a text between its neighbours and, below it, a caret under the
column of a flaw.
-/

namespace ServerUi

namespace Text

/-- The lines of a text; a line break at the end starts no further line, and a carriage return
before a line break belongs to the break. -/
def lines : List Char → List (List Char)
  | [] => []
  | '\n' :: rest => [] :: lines rest
  | ['\r'] => [['\r']]
  | '\r' :: '\n' :: rest => [] :: lines rest
  | c :: rest =>
    match rest, lines rest with
    | [], _ => [[c]]
    | _, [] => [[c]]
    | _, line :: more => (c :: line) :: more

end Text

/-- A number in at least four places, blanks before it. -/
def lineNumber (n : Nat) : String :=
  let digits := Nat.toDigits 10 n
  String.ofList (List.replicate (4 - digits.length) ' ' ++ digits)

/-- The margin before a line of an excerpt. -/
def margin (n : Nat) : String := " " ++ lineNumber n ++ " | "

/-- The line below line `n` that points to a column. -/
def caretLine (n column : Nat) : String :=
  String.ofList (List.replicate ((margin n).length + (column - 1)) ' ') ++ "^\n"

/-- The lines of `source` from two before `line` to one after it, as far as they exist, with the
caret line below `line`. -/
def excerpt (source : String) (line column : Nat) : String :=
  let lines := Text.lines source.toList
  let first := max 1 (line - 2)
  let last := min lines.length (line + 1)
  String.join <| (List.range' first (last + 1 - first)).map fun n =>
    let text := String.ofList (lines.getD (n - 1) [])
    margin n ++ text ++ "\n" ++ if n = line then caretLine n column else ""

end ServerUi
