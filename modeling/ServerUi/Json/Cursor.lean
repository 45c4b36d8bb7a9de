import ServerUi.Json.Fault

/-!
# ServerUi.Json.Cursor — a place in a text

A cursor holds the text still to be read and the position reached.  Columns count bytes of the
UTF-8 form, so a character moves the column by its size and a line break starts a new line at
column zero.

A reader moves the cursor.  When it fails, the cursor stays where reading stopped: a mismatch gets
its position from there.
-/

namespace ServerUi

namespace Json

/-- What is left of a text, and the position reached. -/
structure Cursor where
  rest : List Char
  line : Nat
  column : Nat
  deriving Repr, Inhabited

namespace Cursor

def ofString (text : String) : Cursor := ⟨text.toList, 1, 0⟩

def position (c : Cursor) : Position := ⟨c.line, c.column⟩

/-- The position one byte further on. -/
def ahead (c : Cursor) : Position :=
  match c.rest with
  | [] => c.position
  | '\n' :: _ => ⟨c.line + 1, 0⟩
  | _ :: _ => ⟨c.line, c.column + 1⟩

/-- Past the next character. -/
def advance (c : Cursor) : Cursor :=
  match c.rest with
  | [] => c
  | '\n' :: rest => ⟨rest, c.line + 1, 0⟩
  | x :: rest => ⟨rest, c.line, c.column + x.utf8Size⟩

def advanceBy : Nat → Cursor → Cursor
  | 0, c => c
  | n + 1, c => advanceBy n c.advance

/-- The end of the text. -/
def toEnd (c : Cursor) : Cursor := c.advanceBy c.rest.length

end Cursor

/-- A failure: its cause and, unless it is still to be placed, its position. -/
structure Failure (ε : Type) where
  cause : ε
  position : Option Position
  deriving Repr

/-- What can go wrong: the text is flawed, or it holds a value of another shape. -/
inductive Flaw (μ : Type) where
  | text (fault : SyntaxFault)
  | shape (mismatch : μ)
  deriving DecidableEq, Repr

def Flaw.map {μ ν : Type} (f : μ → ν) : Flaw μ → Flaw ν
  | text fault => text fault
  | shape mismatch => shape (f mismatch)

/-- Something that moves a cursor, and gives a value or fails. -/
abbrev Reader (μ α : Type) := EStateM (Failure (Flaw μ)) Cursor α

namespace Reader

variable {μ α : Type}

def peek? : Reader μ (Option Char) := do return (← get).rest.head?

def advance : Reader μ Unit := modify Cursor.advance

/-- Fail at the position reached. -/
def failHere (fault : SyntaxFault) : Reader μ α := do
  throw ⟨.text fault, some (← get).position⟩

/-- Fail at the character ahead. -/
def failAhead (fault : SyntaxFault) : Reader μ α := do
  throw ⟨.text fault, some (← get).ahead⟩

/-- Fail for the shape of what was read; the position is given later. -/
def mismatch (m : μ) : Reader μ α := throw ⟨.shape m, none⟩

/-- Give a failure without a position the one reached. -/
def placed (read : Reader μ α) : Reader μ α := fun c =>
  match read c with
  | .ok a c' => .ok a c'
  | .error e c' => .error { e with position := some (e.position.getD c'.position) } c'

/-- Run `close` after `read`, whether it failed or not; the first failure counts. -/
def closedBy (read : Reader μ α) (close : Reader μ Unit) : Reader μ α := fun c =>
  match read c with
  | .ok a c' =>
    match close c' with
    | .ok _ c'' => .ok a c''
    | .error e c'' => .error e c''
  | .error e c' =>
    match close c' with
    | .ok _ c'' => .error e c''
    | .error _ c'' => .error e c''

end Reader

end Json

end ServerUi
