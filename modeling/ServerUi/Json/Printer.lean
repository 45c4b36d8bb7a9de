import ServerUi.Json.Value

/-!
# ServerUi.Json.Printer — JSON text

`compact` writes a value without blanks.  `pretty` breaks lines after every item and member and
indents by two blanks a level; an empty array or object stays on one line.
-/

namespace ServerUi

namespace Json

/-- A hexadecimal digit, lower case. -/
def hexDigit (n : Nat) : Char := (Nat.toDigits 16 (n % 16)).headD '0'

/-- A character inside a quoted string: quotes, backslashes and control characters are escaped. -/
def escapeChar (c : Char) : List Char :=
  if c = '"' then ['\\', '"']
  else if c = '\\' then ['\\', '\\']
  else if c = '\n' then ['\\', 'n']
  else if c = '\r' then ['\\', 'r']
  else if c = '\t' then ['\\', 't']
  else if c.toNat = 8 then ['\\', 'b']
  else if c.toNat = 12 then ['\\', 'f']
  else if c.toNat < 32 then ['\\', 'u', '0', '0', hexDigit (c.toNat / 16), hexDigit c.toNat]
  else [c]

/-- A string between quotes. -/
def quote (s : String) : String :=
  String.ofList ('"' :: s.toList.flatMap escapeChar ++ ['"'])

end Json

namespace Value

open Json (quote)

mutual

/-- JSON without blanks. -/
def compact : Value → String
  | .null => "null"
  | .bool true => "true"
  | .bool false => "false"
  | .num n => n.text
  | .str s => quote s
  | .arr [] => "[]"
  | .arr (v :: rest) => "[" ++ v.compact ++ compactItems rest ++ "]"
  | .obj [] => "\x7b\x7d"
  | .obj ((k, v) :: rest) =>
    "\x7b" ++ quote k ++ ":" ++ v.compact ++ compactMembers rest ++ "\x7d"

/-- Further items, each after a comma. -/
def compactItems : List Value → String
  | [] => ""
  | v :: rest => "," ++ v.compact ++ compactItems rest

/-- Further members, each after a comma. -/
def compactMembers : Members → String
  | [] => ""
  | (k, v) :: rest => "," ++ quote k ++ ":" ++ v.compact ++ compactMembers rest

end

/-- A line break and the indentation of a level. -/
def breakLine (level : Nat) : String := "\n" ++ String.ofList (List.replicate (2 * level) ' ')

mutual

/-- Indented text at a level of nesting. -/
def indented (level : Nat) : Value → String
  | .arr (v :: rest) =>
    "[" ++ breakLine (level + 1) ++ v.indented (level + 1) ++ indentedItems (level + 1) rest ++
      breakLine level ++ "]"
  | .obj ((k, v) :: rest) =>
    "\x7b" ++ breakLine (level + 1) ++ quote k ++ ": " ++ v.indented (level + 1) ++
      indentedMembers (level + 1) rest ++ breakLine level ++ "\x7d"
  | .arr [] => "[]"
  | .obj [] => "\x7b\x7d"
  | .str s => quote s
  | .num n => n.text
  | .bool b => if b then "true" else "false"
  | .null => "null"

def indentedItems (level : Nat) : List Value → String
  | [] => ""
  | v :: rest => "," ++ breakLine level ++ v.indented level ++ indentedItems level rest

def indentedMembers (level : Nat) : Members → String
  | [] => ""
  | (k, v) :: rest =>
    "," ++ breakLine level ++ quote k ++ ": " ++ v.indented level ++ indentedMembers level rest

end

/-- JSON on indented lines. -/
def pretty (v : Value) : String := v.indented 0

end Value

end ServerUi
