import ServerUi.Json.Cursor

/-!
# ServerUi.Json.Reader — reading JSON text

`Json.read` turns a text into a value.  Nesting is limited to 127 levels.

Numbers are read in two steps: the digits give a significand of at most 64 bits and a power of ten,
and the power is then multiplied or divided out with one rounding, so the last bit of a long literal
may differ from the nearest double.  An integer literal that fits 64 bits stays an integer; `-0` is
a double.

The reader stands for a library: what it accepts, the words of its faults and the places where it
reports them are modelled after the documentation of that library.
-/

namespace ServerUi

namespace Json

/-- The blanks between tokens. -/
def isGap (c : Char) : Bool := c = ' ' || c = '\n' || c = '\t' || c = '\r'

namespace Reader

variable {μ : Type}

/-- Skip blanks and look at the next character. -/
def next? : Reader μ (Option Char) := do
  modify fun c => c.advanceBy (c.rest.takeWhile isGap).length
  peek?

/-- The remaining letters of a literal word. -/
def word : List Char → Reader μ Unit
  | [] => pure ()
  | x :: rest => do
    match ← peek? with
    | none => failHere .eofInValue
    | some y => if x = y then do advance; word rest else failAhead .expectedWord

/-! ### Numbers -/

/-- The digits at the front of a text that keep the significand within 64 bits, read into it, and
how many they are. -/
def significand : List Char → Nat → Nat → Nat × Nat
  | c :: rest, n, count =>
    let next := n * 10 + (c.toNat - '0'.toNat)
    if c.isDigit ∧ next < Nat.pow 2 64 then significand rest next (count + 1) else (n, count)
  | [], n, count => (n, count)

/-- Read digits into a significand and count them. -/
def readSignificand (n : Nat) : Reader μ (Nat × Nat) := do
  let (n, count) := significand (← get).rest n 0
  modify (Cursor.advanceBy count)
  return (n, count)

/-- Skip digits and count them. -/
def skipDigits : Reader μ Nat := do
  let count := ((← get).rest.takeWhile Char.isDigit).length
  modify (Cursor.advanceBy count)
  return count

/-- The double nearest to a power of ten. -/
def powerOfTen (e : Nat) : Rounded := Rounded.round (Nat.pow 10 e) 1

/-- Divide by a power of ten, at most 308 places at a time. -/
def shiftDown (x : Rounded) (e : Nat) : Rounded :=
  if e ≤ 308 then x.div (powerOfTen e)
  else if x.isZero then x
  else shiftDown (x.div (powerOfTen 308)) (e - 308)
termination_by e

/-- A double with its sign, unless it is out of range. -/
def finite (positive : Bool) (x : Rounded) : Reader μ Number :=
  match (if positive then x else x.neg).finite? with
  | some y => return .float y
  | none => failHere .numberOutOfRange

/-- The double `± n · 10 ^ e`. -/
def float (positive : Bool) (n : Nat) (e : Int) : Reader μ Number := do
  let x := Rounded.ofNat n
  let scaled ← if 0 ≤ e then
      if e ≤ 308 then pure (x.mul (powerOfTen e.toNat))
      else if n = 0 then pure x else failHere .numberOutOfRange
    else pure (shiftDown x (-e).toNat)
  finite positive scaled

/-- The digits of an exponent as long as they fit 31 bits, and how many they are. -/
def exponentDigits : List Char → Nat → Nat → Nat × Nat
  | c :: rest, n, count =>
    let next := n * 10 + (c.toNat - '0'.toNat)
    if c.isDigit ∧ next < Nat.pow 2 31 then exponentDigits rest next (count + 1) else (n, count)
  | [], n, count => (n, count)

/-- From the `e` on.  An exponent past 31 bits makes zero, or fails. -/
def withExponent (positive : Bool) (n : Nat) (e : Int) : Reader μ Number := do
  advance
  let up ← match ← peek? with
    | some '+' => do advance; pure true
    | some '-' => do advance; pure false
    | _ => pure true
  match ← peek? with
  | none => failHere .eofInValue
  | some c => if c.isDigit then pure () else failAhead .invalidNumber
  let (k, count) := exponentDigits (← get).rest 0 0
  modify (Cursor.advanceBy count)
  match ← peek? with
  | some c =>
    if c.isDigit then do
      if n ≠ 0 ∧ up then failAhead .numberOutOfRange
      else
        let _ ← skipDigits
        return .float (Binary64.zero !positive)
    else float positive n (if up then e + k else e - k)
  | none => float positive n (if up then e + k else e - k)

/-- After the last digit: an exponent may follow. -/
def afterDigits (positive : Bool) (n : Nat) (e : Int) : Reader μ Number := do
  match ← peek? with
  | some 'e' | some 'E' => withExponent positive n e
  | _ => float positive n e

/-- From the decimal point on.  Digits past the 64 bits of the significand are dropped. -/
def withFraction (positive : Bool) (n : Nat) (e : Int) : Reader μ Number := do
  advance
  let (m, count) ← readSignificand n
  let dropped ← skipDigits
  if count + dropped = 0 then
    match ← peek? with
    | some _ => failAhead .invalidNumber
    | none => failHere .eofInValue
  else afterDigits positive m (e - count)

/-- An integer literal: exact within 64 bits, negative ones within 63. -/
def whole (positive : Bool) (n : Nat) : Reader μ Number :=
  if positive then return .int n
  else if 0 < n ∧ n ≤ Nat.pow 2 63 then return .int (-(n : Int))
  else finite false (Rounded.ofNat n)

/-- A number after its sign. -/
def number (positive : Bool) : Reader μ Number := do
  match ← peek? with
  | none => failHere .eofInValue
  | some c =>
    if c = '0' then
      advance
      match ← peek? with
      | some '.' => withFraction positive 0 0
      | some 'e' | some 'E' => withExponent positive 0 0
      | some d => if d.isDigit then failAhead .invalidNumber else whole positive 0
      | none => whole positive 0
    else if c.isDigit then
      let (n, _) ← readSignificand 0
      let dropped ← skipDigits
      match ← peek? with
      | some '.' => withFraction positive n dropped
      | some 'e' | some 'E' => withExponent positive n dropped
      | _ => if dropped = 0 then whole positive n else float positive n dropped
    else failAhead .invalidNumber

/-! ### Strings -/

def hexValue? (c : Char) : Option Nat :=
  if c.isDigit then some (c.toNat - '0'.toNat)
  else if 'a' ≤ c ∧ c ≤ 'f' then some (c.toNat - 'a'.toNat + 10)
  else if 'A' ≤ c ∧ c ≤ 'F' then some (c.toNat - 'A'.toNat + 10)
  else none

def hexDigits : Nat → Nat → Reader μ Nat
  | 0, n => pure n
  | count + 1, n => do
    match (← peek?).bind hexValue? with
    | some d => advance; hexDigits count (16 * n + d)
    | none => failAhead .invalidEscape

/-- Four hexadecimal digits; the text has to go on for four bytes. -/
def hexUnit : Reader μ Nat := do
  let bytes := ((← get).rest.take 4).foldl (fun n c => n + c.utf8Size) 0
  if bytes < 4 then
    modify Cursor.toEnd
    failHere .eofInString
  else hexDigits 4 0

/-- One character of the escape of a low surrogate. -/
def surrogateMark (x : Char) : Reader μ Unit := do
  match ← peek? with
  | none => failHere .eofInString
  | some y => if x = y then advance else failAhead .unfinishedSurrogate

/-- The character of a `\u` escape.  A high surrogate has to be followed by a low one. -/
def unicodeEscape : Reader μ Char := do
  let high ← hexUnit
  if 0xdc00 ≤ high ∧ high ≤ 0xdfff then failHere .loneSurrogate
  else if 0xd800 ≤ high ∧ high ≤ 0xdbff then
    surrogateMark '\\'
    surrogateMark 'u'
    let low ← hexUnit
    if low < 0xdc00 ∨ 0xdfff < low then failHere .loneSurrogate
    else return Char.ofNat ((high - 0xd800) * 0x400 + (low - 0xdc00) + 0x10000)
  else return Char.ofNat high

/-- The character written by an escape, after the backslash. -/
def escape : Reader μ Char := do
  match ← peek? with
  | none => failHere .eofInString
  | some c =>
    match c with
    | '"' | '\\' | '/' => advance; return c
    | 'b' => advance; return Char.ofNat 8
    | 'f' => advance; return Char.ofNat 12
    | 'n' => advance; return '\n'
    | 'r' => advance; return '\r'
    | 't' => advance; return '\t'
    | 'u' => advance; unicodeEscape
    | _ => failAhead .invalidEscape

/-- The characters of a string up to its closing quote, which is read too. -/
def characters : Nat → List Char → Reader μ String
  | 0, _ => failHere .eofInString
  | fuel + 1, read => do
    match ← peek? with
    | none => failHere .eofInString
    | some '"' => advance; return String.ofList read.reverse
    | some '\\' => do
      advance
      let c ← escape
      characters fuel (c :: read)
    | some c =>
      if c.toNat < 32 then failAhead .controlCharacter
      else
        advance
        characters fuel (c :: read)

/-- A string after its opening quote. -/
def string : Reader μ String := do characters ((← get).rest.length + 1) []

/-! ### Values -/

/-- How many containers may be open at once, the outermost one included. -/
def depthLimit : Nat := 128

/-- Look for the next item of a list: whether there is one. -/
def nextItem (first : Bool) : Reader μ Bool := do
  match ← next? with
  | some ']' => return false
  | some c =>
    if first then return true
    else if c = ',' then
      advance
      match ← next? with
      | some ']' => failAhead .trailingComma
      | some _ => return true
      | none => failAhead .eofInValue
    else failAhead .expectedListCommaOrEnd
  | none => failAhead .eofInList

/-- Look for the next key of an object and read its opening quote: whether there is one. -/
def nextKey (first : Bool) : Reader μ Bool := do
  match ← next? with
  | some '\x7d' => return false
  | some c =>
    if !first && c ≠ ',' then failAhead .expectedObjectCommaOrEnd
    else
      let c? ← if first then pure (some c) else do advance; next?
      match c? with
      | some '"' => advance; return true
      | some '\x7d' => failAhead .trailingComma
      | some _ => failAhead .keyMustBeString
      | none => failAhead .eofInValue
  | none => failAhead .eofInObject

def colon : Reader μ Unit := do
  match ← next? with
  | some ':' => advance
  | some _ => failAhead .expectedColon
  | none => failAhead .eofInObject

/-- The bracket that closes a list. -/
def endList : Reader μ Unit := do
  match ← next? with
  | some ']' => advance
  | some ',' => do
    advance
    match ← next? with
    | some ']' => failAhead .trailingComma
    | _ => failAhead .trailingCharacters
  | some _ => failAhead .trailingCharacters
  | none => failAhead .eofInList

/-- The brace that closes an object. -/
def endObject : Reader μ Unit := do
  match ← next? with
  | some '\x7d' => advance
  | some ',' => failAhead .trailingComma
  | some _ => failAhead .trailingCharacters
  | none => failAhead .eofInObject

mutual

/-- A value, the members of its objects in the order of the text.  `depth` containers may still be
opened, less one; every step takes one of the `fuel`. -/
def value : Nat → Nat → Reader μ Value
  | 0, _ => failAhead .eofInValue
  | fuel + 1, depth => do
    match ← next? with
    | none => failAhead .eofInValue
    | some 'n' => advance; word "ull".toList; return .null
    | some 't' => advance; word "rue".toList; return .bool true
    | some 'f' => advance; word "alse".toList; return .bool false
    | some '-' => advance; return .num (← number false)
    | some '"' => advance; return .str (← string)
    | some '[' =>
      if depth ≤ 1 then failAhead .nestedTooDeeply
      else
        advance
        let items ← items fuel (depth - 1) true
        endList
        return .arr items
    | some '\x7b' =>
      if depth ≤ 1 then failAhead .nestedTooDeeply
      else
        advance
        let members ← members fuel (depth - 1) true
        endObject
        return .obj members
    | some c =>
      if c.isDigit then return .num (← number true) else failAhead .expectedValue

/-- The items of a list up to its bracket. -/
def items : Nat → Nat → Bool → Reader μ (List Value)
  | 0, _, _ => failAhead .eofInList
  | fuel + 1, depth, first => do
    if ← nextItem first then
      let v ← value fuel depth
      return v :: (← items fuel depth false)
    else return []

/-- The members of an object up to its brace. -/
def members : Nat → Nat → Bool → Reader μ Members
  | 0, _, _ => failAhead .eofInObject
  | fuel + 1, depth, first => do
    if ← nextKey first then
      let key ← string
      colon
      let v ← value fuel depth
      return (key, v) :: (← members fuel depth false)
    else return []

end

/-- A value as written, at a depth of nesting. -/
def written (depth : Nat) : Reader μ Value := do
  value (2 * (← get).rest.length + 2) depth

/-- A value with its members in key order. -/
def ordered (depth : Nat) : Reader μ Value := do return (← written depth).normalize

/-- Only blanks may follow. -/
def endOfText : Reader μ Unit := do
  match ← next? with
  | none => return ()
  | some _ => failAhead .trailingCharacters

end Reader

/-- A flaw of a text and its position. -/
structure SyntaxError where
  fault : SyntaxFault
  position : Position
  deriving DecidableEq, Repr

def SyntaxError.message (e : SyntaxError) : String := e.fault.message

/-- The message with its place. -/
def Position.describe (p : Position) (message : String) : String :=
  message ++ " at line " ++ toString p.line ++ " column " ++ toString p.column

/-- Read a text that holds one value. -/
def read (text : String) : Except SyntaxError Value :=
  let reader : Reader Empty Value := do
    let v ← Reader.ordered Reader.depthLimit
    Reader.endOfText
    return v
  match reader (Cursor.ofString text) with
  | .ok v _ => .ok v
  | .error ⟨.text fault, position⟩ c => .error ⟨fault, position.getD c.position⟩

end Json

end ServerUi
