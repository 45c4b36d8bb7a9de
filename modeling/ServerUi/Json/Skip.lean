import ServerUi.Json.Reader

/-!
# ServerUi.Json.Skip — passing over a value

A member that nobody asked for is passed over without being built.  The check is looser than
reading: any depth is allowed, escapes only need their form, numbers have no range.
-/

namespace ServerUi

namespace Json

/-- A container that is still open. -/
inductive Frame where
  | list
  | object
  deriving DecidableEq, Repr

namespace Reader

variable {μ : Type}

/-- The rest of a number from its exponent's `e` on. -/
def skipExponent : Reader μ Unit := do
  advance
  match ← peek? with
  | some '+' | some '-' => advance
  | _ => pure ()
  match ← peek? with
  | none => failHere .invalidNumber
  | some c =>
    if c.isDigit then
      let _ ← skipDigits
    else failAhead .invalidNumber

def skipExponent? : Reader μ Unit := do
  match ← peek? with
  | some 'e' | some 'E' => skipExponent
  | _ => pure ()

/-- A number after its sign. -/
def skipNumber : Reader μ Unit := do
  match ← peek? with
  | none => failHere .invalidNumber
  | some c =>
    if c = '0' then
      advance
      match ← peek? with
      | some d => if d.isDigit then failAhead .invalidNumber else pure ()
      | none => pure ()
    else if c.isDigit then
      let _ ← skipDigits
    else failAhead .invalidNumber
  match ← peek? with
  | some '.' => do
    advance
    if (← skipDigits) = 0 then failAhead .invalidNumber else skipExponent?
  | _ => skipExponent?

/-- The rest of an escape; only its form is checked. -/
def skipEscape : Reader μ Unit := do
  match ← peek? with
  | none => failHere .eofInString
  | some c =>
    if c ∈ ['"', '\\', '/', 'b', 'f', 'n', 'r', 't'] then advance
    else if c = 'u' then do
      advance
      let _ ← hexUnit
    else failAhead .invalidEscape

/-- The rest of a string. -/
def skipCharacters : Nat → Reader μ Unit
  | 0 => failHere .eofInString
  | fuel + 1 => do
    match ← peek? with
    | none => failHere .eofInString
    | some '"' => advance
    | some '\\' => do advance; skipEscape; skipCharacters fuel
    | some c => if c.toNat < 32 then failHere .controlCharacter else do advance; skipCharacters fuel

def skipString : Reader μ Unit := do skipCharacters ((← get).rest.length + 1)

def eofIn : Frame → SyntaxFault
  | .list => .eofInList
  | .object => .eofInObject

def commaOrEndOf : Frame → SyntaxFault
  | .list => .expectedListCommaOrEnd
  | .object => .expectedObjectCommaOrEnd

/-- The key of a member and its colon. -/
def skipKey : Reader μ Unit := do
  match ← next? with
  | some '"' => advance
  | some _ => failAhead .keyMustBeString
  | none => failAhead .eofInObject
  skipString
  colon

mutual

/-- Pass over a value inside the open containers, innermost first, and then over the rest of
them. -/
def skipWithin : Nat → List Frame → Reader μ Unit
  | 0, _ => failAhead .eofInValue
  | fuel + 1, frames => do
    match ← next? with
    | none => failAhead .eofInValue
    | some 'n' => do advance; word "ull".toList; skipRest fuel true frames
    | some 't' => do advance; word "rue".toList; skipRest fuel true frames
    | some 'f' => do advance; word "alse".toList; skipRest fuel true frames
    | some '-' => do advance; skipNumber; skipRest fuel true frames
    | some '"' => do advance; skipString; skipRest fuel true frames
    | some '[' => do advance; skipRest fuel false (.list :: frames)
    | some '\x7b' => do advance; skipRest fuel false (.object :: frames)
    | some c =>
      if c.isDigit then do skipNumber; skipRest fuel true frames
      else failAhead .expectedValue

/-- After a value, or after an opening bracket when `afterValue` is false. -/
def skipRest : Nat → Bool → List Frame → Reader μ Unit
  | 0, _, _ => failAhead .eofInValue
  | _ + 1, _, [] => pure ()
  | fuel + 1, afterValue, frame :: frames => do
    let another : Reader μ Unit := do
      if frame = .object then skipKey
      skipWithin fuel (frame :: frames)
    match ← next? with
    | none => failAhead (eofIn frame)
    | some c =>
      if c = ',' ∧ afterValue then do
        advance
        another
      else if (c = ']' ∧ frame = .list) ∨ (c = '\x7d' ∧ frame = .object) then do
        advance
        skipRest fuel true frames
      else if afterValue then failAhead (commaOrEndOf frame)
      else another

end

/-- Pass over one value. -/
def skip : Reader μ Unit := do skipWithin (4 * (← get).rest.length + 4) []

end Reader

end Json

end ServerUi
