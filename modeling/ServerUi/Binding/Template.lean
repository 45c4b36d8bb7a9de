import ServerUi.Document.Path
import ServerUi.Json.Printer
import ServerUi.Text.Blank

/-!
# ServerUi.Binding.Template — text with bindings

A binding is a path between double braces.  `Template.ofString` cuts a text into literals and
bindings, scanning from the left:

* a token starts where `\x7b\x7b` stands; blanks after it are skipped as far as they go;
* its path is the shortest text without a line break, of one character at least, that is followed
  by optional blanks and `\x7d\x7d`;
* when the skipped blanks leave no such text, some are given back: the path then starts at a blank
  further left.

`Template.fill` puts the bound values in; a path that leads nowhere gives nothing.
-/

namespace ServerUi

/-- A piece of text: as it stands, or bound to a path. -/
inductive Segment where
  | literal (text : String)
  | binding (path : String)
  deriving DecidableEq, Repr

abbrev Template := List Segment

namespace Template

/-- The text after optional blanks and the closing braces, if they come next. -/
def close? (cs : List Char) : Option (List Char) :=
  match cs.dropWhile Text.isBlank with
  | '\x7d' :: '\x7d' :: rest => some rest
  | _ => none

/-- The shortest path at the front of a text, of one character at least, and what follows its
closing braces. -/
def path? : List Char → Option (List Char × List Char)
  | [] => none
  | c :: rest =>
    if c = '\n' then none
    else match close? rest with
      | some after => some ([c], after)
      | none => (path? rest).map fun (path, after) => (c :: path, after)

/-- Try to start the path after all blanks, then after all but the last, and so on. -/
def body? : List Char → Option (List Char × List Char)
  | [] => none
  | c :: rest =>
    if Text.isBlank c then
      match body? rest with
      | some found => some found
      | none => path? (c :: rest)
    else path? (c :: rest)

/-- The token at the front of a text, and what follows it. -/
def token? : List Char → Option (List Char × List Char)
  | '\x7b' :: '\x7b' :: rest => body? rest
  | _ => none

/-- Put a character in front, into the first literal if the segments start with one. -/
def prepend (c : Char) : Template → Template
  | .literal text :: rest => .literal (String.ofList (c :: text.toList)) :: rest
  | segments => .literal (String.ofList [c]) :: segments

/-- The segments of a text without its first `skip` characters, which belong to a token. -/
def scan : Nat → List Char → Template
  | _, [] => []
  | skip + 1, _ :: rest => scan skip rest
  | 0, c :: rest =>
    match token? (c :: rest) with
    | some (path, after) =>
      .binding (String.ofList path) :: scan (rest.length - after.length) rest
    | none => prepend c (scan 0 rest)

/-- Whether double braces open anywhere in a text. -/
def hasOpening : List Char → Bool
  | [] => false
  | '\x7b' :: '\x7b' :: _ => true
  | _ :: rest => hasOpening rest

/-- A text without bindings. -/
def plain (text : String) : Template := if text = "" then [] else [.literal text]

/-- The segments of a text.  One without opening braces need not be scanned. -/
def ofString (source : String) : Template :=
  if hasOpening source.toList then scan 0 source.toList else plain source

/-- The path of a template that is one binding and nothing else. -/
def soleBinding? : Template → Option String
  | [.binding path] => some path
  | _ => none

end Template

/-- The text of a value inside other text: strings as they are, whole doubles below `10²¹` without
a fraction, everything else as JSON. -/
def Value.display : Value → String
  | .str s => s
  | .num (.float x) =>
    if x.isZero then "0"
    else if x.isIntegral && x.wholePart < Nat.pow 10 21 then
      x.signed (Nat.toDigits 10 x.wholePart)
    else x.text
  | v => v.compact

namespace Segment

def path? : Segment → Option String
  | .literal _ => none
  | .binding path => some path

/-- The text a segment stands for in a document. -/
def fill (document : Value) : Segment → String
  | .literal text => text
  | .binding path => ((document.get? path).map Value.display).getD ""

end Segment

namespace Template

/-- The paths of the bindings, from left to right. -/
def paths (t : Template) : List String := t.filterMap Segment.path?

/-- Whether the text has a binding at all. -/
def isBound (t : Template) : Bool := !t.paths.isEmpty

/-- The text with every binding replaced by its value. -/
def fill (t : Template) (document : Value) : String :=
  String.join (t.map (Segment.fill document))

def fillString (source : String) (document : Value) : String := (ofString source).fill document

end Template

end ServerUi
