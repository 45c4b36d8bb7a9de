import ServerUi.Text.Printable

/-!
# ServerUi.Text.Quoted — text in double quotes

Messages quote foreign text so that it can be read on one line: quotes, backslashes and line
controls are escaped, characters without a shape of their own are written by number.
-/

namespace ServerUi

namespace Text

/-- A character between quotes, by name or by number if it cannot be shown. -/
def quotedChar (c : Char) : List Char :=
  if c = '"' then ['\\', '"']
  else if c = '\\' then ['\\', '\\']
  else if c = '\n' then ['\\', 'n']
  else if c = '\r' then ['\\', 'r']
  else if c = '\t' then ['\\', 't']
  else if c.toNat = 0 then ['\\', '0']
  else if isShapeless c then ['\\', 'u', '\x7b'] ++ Nat.toDigits 16 c.toNat ++ ['\x7d']
  else [c]

def quoted (s : String) : String :=
  String.ofList ('"' :: s.toList.flatMap quotedChar ++ ['"'])

end Text

end ServerUi
