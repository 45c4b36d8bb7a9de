import ServerUi.View.Basic
import ServerUi.Json.Printer

/-!
# ServerUi.View.Html — views as HTML text

Text and attribute values are escaped.  Attributes whose name would need escaping are left out, and
so are values without an attribute form.  A handler becomes a `data-sdui-on-…` attribute that holds
its action as JSON, so that a script can wire it again.
-/

namespace ServerUi

namespace Html

/-- Host tags that HTML closes themselves. -/
def selfClosedTags : List String :=
  ["area", "base", "br", "col", "embed", "hr", "img", "input", "link", "meta", "source", "track",
    "wbr"]

/-- Every occurrence of a character replaced by a text. -/
def replace (c : Char) (text : String) (s : String) : String :=
  String.ofList (s.toList.flatMap fun x => if x = c then text.toList else [x])

/-- Text for element content and quoted attribute values.  The ampersand goes first, since the
other replacements bring ampersands of their own. -/
def escape (s : String) : String :=
  replace '\'' "&#39;" <| replace '"' "&quot;" <| replace '>' "&gt;" <| replace '<' "&lt;" <|
    replace '&' "&amp;" s

def isNameChar (c : Char) : Bool :=
  c.isAlphanum || c = '-' || c = '_' || c = ':' || c = '.'

/-- Whether an attribute can have the name. -/
def isPlainName (name : String) : Bool := !name.toList.isEmpty && name.toList.all isNameChar

/-- The name of an attribute in HTML. -/
def htmlName (name : String) : String :=
  if name = "className" then "class" else if name = "htmlFor" then "for" else name

/-- An attribute after a blank, or nothing. -/
def attr (name : String) (value : Value) : String :=
  let name := htmlName name
  if isPlainName name then
    match value with
    | .bool true => " " ++ name
    | .str s => " " ++ name ++ "=\"" ++ escape s ++ "\""
    | .num n => " " ++ name ++ "=\"" ++ n.text ++ "\""
    | _ => ""
  else ""

/-- The attribute of a handler. -/
def handler (h : Handler) : String :=
  " data-sdui-on-" ++ h.event.spelling ++ "=\"" ++ escape h.action.toValue.compact ++ "\""

def placeholder (p : Placeholder) : String :=
  "<div class=\"sdui-error\" role=\"alert\">" ++ escape p.message ++ "</div>"

/-- A start tag up to its closing bracket. -/
def startTag (e : Element) : String :=
  "<" ++ e.tag ++ String.join (e.attrs.map fun (name, v) => attr name v) ++
    String.join (e.handlers.map handler)

/-- Whether the element is written as one tag that closes itself. -/
def isSelfClosed (void : Bool) (tag : String) : Bool := void && selfClosedTags.contains tag

mutual

/-- The HTML of a view. -/
def view : View → String
  | .empty => ""
  | .text t => escape t
  | .element e => element e
  | .fragment children => views children
  | .placeholder p => placeholder p

/-- The HTML of an element.  A void one is written without children, whether or not HTML closes its
tag itself. -/
def element : Element → String
  | ⟨component, tag, key, attrs, handlers, children, void⟩ =>
    startTag ⟨component, tag, key, attrs, handlers, children, void⟩ ++
      if isSelfClosed void tag then " />"
      else ">" ++ (if void then "" else views children) ++ "</" ++ tag ++ ">"

def views : List View → String
  | [] => ""
  | v :: rest => view v ++ views rest

end

/-! ### Pages -/

/-- A metadata line of a page, if there is something to say. -/
def metaLine (name : String) : Option String → String
  | none => ""
  | some content => "<meta name=\"" ++ name ++ "\" content=\"" ++ escape content ++ "\" />\n"

def titleLine : Option String → String
  | none => ""
  | some title => "<title>" ++ escape title ++ "</title>\n"

/-- A complete document with the title and metadata of the page. -/
def document (v : View) (p : Page) : String :=
  "<!DOCTYPE html>\n<html>\n<head>\n<meta charset=\"utf-8\" />\n" ++ titleLine p.title ++
    metaLine "description" (p.metadata.bind (·.description)) ++
    metaLine "keywords" ((p.metadata.bind (·.keywords)).map (String.intercalate ", ")) ++
    "</head>\n<body>\n" ++ view v ++ "\n</body>\n</html>\n"

end Html

end ServerUi
