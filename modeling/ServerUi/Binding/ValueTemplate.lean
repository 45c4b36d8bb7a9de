import ServerUi.Binding.Template

/-!
# ServerUi.Binding.ValueTemplate — values with bindings inside

A value template is a JSON value whose strings have been read for bindings, so that it can be filled
from any number of documents.  A string that is one binding takes the bound value itself; a string
with other text around it becomes text.  A value that is undefined leaves its member out and turns
an array item into `null`.

Every part without bindings is kept as it stands.
-/

namespace ServerUi

/-- A value whose strings were read for bindings. -/
inductive ValueTemplate where
  | fixed (value : Value)
  | bound (path : String)
  | text (template : Template)
  | array (items : List ValueTemplate)
  | object (members : List (String × ValueTemplate))
  deriving Inhabited

abbrev MemberTemplates := List (String × ValueTemplate)

namespace ValueTemplate

def isFixed : ValueTemplate → Bool
  | fixed _ => true
  | _ => false

/-- A string: one binding, text around bindings, or plain text. -/
def ofString (s : String) : ValueTemplate :=
  let template := Template.ofString s
  match template.soleBinding? with
  | some path => bound path
  | none => if template.isBound then text template else fixed (.str s)

mutual

/-- The template of a value.  An array or object without bindings is kept whole. -/
def ofValue : Value → ValueTemplate
  | .str s => ofString s
  | .arr items =>
    let templates := ofItems items
    if templates.all isFixed then fixed (.arr items) else array templates
  | .obj members =>
    let templates := ofMembers members
    if templates.all (·.2.isFixed) then fixed (.obj members) else object templates
  | .null => fixed .null
  | .bool b => fixed (.bool b)
  | .num n => fixed (.num n)

def ofItems : List Value → List ValueTemplate
  | [] => []
  | v :: rest => ofValue v :: ofItems rest

/-- The templates of the values of members. -/
def ofMembers : Members → MemberTemplates
  | [] => []
  | (k, v) :: rest => (k, ofValue v) :: ofMembers rest

end

mutual

/-- The value with every binding taken from a document; `none` when it is undefined. -/
def fill (document : Value) : ValueTemplate → Option Value
  | fixed v => some v
  | bound path => document.get? path
  | text template => some (.str (template.fill document))
  | array items => some (.arr (fillItems document items))
  | object members => some (.obj (fillMembers document members))

/-- The items of a filled array; undefined ones are `null`. -/
def fillItems (document : Value) : List ValueTemplate → List Value
  | [] => []
  | t :: rest => (fill document t).getD .null :: fillItems document rest

/-- The members of a filled object; undefined ones are left out. -/
def fillMembers (document : Value) : MemberTemplates → Members
  | [] => []
  | (k, t) :: rest =>
    match fill document t with
    | some v => (k, v) :: fillMembers document rest
    | none => fillMembers document rest

end

mutual

/-- The paths a template reads, in the order of the source. -/
def paths : ValueTemplate → List String
  | fixed _ => []
  | bound path => [path]
  | text template => template.paths
  | array items => pathsOfItems items
  | object members => pathsOfMembers members

def pathsOfItems : List ValueTemplate → List String
  | [] => []
  | t :: rest => paths t ++ pathsOfItems rest

def pathsOfMembers : MemberTemplates → List String
  | [] => []
  | (_, t) :: rest => paths t ++ pathsOfMembers rest

end

end ValueTemplate

/-- Members with every binding taken from a document. -/
def Members.fill (members : Members) (document : Value) : Members :=
  ValueTemplate.fillMembers document (ValueTemplate.ofMembers members)

end ServerUi
