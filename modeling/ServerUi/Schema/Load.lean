import ServerUi.Schema.Decode
import ServerUi.Schema.Encode
import ServerUi.Json.Printer

/-!
# ServerUi.Schema.Load — schemas from documents

The kind of a schema is told by the member `__kind`, and without it by the member `root`: a page has
one.  A document with both `root` and `type` is read as a page.
-/

namespace ServerUi

/-- The member that names the kind; it belongs to no record. -/
def Schema.Kind.key : String := "__kind"

/-- Why a document is no schema. -/
inductive Misfit where
  | noObject
  | unknownKind (value : Value)
  | mismatch (mismatch : Mismatch)
  deriving DecidableEq, Repr

def Misfit.message : Misfit → String
  | noObject => "expected a JSON object describing a node or a page"
  | unknownKind v =>
    "unknown " ++ Schema.Kind.key ++ " " ++ v.compact ++ "; expected \"page\" or \"node\""
  | mismatch m => m.message

namespace Schema.Kind

/-- The kind that a document names, or else the kind it looks like. -/
def ofValue : Value → Except Misfit Schema.Kind
  | .obj members =>
    match Dict.get? key members with
    | some (.str "page") => .ok page
    | some (.str "node") => .ok node
    | some v => .error (.unknownKind v)
    | none => .ok (if Dict.contains "root" members then page else node)
  | _ => .error .noObject

/-- Whether the kind of a document had to be guessed although it looks like both. -/
def isAmbiguous : Value → Bool
  | .obj members =>
    !Dict.contains key members && Dict.contains "root" members && Dict.contains "type" members
  | _ => false

end Schema.Kind

namespace Schema

/-- The document without the member that names its kind. -/
def body : Value → Value
  | .obj members => .obj (Dict.erase Schema.Kind.key members)
  | v => v

/-- Read a document of a known kind. -/
def ofBody (kind : Schema.Kind) (v : Value) : Decoded Schema :=
  match kind with
  | .node => (Node.ofValue v).map node
  | .page => (Page.ofValue v).map page

/-- Find out the kind of a document and read it. -/
def ofValue (v : Value) : Except Misfit Schema := do
  let kind ← Schema.Kind.ofValue v
  (ofBody kind (body v)).mapError .mismatch

/-- The schema as one line of JSON. -/
def dump (s : Schema) : String := s.toValue.compact

end Schema

end ServerUi
