import ServerUi.Text.Excerpt
import ServerUi.Json.Reader
import ServerUi.Schema.Load

/-!
# ServerUi.Schema.LoadError — schemas from text

A file cannot be read, its text is not JSON, or the JSON is no schema.  An error names the file it
came from once that is known.
-/

namespace ServerUi

/-- What went wrong. -/
inductive LoadError.Cause where
  | unreadable (message : String)
  /-- The text is no JSON; the excerpt shows where. -/
  | malformed (line column : Nat) (message excerpt : String)
  /-- The JSON is no schema. -/
  | misfit (message : String)
  deriving DecidableEq, Repr

/-- Why a schema cannot be loaded, and from which file. -/
structure LoadError where
  path : Option String
  cause : LoadError.Cause
  deriving DecidableEq, Repr

namespace LoadError

def message (e : LoadError) : String :=
  match e.cause with
  | .unreadable m | .malformed _ _ m _ | .misfit m => m

/-- Name the file, unless one is named already. -/
def inFile (e : LoadError) (path : String) : LoadError := { e with path := e.path <|> some path }

/-- The error of a text that is no JSON; lines and columns are counted from one. -/
def ofSyntax (e : Json.SyntaxError) (source : String) (path : Option String) : LoadError :=
  let line := max e.position.line 1
  let column := max e.position.column 1
  ⟨path, .malformed line column e.message (excerpt source line column)⟩

def ofMisfit (m : Misfit) : LoadError := ⟨none, .misfit m.message⟩

/-- The report for a reader of the terminal. -/
def report : LoadError → String
  | ⟨some p, .unreadable m⟩ => "Read error at " ++ p ++ ": " ++ m
  | ⟨none, .unreadable m⟩ => "Read error: " ++ m
  | ⟨some p, .malformed line column m x⟩ =>
    "Schema parse error at " ++ p ++ ":" ++ toString line ++ ":" ++ toString column ++ "\n" ++ m ++
      "\n" ++ x
  | ⟨none, .malformed line column m x⟩ =>
    "Schema parse error at line " ++ toString line ++ ", column " ++ toString column ++ "\n" ++ m ++
      "\n" ++ x
  | ⟨some p, .misfit m⟩ => "Invalid schema at " ++ p ++ "\n" ++ m
  | ⟨none, .misfit m⟩ => "Invalid schema\n" ++ m

end LoadError

/-- Read JSON text; the error names the file the text came from. -/
def Json.load (text : String) (path : Option String) : Except LoadError Value :=
  match Json.read text with
  | .ok v => .ok v
  | .error e => .error (.ofSyntax e text path)

/-- Load a document. -/
def Schema.load (v : Value) : Except LoadError Schema := (Schema.ofValue v).mapError .ofMisfit

/-- Load the document a text holds. -/
def Schema.ofText (text : String) : Except LoadError Schema := do
  Schema.load (← Json.load text none)

/-- Whether the written schema, read again, is the schema it was.  Reading may change the last bit
of a double, so not every schema is. -/
def Schema.reloads (s : Schema) : Bool :=
  match Schema.ofText s.dump with
  | .ok t => t.kind == s.kind && t.toValue == s.toValue
  | .error _ => false

end ServerUi
