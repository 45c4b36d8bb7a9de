import ServerUi.Text.Blank

/-!
# ServerUi.Log.Filter — which parts log at which level

A filter sets a level for each part of the program.  An explicit filter wins over the level
switches, those win over the filter of the environment, and without any the level is `info`.

A filter is text that is handed to the library that does the logging, and is written here in the
form that the documentation of that library gives for it.
-/

namespace ServerUi

namespace LogFilter

/-- The parts of the program. -/
def parts : List String := ["sdui", "sdui_cli", "logging"]

def lowerAscii (s : String) : String := String.ofList (s.toList.map Char.toLower)

/-- One level for all parts. -/
def uniform (level : String) : String :=
  String.intercalate "," (parts.map fun part => part ++ "=" ++ lowerAscii level)

end LogFilter

/-- What the command line says about logging. -/
structure LogOptions where
  trace : Bool := false
  debug : Bool := false
  level : Option String := none
  filter : Option String := none
  deriving DecidableEq, Repr

open LogFilter in
/-- The filter the options select, given the filter of the environment. -/
def LogOptions.select (o : LogOptions) (environment : Option String) : String :=
  match o.filter with
  | some filter => filter
  | none =>
    if o.trace then uniform "trace"
    else if o.debug then uniform "debug"
    else match o.level, environment with
      | some level, _ => uniform level
      | none, some filter => if Text.trim filter.toList = [] then uniform "info" else filter
      | none, none => uniform "info"

end ServerUi
