import ServerUi.Command.Work
import ServerUi.Log.Filter

/-!
# ServerUi.Command.Arguments — reading the command line

Options stand before or after the other words; `--name value` and `--name=value` mean the same, and
after `--` every word is taken as it is.  Logging options belong to the program and stand before the
command, all others belong to the command and follow it.

The rules are those of a library that reads arguments from the declaration of a command, modelled
after its documentation: which words are values, which options may be repeated and which exclude
each other.
-/

namespace ServerUi

namespace Command

/-- An option: whether it takes a value, and whether it may be given again. -/
structure OptionSpec where
  name : String
  takesValue : Bool
  repeatable : Bool := false
  /-- Which values are accepted. -/
  accepts : String → Bool := fun _ => true

/-- A file name is not empty. -/
def isFileName (word : String) : Bool := word ≠ ""

/-- Why reading stops early. -/
inductive Stop where
  | help
  | version
  | usage
  deriving DecidableEq, Repr

/-- The options and words read so far, the latest first. -/
structure Words where
  options : List (String × String) := []
  plain : List String := []

def Words.has (w : Words) (name : String) : Bool := w.options.any (·.1 = name)

/-- The values of an option in the order they were given. -/
def Words.values (w : Words) (name : String) : List String :=
  (w.options.reverse.filter (·.1 = name)).map Prod.snd

def Words.value? (w : Words) (name : String) : Option String := (w.values name).head?

/-- Record an option. -/
def Words.addOption (w : Words) (spec : OptionSpec) (value : String) : Except Stop Words :=
  if (w.has spec.name && !spec.repeatable) || !spec.accepts value then .error .usage
  else .ok { w with options := (spec.name, value) :: w.options }

/-- Whether a word looks like an option. -/
def isFlag (word : String) : Bool := word.startsWith "-" && word ≠ "-"

/-- What one part of the command line understands. -/
structure Grammar where
  specs : List OptionSpec
  /-- Whether `-V` and `--version` are understood. -/
  hasVersion : Bool
  /-- Whether the first plain word is a command that takes the rest. -/
  hasCommands : Bool

/-- The meaning of single-letter options. -/
def shortOption (g : Grammar) : List Char → Stop
  | 'h' :: _ => .help
  | 'V' :: _ => if g.hasVersion then .version else .usage
  | _ => .usage

/-- The meaning of a long option that is none of the specified ones. -/
def otherOption (g : Grammar) (name : String) : Stop :=
  if name = "help" then .help
  else if name = "version" ∧ g.hasVersion then .version
  else .usage

/-- Record the file name, the one plain word a command takes. -/
def Words.addPlain (w : Words) (word : String) : Except Stop Words :=
  if w.plain.isEmpty && isFileName word then .ok { w with plain := [word] } else .error .usage

/-- Read words up to a command or the end; `pending` is an option that waits for its value.
Answers with what was read and what is left for the command. -/
def readWords (g : Grammar) :
    Option OptionSpec → List String → Words → Except Stop (Words × List String)
  | none, [], w => .ok (w, [])
  | some _, [], _ => .error .usage
  | some spec, word :: rest, w =>
    if isFlag word then .error .usage
    else do readWords g none rest (← w.addOption spec word)
  | none, word :: rest, w =>
    if word = "--" then
      if g.hasCommands then .error .usage
      else do return (← rest.foldlM Words.addPlain w, [])
    else if word.startsWith "--" then
      let body := word.toList.drop 2
      let name := String.ofList (body.takeWhile (· ≠ '='))
      match g.specs.find? (·.name = name), body.dropWhile (· ≠ '=') with
      | none, [] => .error (otherOption g name)
      | none, _ => .error .usage
      | some spec, [] =>
        if spec.takesValue then readWords g (some spec) rest w
        else do readWords g none rest (← w.addOption spec "")
      | some spec, _ :: value =>
        if spec.takesValue then do readWords g none rest (← w.addOption spec (String.ofList value))
        else .error .usage
    else if isFlag word then .error (shortOption g (word.toList.drop 1))
    else if g.hasCommands then .ok ({ w with plain := [word] }, rest)
    else do readWords g none rest (← w.addPlain word)

/-! ### The program's options -/

def programGrammar : Grammar where
  specs := [⟨"trace", false, false, fun _ => true⟩, ⟨"debug", false, false, fun _ => true⟩,
    ⟨"log-level", true, false, fun _ => true⟩, ⟨"log-filter", true, false, fun _ => true⟩]
  hasVersion := true
  hasCommands := true

def formatOf? (name : String) : Option Format :=
  match name with
  | "html" => some .html
  | "json" => some .json
  | "text" => some .text
  | _ => none

def renderGrammar : Grammar where
  specs := [⟨"data", true, false, isFileName⟩, ⟨"set", true, true, fun _ => true⟩,
    ⟨"action", true, true, fun _ => true⟩, ⟨"format", true, false, fun v => (formatOf? v).isSome⟩,
    ⟨"strict", false, false, fun _ => true⟩]
  hasVersion := false
  hasCommands := false

def checkGrammar : Grammar where
  specs := [⟨"dump", false, false, fun _ => true⟩]
  hasVersion := false
  hasCommands := false

/-- What the program is asked to do. -/
inductive Task where
  | render (job : RenderJob) (strict : Bool)
  | check (schema : String) (dump : Bool)
  deriving DecidableEq, Repr

structure Invocation where
  task : Task
  log : LogOptions
  deriving DecidableEq, Repr

def renderTask (w : Words) : Except Stop Task :=
  match w.plain with
  | [schema] =>
    .ok (.render
      { schema, data := w.value? "data", assignments := w.values "set", actions := w.values "action"
        format := ((w.value? "format").bind formatOf?).getD .html }
      (w.has "strict"))
  | _ => .error .usage

def checkTask (w : Words) : Except Stop Task :=
  match w.plain with
  | [schema] => .ok (.check schema (w.has "dump"))
  | _ => .error .usage

/-- The words after `help` have to name commands; commands have none of their own. -/
def helpOn : List String → Stop
  | [] => .help
  | [name] => if name ∈ ["render", "check", "help"] then .help else .usage
  | _ => .usage

def taskOf (name : String) (rest : List String) : Except Stop Task := do
  match name with
  | "render" => renderTask (← readWords renderGrammar none rest {}).1
  | "check" => checkTask (← readWords checkGrammar none rest {}).1
  | "help" => .error (helpOn rest)
  | _ => .error .usage

/-- The logging options; `trace` and `debug` exclude each other and all others. -/
def logOptions (w : Words) : Except Stop LogOptions :=
  let o : LogOptions :=
    { trace := w.has "trace", debug := w.has "debug", level := w.value? "log-level"
      filter := w.value? "log-filter" }
  let others := o.level.isSome || o.filter.isSome
  if (o.trace && (o.debug || others)) || (o.debug && others) then .error .usage else .ok o

/-- Read the words of the command line. -/
def read (args : List String) : Except Stop Invocation := do
  let (w, rest) ← readWords programGrammar none args {}
  match w.plain with
  | [name] =>
    let task ← taskOf name rest
    return { task, log := ← logOptions w }
  | _ => .error .usage

end Command

end ServerUi
