/-!
# ServerUi.Interaction.Event — names of user events

Clicks, submissions and changes are wired; other names are only kept as written.  Events are
ordered: click, submit, change, then the others by their spelling.
-/

namespace ServerUi

/-- The name of a user event. -/
inductive Event where
  | click
  | submit
  | change
  | other (spelling : String)
  deriving DecidableEq, Repr

namespace Event

def spelling : Event → String
  | click => "click"
  | submit => "submit"
  | change => "change"
  | other s => s

def known : List Event := [click, submit, change]

/-- The event with a spelling. -/
def ofSpelling (s : String) : Event := (known.find? (·.spelling = s)).getD (other s)

/-- Whether a handler of the event is wired. -/
def isWired : Event → Bool
  | other _ => false
  | _ => true

/-- The place of the event among the names that are not `other`. -/
def rank : Event → Nat
  | click => 0
  | submit => 1
  | change => 2
  | other _ => 3

/-- The order of events: known ones by their rank, others by their spelling. -/
def before : Event → Event → Bool
  | other a, other b => decide (a < b)
  | a, b => a.rank < b.rank

instance : LT Event := ⟨fun a b => before a b = true⟩

instance : DecidableLT Event := fun a b => inferInstanceAs (Decidable (before a b = true))

/-- Sorted by event order; equal names stay. -/
def sort (events : List Event) : List Event :=
  events.mergeSort fun a b => !before b a

end Event

end ServerUi
