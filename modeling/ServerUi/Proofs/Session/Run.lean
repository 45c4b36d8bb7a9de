import Mathlib.Tactic.SplitIfs
import ServerUi.Proofs.Interaction.Effect
import ServerUi.Session

/-!
# ServerUi.Proofs.Session.Run — what a run leaves behind

An operation stands for a change of the document, for a destination or for an action that the host
is given, and for at most one of them.  `Follows` says what a session looks like once a list of
operations has been done: the document is the fold of the changes, the revision counts them, and
the host has been called with the rest in order.  One operation follows itself, and what follows two
lists follows their concatenation, so a run follows its operations.
-/

namespace ServerUi

/-! ### What an operation stands for -/

/-- The action the host is given. -/
def HostCall.action? : HostCall → Option Action
  | .action a => some a
  | .navigate _ => none

/-- The destination the host is given. -/
def HostCall.destination? : HostCall → Option String
  | .action _ => none
  | .navigate path => some path

namespace Session

namespace Operation

/-- The action that is dispatched or fired. -/
def action? : Operation → Option Action
  | .dispatch a => some a
  | .fire h => some h.action
  | _ => none

/-- How the document changes. -/
def mutation? : Operation → Option (Value → Value)
  | .replace document => some fun _ => document
  | .update f => some f
  | .write path value => some fun document => document.set path value
  | .dispatch a => a.assignment?.map fun (path, value) document => document.set path value
  | .fire h => h.action.assignment?.map fun (path, value) document => document.set path value
  | .goTo _ => none

/-- Where the operation goes. -/
def destination? : Operation → Option String
  | .goTo path => some path
  | .dispatch a => a.destination?
  | .fire h => h.action.destination?
  | _ => none

/-- The action the host is given. -/
def handed? (o : Operation) : Option Action := o.action?.filter Action.isForHost

/-- An incomplete action is dispatched or fired. -/
def IsIncomplete (o : Operation) : Prop := ∃ a ∈ o.action?, a.IsIncomplete

end Operation

open Operation

/-! ### Sessions after operations -/

/-- `r` is what `ops` make of `s`. -/
structure Follows (s : Session) (ops : List Operation) (r : Reaction) : Prop where
  document : r.session.document =
    (ops.filterMap mutation?).foldl (fun document f => f document) s.document
  revision : r.session.revision = s.revision + UInt64.ofNat (ops.filterMap mutation?).length
  hooks : r.session.hooks = s.hooks
  location : r.session.location =
    if s.hooks.navigate then s.location else (ops.filterMap destination?).getLast?.or s.location
  actions : r.calls.filterMap HostCall.action? =
    if s.hooks.action then ops.filterMap handed? else []
  destinations : r.calls.filterMap HostCall.destination? =
    if s.hooks.navigate then ops.filterMap destination? else []

theorem Follows.nil (s : Session) : Follows s [] ⟨s, []⟩ := by
  constructor <;> simp

/-- What follows two lists one after the other follows both together. -/
theorem Follows.append {s : Session} {ops ops' : List Operation} {r r' : Reaction}
    (h : Follows s ops r) (h' : Follows r.session ops' r') :
    Follows s (ops ++ ops') ⟨r'.session, r.calls ++ r'.calls⟩ where
  document := by
    rw [List.filterMap_append, List.foldl_append, ← h.document]
    exact h'.document
  revision := by
    rw [List.filterMap_append, List.length_append, UInt64.ofNat_add, ← UInt64.add_assoc,
      ← h.revision]
    exact h'.revision
  hooks := h'.hooks.trans h.hooks
  location := by
    show r'.session.location = _
    -- the last destination is one of the second part, if that has any
    rw [h'.location, h.hooks, h.location, List.filterMap_append, List.getLast?_append]
    split_ifs
    · rfl
    · rw [Option.or_assoc]
  actions := by
    rw [List.filterMap_append, h.actions, h'.actions, h.hooks, List.filterMap_append]
    split_ifs <;> rfl
  destinations := by
    rw [List.filterMap_append, h.destinations, h'.destinations, h.hooks, List.filterMap_append]
    split_ifs <;> rfl

/-- An operation that stands for a change of the document. -/
theorem Follows.mutation {s : Session} {o : Operation} {f : Value → Value}
    (hm : o.mutation? = some f) (hd : o.destination? = none) (hh : o.handed? = none) :
    Follows s [o] ⟨s.update f, []⟩ := by
  constructor <;> simp [hm, hd, hh, update, replace]

/-- An operation that goes somewhere: the host is told, or else the session remembers it. -/
theorem Follows.destination {s : Session} {o : Operation} {path : String}
    (hm : o.mutation? = none) (hd : o.destination? = some path) (hh : o.handed? = none) :
    Follows s [o] (s.goTo path) := by
  unfold goTo
  split_ifs with h <;>
    constructor <;> simp [hm, hd, hh, h, HostCall.action?, HostCall.destination?]

/-- An operation whose action is for the host. -/
theorem Follows.handed {s : Session} {o : Operation} {a : Action}
    (hm : o.mutation? = none) (hd : o.destination? = none) (hh : o.handed? = some a) :
    Follows s [o] ⟨s, if s.hooks.action then [.action a] else []⟩ := by
  split_ifs with h <;>
    constructor <;> simp [hm, hd, hh, h, HostCall.action?, HostCall.destination?]

/-- An operation that stands for nothing changes nothing. -/
theorem Follows.nothing {s : Session} {o : Operation}
    (hm : o.mutation? = none) (hd : o.destination? = none) (hh : o.handed? = none) :
    Follows s [o] ⟨s, []⟩ := by
  constructor <;> simp [hm, hd, hh]

/-- Dispatching an action does the one thing that the action stands for. -/
theorem dispatch_follows (s : Session) {o : Operation} {a : Action} (ha : o.action? = some a)
    (hm : o.mutation? = a.assignment?.map fun (path, value) document => document.set path value)
    (hd : o.destination? = a.destination?) : Follows s [o] (s.dispatch a) := by
  have hh : o.handed? = if a.isForHost then some a else none := by
    simp [handed?, ha, Option.filter]
  unfold dispatch
  obtain ⟨path, he, had, has, haf⟩ | ⟨path, value, he, had, has, haf⟩ | ⟨he, had, has, haf⟩ |
    ⟨reason, he, had, has, haf⟩ := a.effect_cases <;> rw [he] <;> rw [had] at hd <;>
    rw [has] at hm <;> rw [haf] at hh
  · exact Follows.destination hm hd hh
  · exact Follows.mutation hm hd hh
  · exact Follows.handed hm hd hh
  · exact Follows.nothing hm hd hh

/-- One operation follows itself, whichever it is. -/
theorem step_follows (s : Session) : ∀ o : Operation, Follows s [o] (s.step o)
  | .dispatch _ => dispatch_follows s rfl rfl rfl
  | .fire _ => dispatch_follows s rfl rfl rfl
  | .replace document => Follows.mutation (f := fun _ => document) rfl rfl rfl
  | .update _ => Follows.mutation rfl rfl rfl
  | .write _ _ => Follows.mutation rfl rfl rfl
  | .goTo _ => Follows.destination rfl rfl rfl

/-- A run follows its operations. -/
theorem run_follows : ∀ (ops : List Operation) (s : Session), Follows s ops (s.run ops)
  | [], s => Follows.nil s
  | o :: ops, s => (step_follows s o).append (run_follows ops (s.step o).session)

/-! ### Runs -/

/-- A run goes on from where the first part of it ended. -/
theorem run_append (s : Session) : ∀ ops ops' : List Operation, s.run (ops ++ ops') =
      ⟨((s.run ops).session.run ops').session,
        (s.run ops).calls ++ ((s.run ops).session.run ops').calls⟩
  | [], _ => rfl
  | o :: ops, ops' => by
    simp only [List.cons_append, run, run_append (s.step o).session ops ops', List.append_assoc]

theorem step_incomplete (s : Session) {o : Operation} (h : o.IsIncomplete) :
    s.step o = ⟨s, []⟩ := by
  obtain ⟨a, ha, hi⟩ := h
  obtain ⟨reason, he⟩ := Action.isIncomplete_iff_effect.mp hi
  have hdispatch : s.dispatch a = ⟨s, []⟩ := by rw [dispatch, he]
  cases o with
  | dispatch b =>
    cases ha
    exact hdispatch
  | fire k =>
    cases ha
    exact hdispatch
  | _ => cases ha

/-- A run is the same without an incomplete action at its end. -/
theorem run_incomplete (s : Session) (ops : List Operation) {o : Operation} (h : o.IsIncomplete) :
    s.run (ops ++ [o]) = s.run ops := by
  simp [run_append, run, step_incomplete _ h]

/-- The revision counts the changes, as long as there are fewer than `2⁶⁴`. -/
theorem toNat_revision_run (data : Members) (hooks : Hooks) {ops : List Operation}
    (h : (ops.filterMap mutation?).length < UInt64.size) :
    ((start data hooks).run ops).session.revision.toNat = (ops.filterMap mutation?).length := by
  rw [(run_follows ops (start data hooks)).revision]
  show (0 + UInt64.ofNat _).toNat = _
  rw [UInt64.zero_add, UInt64.toNat_ofNat_of_lt' h]

/-- Operations that do not count are changes of nothing. -/
theorem document_eq_of_revision_eq (data : Members) (hooks : Hooks) {ops ops' : List Operation}
    (hsize : ((ops ++ ops').filterMap mutation?).length < UInt64.size)
    (h : ((start data hooks).run ops).session.revision =
      ((start data hooks).run (ops ++ ops')).session.revision) :
    ((start data hooks).run ops).session.document =
      ((start data hooks).run (ops ++ ops')).session.document := by
  have hlength : ((ops ++ ops').filterMap mutation?).length =
      (ops.filterMap mutation?).length + (ops'.filterMap mutation?).length := by
    rw [List.filterMap_append, List.length_append]
  -- below the bound no revision wraps round, so equal revisions are equal counts
  have hcount : (ops.filterMap mutation?).length = ((ops ++ ops').filterMap mutation?).length := by
    rw [← toNat_revision_run data hooks hsize, ← h,
      toNat_revision_run data hooks (by omega)]
  have hnone : ops'.filterMap mutation? = [] := List.eq_nil_of_length_eq_zero (by omega)
  rw [(run_follows ops _).document, (run_follows (ops ++ ops') _).document,
    List.filterMap_append, hnone, List.append_nil]

/-- A run leaves the document that its changes make of the data, counts them, and calls the host
with everything else, in order.  An incomplete action at any place of the run changes nothing, and
two places with one revision have one document. -/
theorem run_refines_operations (data : Members) (hooks : Hooks) (ops : List Operation)
    (hsize : (ops.filterMap mutation?).length < UInt64.size) :
    let after (done : List Operation) : Reaction := (start data hooks).run done
    (after ops).session.document =
        (ops.filterMap mutation?).foldl (fun document f => f document) (.obj data) ∧
      (after ops).session.revision.toNat = (ops.filterMap mutation?).length ∧
      (after ops).calls.filterMap HostCall.action? =
        (if hooks.action then ops.filterMap handed? else []) ∧
      (after ops).calls.filterMap HostCall.destination? =
        (if hooks.navigate then ops.filterMap destination? else []) ∧
      (after ops).session.location =
        (if hooks.navigate then none else (ops.filterMap destination?).getLast?) ∧
      (∀ earlier o later, ops = earlier ++ o :: later → o.IsIncomplete →
        after (earlier ++ [o]) = after earlier) ∧
      ∀ earlier between later, ops = earlier ++ between ++ later →
        (after earlier).session.revision = (after (earlier ++ between)).session.revision →
          (after earlier).session.document = (after (earlier ++ between)).session.document := by
  intro after
  have hf : Follows (start data hooks) ops (after ops) := run_follows ops (start data hooks)
  refine ⟨hf.document, toNat_revision_run data hooks hsize, hf.actions, hf.destinations, ?_, ?_, ?_⟩
  · rw [hf.location]
    simp [start]
  · rintro earlier o later - hi
    exact run_incomplete _ earlier hi
  · rintro earlier between later rfl h
    refine document_eq_of_revision_eq data hooks ?_ h
    rw [List.filterMap_append, List.length_append] at hsize
    omega

/-- An assignment of `null`, an incomplete navigation, an action for the host and a navigation. -/
def mixedOperations : List Operation :=
  [.dispatch ⟨.setState, some [("path", .str "user"), ("value", .null)]⟩,
    .dispatch ⟨.navigate, some [("path", .bool true)]⟩,
    .fire (.wire .submit ⟨.other "track", none⟩), .goTo "/next"]

theorem run_refines_operations_mixed :
    (mixedOperations.filterMap mutation?).length < UInt64.size ∧
      let r := (start [] ⟨true, false⟩).run mixedOperations
      r.session.document = .obj [("user", .null)] ∧ r.session.revision.toNat = 1 ∧
        r.calls.filterMap HostCall.action? = [⟨.other "track", none⟩] ∧
        r.session.location = some "/next" := by
  have hsize : (mixedOperations.filterMap mutation?).length < UInt64.size := by decide
  obtain ⟨hdocument, hrevision, hactions, -, hlocation, -⟩ :=
    run_refines_operations [] ⟨true, false⟩ mixedOperations hsize
  have hwritten : Value.set (.obj []) "user" .null = .obj [("user", .null)] := by decide +kernel
  exact ⟨hsize, hdocument.trans hwritten, hrevision, hactions, hlocation⟩

end Session

end ServerUi
