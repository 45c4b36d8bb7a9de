import Mathlib.Data.List.Pairwise
import Mathlib.Data.List.Perm.Basic
import ServerUi.Proofs.Command.Strict
import ServerUi.Proofs.Document.Frame
import ServerUi.Proofs.Session.Run

/-!
# ServerUi.Proofs.Command.Reordering — writes in any order

Writes at paths that diverge may change places: in a document, in a session that gets them as
actions, and among the assignments and the actions of a job.  Two neighbours change places by
`Session.dispatch_comm`, and any two orders of a list are joined by such changes.
-/

namespace ServerUi

/-- The paths that two actions write at, if both do, diverge. -/
def Action.Independent (a b : Action) : Prop :=
  ∀ x ∈ a.assignment?, ∀ y ∈ b.assignment?, (Path.ofString x.1).Diverge (Path.ofString y.1)

theorem Action.assignment?_write (path : String) (v : Value) :
    (Action.write path v).assignment? = some (path, v) := by
  obtain ⟨_, he, -⟩ | ⟨_, _, he, -, ha, -⟩ | ⟨he, -⟩ | ⟨_, he, -⟩ :=
    (Action.write path v).effect_cases <;> rw [Action.effect_write] at he <;> cases he
  exact ha

/-- Assignments of a host are independent when their paths diverge. -/
theorem Action.independent_write {p q : String}
    (h : (Path.ofString p).Diverge (Path.ofString q)) (v w : Value) :
    (Action.write p v).Independent (.write q w) := by
  intro x hx y hy
  rw [Action.assignment?_write] at hx hy
  obtain rfl := Option.some.inj hx
  obtain rfl := Option.some.inj hy
  exact h

namespace Value

/-- Independent writes to a document may be made in either order. -/
theorem set_comm {p q : String} (h : (Path.ofString p).Diverge (Path.ofString q)) (d v w : Value) :
    (d.set p v).set q w = (d.set q w).set p v :=
  write_comm h (some d) v w

end Value

namespace Session

/-! ### Two actions -/

/-- An assignment writes or, when it is incomplete, does nothing. -/
theorem dispatch_of_setState {a : Action} (hk : a.kind = .setState) (s : Session) :
    s.dispatch a =
      ⟨(a.assignment?.map fun (path, value) => s.write path value).getD s, []⟩ := by
  have hhost : a.isForHost = false := by simp [Action.isForHost, hk]
  have hgo : a.destination? = none := Action.destination?_of_ne (by simp [hk])
  unfold dispatch
  obtain ⟨path, -, hd, -, -⟩ | ⟨path, value, he, -, hs, -⟩ | ⟨-, -, -, hf⟩ |
      ⟨reason, he, -, hs, -⟩ := a.effect_cases
  · cases hgo.symm.trans hd
  · rw [he, hs]
    rfl
  · cases hhost.symm.trans hf
  · rw [he, hs]
    rfl

/-- Two writes to diverging paths of a session commute. -/
theorem write_comm {p q : String} (h : (Path.ofString p).Diverge (Path.ofString q)) (s : Session)
    (v w : Value) : (s.write p v).write q w = (s.write q w).write p v := by
  simp only [write, update, replace, Value.set_comm h]

/-- Two independent assignments commute in a session, whether or not they are complete. -/
theorem dispatch_comm {a b : Action} (ha : a.kind = .setState) (hb : b.kind = .setState)
    (h : a.Independent b) (s : Session) :
    ((s.dispatch a).session.dispatch b).session = ((s.dispatch b).session.dispatch a).session := by
  simp only [dispatch_of_setState ha, dispatch_of_setState hb]
  cases hx : a.assignment? with
  | none => rfl
  | some x =>
    cases hy : b.assignment? with
    | none => rfl
    | some y => exact write_comm (h x hx y hy) s x.2 y.2

/-! ### Runs -/

/-- A run of assignments folds them over the session and calls nobody. -/
theorem run_dispatch_eq_foldl {actions : List Action} (hk : ∀ a ∈ actions, a.kind = .setState)
    (s : Session) : s.run (actions.map .dispatch) =
      ⟨actions.foldl (fun s a => (s.dispatch a).session) s, []⟩ := by
  induction actions generalizing s with
  | nil => rfl
  | cons a rest ih =>
    obtain ⟨ha, hrest⟩ := List.forall_mem_cons.mp hk
    have hcalls : (s.dispatch a).calls = [] := by rw [dispatch_of_setState ha]
    rw [List.map_cons, run, List.foldl_cons]
    simp only [step, hcalls, ih hrest, List.append_nil]

/-- Assignments at paths that diverge leave the same behind in whatever order they come. -/
theorem run_dispatch_perm {actions actions' : List Action} (hperm : actions.Perm actions')
    (hk : ∀ a ∈ actions, a.kind = .setState) (hind : actions.Pairwise Action.Independent)
    (s : Session) : s.run (actions.map .dispatch) = s.run (actions'.map .dispatch) := by
  -- commuting is symmetric, so the pairs may be taken in either order
  let Commute (a b : Action) : Prop := ∀ s : Session,
    ((s.dispatch a).session.dispatch b).session = ((s.dispatch b).session.dispatch a).session
  have hsymm : Std.Symm Commute := ⟨fun a b h s => (h s).symm⟩
  have hpairwise : actions.Pairwise Commute :=
    hind.imp_of_mem fun {a b} ha hb h => dispatch_comm (hk a ha) (hk b hb) h
  have hcomm : ∀ a ∈ actions, ∀ b ∈ actions, Commute a b :=
    fun a ha b hb => hpairwise.forall_of_forall (fun _ _ _ => rfl) ha hb
  have hk' : ∀ a ∈ actions', a.kind = .setState := fun a ha => hk a (hperm.mem_iff.mpr ha)
  rw [run_dispatch_eq_foldl hk, run_dispatch_eq_foldl hk',
    hperm.foldl_eq' fun a ha b hb s => hcomm a ha b hb s]

end Session

namespace Command

/-- Actions that were all read are applied as a run of the session. -/
theorem apply_ok (s : Session) (actions : List Action) :
    apply s (actions.map .ok) = .ok (s.run (actions.map .dispatch)).session := by
  induction actions generalizing s with
  | nil => rfl
  | cons a rest ih => exact ih (s.dispatch a).session

/-- Changes are applied one after the other, up to the first that cannot be read. -/
theorem apply_append (s : Session) (earlier later : List (Except ArgumentError Action)) :
    apply s (earlier ++ later) = (apply s earlier).bind (apply · later) := by
  induction earlier generalizing s with
  | nil => rfl
  | cons change rest ih =>
    cases change with
    | error e => rfl
    | ok a => exact ih (s.dispatch a).session

/-- Changes of a job that are next to each other and independent may be made in any order. -/
theorem apply_perm {actions actions' : List Action} (hperm : actions.Perm actions')
    (hk : ∀ a ∈ actions, a.kind = .setState) (hind : actions.Pairwise Action.Independent)
    (s : Session) (earlier later : List (Except ArgumentError Action)) :
    apply s (earlier ++ actions.map .ok ++ later) =
      apply s (earlier ++ actions'.map .ok ++ later) := by
  have hrun (s : Session) : apply s (actions.map .ok) = apply s (actions'.map .ok) := by
    rw [apply_ok, apply_ok, Session.run_dispatch_perm hperm hk hind]
  simp only [List.append_assoc, apply_append, hrun]

end Command

open Command

/-- Independent writes may be made in any order: two writes to a document, a list of assignments to
a session, and assignments next to each other among the changes of a job, which prints the same
or fails in the same way whatever comes before and after them. -/
theorem independent_writes_commute :
    (∀ (d v w : Value) (p q : String), (Path.ofString p).Diverge (Path.ofString q) →
      (d.set p v).set q w = (d.set q w).set p v) ∧
    ∀ actions actions' : List Action, actions.Perm actions' →
      (∀ a ∈ actions, a.kind = .setState) → actions.Pairwise Action.Independent →
        (∀ s : Session, s.run (actions.map .dispatch) = s.run (actions'.map .dispatch)) ∧
        ∀ (files : Files) (job : RenderJob) (assignments texts : List String)
            (earlier later : List (Except ArgumentError Action)),
          changes job = earlier ++ actions.map .ok ++ later →
          changes { job with assignments, actions := texts } =
            earlier ++ actions'.map .ok ++ later →
          render files { job with assignments, actions := texts } = render files job := by
  refine ⟨fun d v w p q h => Value.set_comm h d v w, ?_⟩
  intro actions actions' hperm hk hind
  refine ⟨Session.run_dispatch_perm hperm hk hind, ?_⟩
  intro files job assignments texts earlier later hjob hother
  have happly (s : Session) :
      apply s (changes { job with assignments, actions := texts }) = apply s (changes job) := by
    rw [hother, hjob, apply_perm hperm hk hind]
  simp only [render, prepared, happly]
  rfl

/-- A counted list: the count turns the list into an object, below which the other one writes. -/
def countedList : Files := fun _ => .ok
  ("\x7b\"type\":\"Text\",\"children\":" ++
    "\"\x7b\x7blist.0.id\x7d\x7d of \x7b\x7blist.count\x7d\x7d\"\x7d")

/-- A job that writes a list, the count of it and the number of its item. -/
def countedListJob : RenderJob where
  schema := "list.json"
  data := none
  assignments := ["list=[null]", "list.count=2", "list.0.id=7"]
  actions := []
  format := .text

theorem independent_writes_commute_countedList :
    (Path.ofString "list.count").Diverge (Path.ofString "list.0.id") ∧
      (let d : Value := .obj [("list", .arr [.null])]
      (d.set "list.count" .null).set "list.0.id" .null =
        (d.set "list.0.id" .null).set "list.count" .null) ∧
      render countedList countedListJob = .ok "7 of 2" ∧
      render countedList
          { countedListJob with assignments := ["list=[null]", "list.0.id=7", "list.count=2"] } =
        .ok "7 of 2" := by
  have hdiverge : (Path.ofString "list.count").Diverge (Path.ofString "list.0.id") := by
    decide +kernel
  let count : Action := .write "list.count" (.num (.int 2))
  let item : Action := .write "list.0.id" (.num (.int 7))
  have hind : [count, item].Pairwise Action.Independent :=
    List.pairwise_pair.mpr (Action.independent_write hdiverge _ _)
  have hkind : ∀ a ∈ [count, item], a.kind = .setState := by
    intro a ha
    rcases List.mem_pair.mp ha with rfl | rfl <;> rfl
  obtain ⟨hset, hactions⟩ := independent_writes_commute
  obtain ⟨-, hrender⟩ := hactions [count, item] [item, count] (.swap item count [])
    hkind hind
  have hfirst : render countedList countedListJob = .ok "7 of 2" := by decide +kernel
  refine ⟨hdiverge, hset _ _ _ _ _ hdiverge, hfirst, ?_⟩
  rw [← hfirst]
  exact hrender countedList countedListJob _ _ [.ok (.write "list" (.arr [.null]))] []
    (by decide +kernel) (by decide +kernel)

end ServerUi
