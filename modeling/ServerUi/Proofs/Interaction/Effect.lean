import ServerUi.Interaction.Action

/-!
# ServerUi.Proofs.Interaction.Effect — every action asks for one thing

An action is a navigation with a destination, an assignment with a path and a value, something for
the host, or an incomplete navigation or assignment.  `effect_cases` says that these four exclude
each other and which effect belongs to which.
-/

namespace ServerUi

namespace Action

/-- Where a navigation goes: the string at `path` in the payload. -/
def destination? (a : Action) : Option String :=
  match a.kind, a.argument? "path" with
  | .navigate, some (.str path) => some path
  | _, _ => none

/-- What an assignment writes: the string at `path` and whatever stands at `value`. -/
def assignment? (a : Action) : Option (String × Value) :=
  match a.kind, a.argument? "path", a.argument? "value" with
  | .setState, some (.str path), some value => some (path, value)
  | _, _, _ => none

/-- Whether the action is for the host. -/
def isForHost (a : Action) : Bool :=
  match a.kind with
  | .navigate | .setState => false
  | .api | .custom | .other _ => true

/-- A navigation without a destination or an assignment without a path or a value. -/
def IsIncomplete (a : Action) : Prop :=
  (a.kind = .navigate ∧ a.destination? = none) ∨ (a.kind = .setState ∧ a.assignment? = none)

instance (a : Action) : Decidable a.IsIncomplete := inferInstanceAs (Decidable (_ ∨ _))

theorem destination?_eq {a : Action} (h : a.kind = .navigate) : a.destination? = a.path? := by
  unfold destination? path?
  rw [h]
  rcases a.argument? "path" with _ | v
  · rfl
  · cases v <;> rfl

theorem destination?_of_ne {a : Action} (h : a.kind ≠ .navigate) : a.destination? = none := by
  unfold destination?
  split
  · rename_i hk _
    exact absurd hk h
  · rfl

/-- An assignment needs a path and a value, which may be `null`. -/
theorem assignment?_eq {a : Action} (h : a.kind = .setState) :
    a.assignment? = a.path?.bind fun path => (a.argument? "value").map (path, ·) := by
  unfold assignment? path?
  rw [h]
  rcases a.argument? "path" with _ | v
  · rfl
  · cases a.argument? "value" <;> cases v <;> rfl

theorem assignment?_of_ne {a : Action} (h : a.kind ≠ .setState) : a.assignment? = none := by
  unfold assignment?
  split
  · rename_i hk _ _
    exact absurd hk h
  · rfl

/-- An action goes somewhere, assigns something, is for the host, or is incomplete, and is one of
these alone. -/
theorem effect_cases (a : Action) :
    (∃ path, a.effect = .goTo path ∧ a.destination? = some path ∧ a.assignment? = none ∧
      a.isForHost = false) ∨
    (∃ path value, a.effect = .write path value ∧ a.destination? = none ∧
      a.assignment? = some (path, value) ∧ a.isForHost = false) ∨
    (a.effect = .handOver a ∧ a.destination? = none ∧ a.assignment? = none ∧
      a.isForHost = true) ∨
    (∃ reason, a.effect = .nothing reason ∧ a.destination? = none ∧ a.assignment? = none ∧
      a.isForHost = false) := by
  -- the kind decides which members of the payload are asked for, if any
  cases hk : a.kind with
  | navigate =>
    have hd := destination?_eq hk
    have hs : a.assignment? = none := assignment?_of_ne (by simp [hk])
    have hf : a.isForHost = false := by simp [isForHost, hk]
    cases hp : a.path? with
    | some path => exact .inl ⟨path, by simp [effect, hk, hp], hd.trans hp, hs, hf⟩
    | none =>
      exact .inr (.inr (.inr ⟨.noDestination, by simp [effect, hk, hp], hd.trans hp, hs, hf⟩))
  | setState =>
    have hd : a.destination? = none := destination?_of_ne (by simp [hk])
    have hs := assignment?_eq hk
    have hf : a.isForHost = false := by simp [isForHost, hk]
    cases hp : a.path? with
    | none =>
      rw [hp] at hs
      exact .inr (.inr (.inr ⟨.noStatePath, by simp [effect, hk, hp], hd, hs, hf⟩))
    | some path =>
      cases hv : a.argument? "value" with
      | none =>
        rw [hp, hv] at hs
        exact .inr (.inr (.inr ⟨.noStateValue, by simp [effect, hk, hp, hv], hd, hs, hf⟩))
      | some value =>
        rw [hp, hv] at hs
        exact .inr (.inl ⟨path, value, by simp [effect, hk, hp, hv], hd, hs, hf⟩)
  | _ =>
    refine .inr (.inr (.inl ⟨by simp [effect, hk], destination?_of_ne (by simp [hk]),
      assignment?_of_ne (by simp [hk]), by simp [isForHost, hk]⟩))

/-- An action is incomplete if it is neither for the host nor asks for anything. -/
theorem isIncomplete_iff {a : Action} :
    a.IsIncomplete ↔ a.isForHost = false ∧ a.destination? = none ∧ a.assignment? = none := by
  constructor
  · rintro (⟨hk, hd⟩ | ⟨hk, hs⟩)
    · exact ⟨by simp [isForHost, hk], hd, assignment?_of_ne (by simp [hk])⟩
    · exact ⟨by simp [isForHost, hk], destination?_of_ne (by simp [hk]), hs⟩
  · rintro ⟨hf, hd, hs⟩
    cases hk : a.kind with
    | navigate => exact .inl ⟨hk, hd⟩
    | setState => exact .inr ⟨hk, hs⟩
    | _ => simp [isForHost, hk] at hf

/-- An action asks for nothing exactly when it is incomplete. -/
theorem isIncomplete_iff_effect {a : Action} :
    a.IsIncomplete ↔ ∃ reason, a.effect = .nothing reason := by
  rw [isIncomplete_iff]
  obtain ⟨_, he, hd, hs, hf⟩ | ⟨_, _, he, hd, hs, hf⟩ | ⟨he, hd, hs, hf⟩ | ⟨_, he, hd, hs, hf⟩ :=
    a.effect_cases <;> simp [he, hd, hs, hf]

/-! ### Assignments made by a host -/

theorem argument?_insertPayload (a : Action) (key key' : String) (v : Value) :
    (a.insertPayload key v).argument? key' = if key' = key then some v else a.argument? key' := by
  obtain ⟨kind, payload⟩ := a
  simp only [argument?, insertPayload, Option.bind_some, Dict.get?_insert]
  cases payload <;> simp

theorem effect_write (path : String) (v : Value) :
    (Action.write path v).effect = .write path v := by
  have hpath : (write path v).argument? "path" = some (.str path) := by
    simp [write, argument?_insertPayload]
  have hvalue : (write path v).argument? "value" = some v := by
    simp [write, argument?_insertPayload]
  have hkind : (write path v).kind = .setState := rfl
  simp [effect, hkind, path?, hpath, hvalue, Value.asString?]

end Action

end ServerUi
