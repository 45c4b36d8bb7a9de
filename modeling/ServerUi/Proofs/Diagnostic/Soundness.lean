import ServerUi.Proofs.Blueprint.Shown
import ServerUi.Proofs.Diagnostic.Location
import ServerUi.Proofs.Interaction.Effect
import ServerUi.Session

/-!
# ServerUi.Proofs.Diagnostic.Soundness — a schema without errors shows what it says

Both the checks and the views walk a schema, but they stop at different nodes: the checks go below
gates and below components nobody registered.  Neither goes below a childless component, so every
node that a view shows has been checked (`Node.IsWithin.exists_position`).
-/

namespace ServerUi

/-- Every part that a view may show has a position that the checks reach. -/
theorem Node.IsWithin.exists_position {part n : Node} (h : part.IsWithin n) :
    ∃ position, n.checked? position = some part := by
  induction h with
  | self => exact ⟨[], rfl⟩
  | child hn hc hm _ ih =>
    obtain ⟨position, hpart⟩ := ih
    obtain ⟨i, hi⟩ := List.mem_iff_getElem?.mp hm
    refine ⟨i :: position, ?_⟩
    rw [checked?, checkedChildren, hn, hc, hi]
    exact hpart

/-- An incomplete action is found where it is handled. -/
theorem Diagnose.incomplete_mem_handler {event : Event} {a : Action} {reason : Incomplete}
    (h : a.effect = .nothing reason) : .incompleteAction reason ∈ handler event a := by
  refine List.mem_append_right _ ?_
  rw [h]
  exact List.mem_singleton.mpr rfl

section NoError

variable {n part : Node} {registry : Registry} {location : String}
  (hn : anyError (Diagnose.node registry n location) = false)

include hn

/-- In a node without errors, nothing that is found at a part is an error. -/
theorem Node.severity_of_mem (hpart : part.IsWithin n) {finding : Finding}
    (hf : ∀ key, finding ≠ .duplicateKey key)
    (hm : ∀ location, ∃ place, ⟨place, finding⟩ ∈ Diagnose.foundAt registry part location) :
    finding.severity ≠ .error := by
  obtain ⟨position, hposition⟩ := hpart.exists_position
  obtain ⟨place, hplace⟩ := hm (Diagnose.location location position)
  have hmem : ⟨place, finding⟩ ∈ Diagnose.node registry n location :=
    (Diagnose.mem_node_iff_foundAt hf n location).mpr ⟨position, part, hposition, hplace⟩
  intro herror
  have hany : anyError (Diagnose.node registry n location) = true := by
    rw [anyError, List.any_eq_true]
    exact ⟨_, hmem, decide_eq_true herror⟩
  rw [hn] at hany
  cases hany

/-- In a node without errors, the component of every part is registered. -/
theorem Node.registered_of_no_error (hpart : part.IsWithin n) :
    registry.get? part.component ≠ none := by
  intro h
  have hcontains : registry.contains part.component = false := by simp [Registry.contains, h]
  exact severity_of_mem hn hpart (by simp)
    (fun _ => ⟨_, Diagnose.mem_foundAt_iff.mpr (.inl ⟨rfl, hcontains, rfl⟩)⟩) rfl

/-- In a node without errors, every wired handler has an effect. -/
theorem Node.effect_of_no_error (hpart : part.IsWithin n) {h : Handler}
    (hh : h ∈ part.wiredHandlers) (reason : Incomplete) : h.action.effect ≠ .nothing reason := by
  intro he
  have hm := (mem_of_mem_wiredHandlers hh).1
  have hhandler : .incompleteAction reason ∈ Diagnose.handler h.event h.action :=
    Diagnose.incomplete_mem_handler he
  exact severity_of_mem hn hpart (by simp) (fun _ => ⟨_, Diagnose.mem_foundAt_iff.mpr
    (.inr (.inr (.inl ⟨h.event, h.action, hm, rfl, hhandler⟩)))⟩) rfl

end NoError

/-- What firing does when the action asks for something. -/
theorem Session.step_fire_of_effect (session : Session) {h : Handler}
    (he : ∀ reason, h.action.effect ≠ .nothing reason) :
    (∃ path, h.action.destination? = some path ∧ session.step (.fire h) = session.goTo path) ∨
      (∃ path value, h.action.assignment? = some (path, value) ∧
        session.step (.fire h) = ⟨session.write path value, []⟩) ∨
      (h.action.isForHost = true ∧ session.step (.fire h) =
        ⟨session, if session.hooks.action then [.action h.action] else []⟩) := by
  have hstep : session.step (.fire h) = session.dispatch h.action := rfl
  rw [hstep, dispatch]
  obtain ⟨path, heq, hd, -⟩ | ⟨path, value, heq, -, ha, -⟩ | ⟨heq, -, -, hf⟩ | ⟨reason, heq, -⟩ :=
    h.action.effect_cases
  · rw [heq]
    exact .inl ⟨path, hd, rfl⟩
  · rw [heq]
    exact .inr (.inl ⟨path, value, ha, rfl⟩)
  · rw [heq]
    exact .inr (.inr ⟨hf, rfl⟩)
  · exact absurd heq (he reason)

/-- A schema without errors has no placeholder in any of its views, and every handler in them does
what its action says wherever it is fired: it goes somewhere, writes something or reaches the
host. -/
theorem Schema.view_of_no_error (s : Schema) (hs : anyError (s.diagnostics .builtin) = false)
    (document : Value) :
    (s.root.view .builtin document).placeholders = [] ∧
      ∀ e ∈ (s.root.view .builtin document).elements, ∀ h ∈ e.handlers,
        (∀ reason, h.action.effect ≠ .nothing reason) ∧
        ∀ session : Session,
          (∃ path, h.action.destination? = some path ∧
            session.step (.fire h) = session.goTo path) ∨
          (∃ path value, h.action.assignment? = some (path, value) ∧
            session.step (.fire h) = ⟨session.write path value, []⟩) ∨
          (h.action.isForHost = true ∧ session.step (.fire h) =
            ⟨session, if session.hooks.action then [.action h.action] else []⟩) := by
  have hshown {x : View} (hx : x ∈ (s.root.view .builtin document).preorder) :
      s.root.Shows .builtin document x := Node.shows_of_mem_view Registry.builtin_allAdapters hx
  constructor
  · refine List.eq_nil_iff_forall_not_mem.mpr fun p hp => ?_
    obtain ⟨part, hpart, hpartShown⟩ := hshown (View.mem_placeholders.mp hp)
    -- a placeholder is shown for an unknown component, which is an error
    cases hpartShown with
    | unknown h => exact Node.registered_of_no_error hs hpart h
  · intro e he h hh
    obtain ⟨part, hpart, hpartShown⟩ := hshown (View.mem_elements.mp he)
    cases hpartShown with
    | component _ _ hw _ hhandlers =>
      rw [hw.handlers, hhandlers] at hh
      have heffect := Node.effect_of_no_error hs hpart hh
      exact ⟨heffect, fun session => session.step_fire_of_effect heffect⟩

/-- An unknown component with an incomplete action below an input, beside a gated button. -/
def Schema.buried : Schema :=
  .node ((Node.ofComponent "Box").setNodes
    [(Node.ofComponent "Input").setNodes
      [(Node.ofComponent "Mystery").insertHandler .click ⟨.navigate, none⟩],
     ((Node.ofComponent "Button").setGate ⟨"user", .exist, none⟩).insertHandler .click
      ((Action.ofKind .navigate).insertPayload "path" (.str "/home"))])

theorem Schema.view_of_no_error_buried :
    anyError (buried.diagnostics .builtin) = false ∧
      let v := buried.root.view .builtin (.obj [("user", .bool true)])
      let session := Session.start [] ⟨false, true⟩
      v.placeholders = [] ∧
        (v.handlersOf .click).map (·.action.destination?) = [some "/home"] ∧
        ∀ e ∈ v.elements, ∀ h ∈ e.handlers,
          (∀ reason, h.action.effect ≠ .nothing reason) ∧
          session.step (.fire h) = ⟨session, [.navigate "/home"]⟩ := by
  have hs : anyError (buried.diagnostics .builtin) = false := by decide +kernel
  refine ⟨hs, ?_⟩
  intro v session
  obtain ⟨hplaceholders, hhandlers⟩ :=
    view_of_no_error Schema.buried hs (.obj [("user", .bool true)])
  have hgoes : ∀ e ∈ v.elements, ∀ h ∈ e.handlers, h.action.destination? = some "/home" ∧
      h.action.assignment? = none ∧ h.action.isForHost = false := by decide +kernel
  refine ⟨hplaceholders, by decide +kernel, fun e he h hh => ?_⟩
  obtain ⟨heffect, hfires⟩ := hhandlers e he h hh
  obtain ⟨hdestination, hassignment, hhost⟩ := hgoes e he h hh
  refine ⟨heffect, ?_⟩
  -- of the three things an action may ask for, this one asks for a destination
  obtain ⟨path, hpath, hstep⟩ | ⟨path, value, hvalue, -⟩ | ⟨hfor, -⟩ := hfires session
  · obtain rfl : path = "/home" := Option.some.inj (hpath.symm.trans hdestination)
    exact hstep
  · rw [hassignment] at hvalue
    cases hvalue
  · rw [hhost] at hfor
    cases hfor

end ServerUi
