import ServerUi.Command.Program
import ServerUi.Proofs.Log.Warning
import ServerUi.Proofs.Schema.Accepted

/-!
# ServerUi.Proofs.Command.Strict — what a strict run counts

A job that succeeds has loaded its schema, read all its changes and viewed what they left.  Each of
the three warns of its own: loading of a document that looks like a node and like a page, a change
of an incomplete action, viewing of an unknown component.  Assignments are always complete and
mounting never warns, so `render_strict` can name every warning of the job, and with them what
`--strict` reports.
-/

namespace ServerUi

open Notice

/-! ### Ambiguous documents -/

/-- The document has the members of a page and of a node and does not say which it is. -/
def Value.LooksLikeBoth (v : Value) : Prop :=
  ∃ members, v = .obj members ∧ "root" ∈ Dict.keys members ∧ "type" ∈ Dict.keys members ∧
    "__kind" ∉ Dict.keys members

theorem Schema.Kind.isAmbiguous_iff {v : Value} : isAmbiguous v = true ↔ v.LooksLikeBoth := by
  cases v with
  | obj members =>
    simp only [isAmbiguous, Bool.and_eq_true, Bool.not_eq_true', ← Bool.not_eq_true,
      Dict.contains_iff, Value.LooksLikeBoth, Value.obj.injEq, exists_eq_left']
    constructor
    · rintro ⟨⟨hk, hr⟩, ht⟩
      exact ⟨hr, ht, hk⟩
    · rintro ⟨hr, ht, hk⟩
      exact ⟨⟨hk, hr⟩, ht⟩
  | _ => simp [isAmbiguous, Value.LooksLikeBoth]

instance (v : Value) : Decidable v.LooksLikeBoth :=
  decidable_of_iff _ Schema.Kind.isAmbiguous_iff

/-- Finding out the kind of a schema gives one warning at most. -/
theorem Schema.Kind.warnings_notices (v : Value) :
    warnings (notices v) = if v.LooksLikeBoth then [.ambiguousSchema] else [] := by
  unfold notices
  simp only [isAmbiguous_iff]
  split <;> rfl

/-! ### Jobs that succeed -/

theorem Registry.merge_empty (r : Registry) : r.merge .empty = r := rfl

theorem Files.schema_eq_ok {files : Files} {path : String} {schema : Schema} :
    files.schema path = .ok schema ↔
      ∃ document, files.load path = .ok document ∧ Schema.ofValue document = .ok schema := by
  simp only [Files.schema, bind_eq_ok, mapError_eq_ok, Schema.load]

namespace Command

variable {files : Files} {job : RenderJob}

/-- A job is set up once its schema and its data are read. -/
theorem setup_eq_ok {s : Setup} :
    setup files job = .ok s ↔ ∃ schema data, files.schema job.schema = .ok schema ∧
      jobData files job = .ok data ∧
      ((Setup.ofSchema schema).supply (.data data)).hook ⟨true, false⟩ = s := by
  simp only [setup, bind_eq_ok, mapError_eq_ok, pure_eq_ok, exists_and_left]

/-- A job is prepared once all of its changes are applied to the mounted session. -/
theorem prepared_eq_ok {m : Mount} :
    prepared files job = .ok m ↔ ∃ s session, setup files job = .ok s ∧
      apply s.mount.session (changes job) = .ok session ∧ { s.mount with session } = m := by
  simp only [prepared, bind_eq_ok, mapError_eq_ok, pure_eq_ok, exists_and_left]

/-- A job that renders prints the view of what was prepared. -/
theorem render_eq_ok {out : String} :
    render files job = .ok out ↔
      ∃ m, prepared files job = .ok m ∧ print m.view m.schema job.format = out := by
  simp only [render, bind_eq_ok, pure_eq_ok]

/-- The command line registers no components of its own. -/
theorem registry_of_setup {s : Setup} (h : setup files job = .ok s) : s.registry = .builtin := by
  obtain ⟨schema, data, -, -, rfl⟩ := setup_eq_ok.mp h
  exact Registry.merge_empty .builtin

/-! ### Changes -/

/-- Changes that have all been done have all been read. -/
theorem exists_actions_of_apply {changes : List (Except ArgumentError Action)} :
    ∀ {s s' : Session}, apply s changes = .ok s' → ∃ actions : List Action,
      changes = actions.map .ok := by
  induction changes with
  | nil => exact fun _ => ⟨[], rfl⟩
  | cons change rest ih =>
    intro s s' h
    cases change with
    | error e => cases h
    | ok a =>
      obtain ⟨actions, rfl⟩ := ih h
      exact ⟨a :: actions, rfl⟩

theorem warnings_handedOver (calls : List HostCall) : warnings (calls.flatMap handedOver) = [] := by
  rw [warnings, upTo, List.filter_eq_nil_iff]
  intro n hn
  obtain ⟨call, -, hn⟩ := List.mem_flatMap.mp hn
  cases call with
  | action a =>
    obtain rfl := List.mem_singleton.mp hn
    exact Bool.false_ne_true
  | navigate path => cases hn

/-- Applying actions warns of the incomplete ones, in order. -/
theorem warnings_applyNotices : ∀ (actions : List Action) (s : Session),
    List.Forall₂ Skips (warnings (applyNotices s (actions.map .ok)))
      (actions.filter (·.IsIncomplete))
  | [], _ => .nil
  | a :: rest, s => by
    rw [List.map_cons, applyNotices, warnings_append, warnings_append, warnings_handedOver,
      List.append_nil, ← List.singleton_append, List.filter_append]
    exact List.rel_append (s.warnings_dispatchNotices a)
      (warnings_applyNotices rest (s.dispatch a).session)

/-- An assignment has a path and a value. -/
theorem not_isIncomplete_of_writeOf {raw : String} {a : Action} (h : writeOf raw = .ok a) :
    ¬ a.IsIncomplete := by
  obtain ⟨⟨path, v⟩, -, rfl⟩ := map_eq_ok.mp h
  simp [Action.isIncomplete_iff_effect, Action.effect_write]

/-- What an option writes is never incomplete. -/
theorem filter_isIncomplete_of_writes {raws : List String} {writes : List Action}
    (h : writes.map .ok = raws.map writeOf) : writes.filter (·.IsIncomplete) = [] := by
  rw [List.filter_eq_nil_iff]
  intro a ha
  have hm : (.ok a : Except ArgumentError Action) ∈ raws.map writeOf := h ▸ List.mem_map_of_mem ha
  obtain ⟨raw, -, hraw⟩ := List.mem_map.mp hm
  simpa using not_isIncomplete_of_writeOf hraw

/-! ### Strict runs -/

/-- A strict run prints what it renders, and fails if and only if there is a warning. -/
theorem run_strict {out : String} (h : render files job = .ok out) :
    (Task.render job true).run files =
      if (warnings (renderNotices files job)).length = 0 then ⟨0, out ++ "\n", ""⟩
      else ⟨1, out ++ "\n", strictReport (warnings (renderNotices files job))⟩ := by
  show runRender files job true = _
  simp only [runRender, h, warnings, Bool.true_and, Bool.not_eq_true', List.isEmpty_eq_false_iff,
    List.length_eq_zero_iff, ne_eq, ite_not]

/-- The warnings of a job that succeeds: of its document, of its actions in their order and of the
placeholders of its view in theirs.  A strict run counts them. -/
theorem render_strict {out : String} (h : render files job = .ok out) :
    ∃ (document : Value) (actions : List Action) (m : Mount) (skipped unknown : List Notice)
        (total : Nat),
      files.load job.schema = .ok document ∧
      job.actions.map actionOf = actions.map .ok ∧
      prepared files job = .ok m ∧
      out = print m.view m.schema job.format ∧
      warnings (renderNotices files job) =
        (if document.LooksLikeBoth then [.ambiguousSchema] else []) ++ skipped ++ unknown ∧
      List.Forall₂ Skips skipped (actions.filter (·.IsIncomplete)) ∧
      List.Forall₂ Marks unknown m.view.placeholders ∧
      total = (if document.LooksLikeBoth then 1 else 0) +
        (actions.filter (·.IsIncomplete)).length + m.view.placeholders.length ∧
      (Task.render job true).run files =
        if total = 0 then ⟨0, out ++ "\n", ""⟩
        else ⟨1, out ++ "\n", toString total ++ " warning(s) logged while rendering\n" ++
          String.join ((warnings (renderNotices files job)).map fun n => "  " ++ n.line ++ "\n")⟩ := by
  obtain ⟨m, hm, rfl⟩ := render_eq_ok.mp h
  obtain ⟨s, session, hs, ha, rfl⟩ := prepared_eq_ok.mp hm
  obtain ⟨schema, -, hschema, -, -⟩ := setup_eq_ok.mp hs
  obtain ⟨document, hd, -⟩ := Files.schema_eq_ok.mp hschema
  -- the changes are the assignments, all of them complete, and then the actions
  obtain ⟨done, hdone⟩ := exists_actions_of_apply ha
  obtain ⟨writes, actions, rfl, hwrites, hactions⟩ := List.map_eq_append_iff.mp hdone.symm
  have hskipped := warnings_applyNotices (writes ++ actions) s.mount.session
  rw [List.filter_append, filter_isIncomplete_of_writes hwrites, List.nil_append, ← hdone]
    at hskipped
  have hunknown := Blueprint.warnings_viewNotices session.document
    (registry_of_setup hs ▸ Registry.builtin_allAdapters) s.schema.root.blueprint
    s.schema.root.blueprint.identity
  have hall : warnings (renderNotices files job) =
      (if document.LooksLikeBoth then [.ambiguousSchema] else []) ++
        warnings (applyNotices s.mount.session (changes job)) ++
        warnings ({ s.mount with session } : Mount).viewNotices := by
    have hviewing (ns : List Notice) : warnings (.viewing session.revision :: ns) = warnings ns :=
      rfl
    simp only [renderNotices, hs, hm, Files.schemaNotices, hd, warnings_append, hviewing,
      Schema.Kind.warnings_notices, Setup.warnings_mountNotices, List.nil_append,
      List.append_assoc]
  have htotal : (warnings (renderNotices files job)).length =
      (if document.LooksLikeBoth then 1 else 0) + (actions.filter (·.IsIncomplete)).length +
        ({ s.mount with session } : Mount).view.placeholders.length := by
    rw [hall, List.length_append, List.length_append, hskipped.length_eq]
    congr 1
    · split <;> rfl
    · exact hunknown.length_eq
  refine ⟨document, actions, _, _, _, _, hd, hactions.symm, hm, rfl, hall, hskipped, hunknown,
    htotal, run_strict h⟩

/-- A page that could be a node, with a gauge at the top and one below a childless component. -/
def gauges : Files := fun _ => .ok
  ("\x7b\"type\":\"\",\"root\":[\"Stack\",null,[[\"Gauge\"],[\"Text\",null,\"\x7b\x7bn\x7d\x7d\"]," ++
    "[\"Divider\",null,[[\"Gauge\"]]]]]\x7d")

/-- The job that renders the gauges as text, with an incomplete action. -/
def gaugesJob : RenderJob where
  schema := "gauges.json"
  data := none
  assignments := ["n=1"]
  actions := ["[\"navigate\"]", "[\"api\"]"]
  format := .text

theorem render_strict_gauges :
    render gauges gaugesJob = .ok "Unknown component: Gauge1" ∧
      (∃ skipped unknown : List Notice, skipped.length = 1 ∧ unknown.length = 1 ∧
        warnings (renderNotices gauges gaugesJob) = .ambiguousSchema :: (skipped ++ unknown)) ∧
      ((Task.render gaugesJob true).run gauges).code = 1 := by
  have hr : render gauges gaugesJob = .ok "Unknown component: Gauge1" := by decide +kernel
  obtain ⟨document, actions, m, skipped, unknown, total, hd, ha, hm, -, hall, hskipped, hunknown,
    htotal, hrun⟩ := render_strict hr
  have hboth : document.LooksLikeBoth := by
    have h : (gauges.load gaugesJob.schema).toOption.any (·.LooksLikeBoth) = true := by
      decide +kernel
    simpa [hd, Except.toOption] using h
  have hactions : (actions.filter (·.IsIncomplete)).length = 1 := by
    have h : gaugesJob.actions.map actionOf =
        [.ofKind .navigate, .ofKind .api].map .ok := by decide +kernel
    rw [← List.map_injective_iff.mpr (fun _ _ => Except.ok.inj) (h.symm.trans ha)]
    decide
  have hplaceholders : m.view.placeholders.length = 1 := by
    have h : (prepared gauges gaugesJob).toOption.map (·.view.placeholders.length) = some 1 := by
      decide +kernel
    simpa [hm, Except.toOption] using h
  rw [if_pos hboth] at hall htotal
  rw [hactions, hplaceholders] at htotal
  refine ⟨hr, ⟨skipped, unknown, hskipped.length_eq.trans hactions,
    hunknown.length_eq.trans hplaceholders, by simpa using hall⟩, ?_⟩
  rw [hrun, htotal]
  rfl

end Command

end ServerUi
