import ServerUi.Blueprint
import ServerUi.Component.Host
import ServerUi.Proofs.Component.Builtin

/-!
# ServerUi.Proofs.Blueprint.Reads — what a view is read from

`Blueprint.paths` lists the places of the document a blueprint refers to, `Blueprint.components` the
entries of the registry.  Two documents and two registries that agree on these lists give one view,
as long as the components leave the document alone.
-/

namespace ServerUi

/-- The same at every listed path, whether defined or not. -/
def Value.AgreesOn (paths : List String) (d d' : Value) : Prop :=
  ∀ path ∈ paths, d.get? path = d'.get? path

instance (paths : List String) (d d' : Value) : Decidable (d.AgreesOn paths d') :=
  inferInstanceAs (Decidable (∀ path ∈ paths, d.get? path = d'.get? path))

theorem Value.agreesOn_append {paths paths' : List String} {d d' : Value} :
    d.AgreesOn (paths ++ paths') d' ↔ d.AgreesOn paths d' ∧ d.AgreesOn paths' d' :=
  List.forall_mem_append

/-! ### Gates, texts and values -/

section Leaves

variable {d d' : Value}

theorem Gate.opens_congr {g : Gate} (h : d.get? g.path = d'.get? g.path) :
    g.opens d = g.opens d' := by
  unfold opens
  rw [h]

theorem Segment.fill_congr {s : Segment} (h : ∀ path ∈ s.path?, d.get? path = d'.get? path) :
    s.fill d = s.fill d' := by
  cases s with
  | literal text => rfl
  | binding path =>
    have hpath : d.get? path = d'.get? path := h path rfl
    rw [fill, fill, hpath]

theorem Template.fill_congr {t : Template} (h : d.AgreesOn t.paths d') : t.fill d = t.fill d' := by
  unfold fill
  have hmap : t.map (Segment.fill d) = t.map (Segment.fill d') := by
    refine List.map_congr_left fun s hs => Segment.fill_congr fun path hpath => ?_
    exact h path (List.mem_filterMap.mpr ⟨s, hs, hpath⟩)
  rw [hmap]

namespace ValueTemplate

mutual

/-- A value template reads the places that stand in it, at any depth. -/
theorem fill_congr : ∀ {t : ValueTemplate}, d.AgreesOn t.paths d' → t.fill d = t.fill d'
  | .fixed v, _ => by rw [fill, fill]
  | .bound path, h => by
    have hpath : d.get? path = d'.get? path := h path (by simp [paths])
    rw [fill, fill, hpath]
  | .text template, h => by
    rw [paths] at h
    rw [fill, fill, Template.fill_congr h]
  | .array items, h => by
    rw [paths] at h
    rw [fill, fill, fillItems_congr h]
  | .object members, h => by
    rw [paths] at h
    rw [fill, fill, fillMembers_congr h]

theorem fillItems_congr : ∀ {ts : List ValueTemplate},
    d.AgreesOn (pathsOfItems ts) d' → fillItems d ts = fillItems d' ts
  | [], _ => by rw [fillItems, fillItems]
  | t :: rest, h => by
    rw [pathsOfItems, Value.agreesOn_append] at h
    rw [fillItems, fillItems, fill_congr h.1, fillItems_congr h.2]

theorem fillMembers_congr : ∀ {ts : MemberTemplates},
    d.AgreesOn (pathsOfMembers ts) d' → fillMembers d ts = fillMembers d' ts
  | [], _ => by rw [fillMembers, fillMembers]
  | (k, t) :: rest, h => by
    rw [pathsOfMembers, Value.agreesOn_append] at h
    rw [fillMembers, fillMembers, fill_congr h.1, fillMembers_congr h.2]

end

end ValueTemplate

end Leaves

/-! ### What a blueprint refers to -/

mutual

/-- The paths in the gates, props and texts of a blueprint, those below childless components and
closed gates included. -/
def Blueprint.paths : Blueprint → List String
  | ⟨_, _, gate, props, _, content⟩ =>
    gate.toList.map Gate.path ++ (ValueTemplate.pathsOfMembers props ++ content.paths)

/-- The places that the content refers to. -/
def BlueprintContent.paths : BlueprintContent → List String
  | .absent => []
  | .text template => template.paths
  | .nodes nodes => pathsOfBlueprints nodes

/-- The places that the siblings refer to. -/
def pathsOfBlueprints : List Blueprint → List String
  | [] => []
  | b :: rest => b.paths ++ pathsOfBlueprints rest

end

mutual

/-- The components of a blueprint and of everything below it. -/
def Blueprint.components : Blueprint → List String
  | ⟨component, _, _, _, _, content⟩ => component :: content.components

/-- The components that the content names. -/
def BlueprintContent.components : BlueprintContent → List String
  | .nodes nodes => componentsOfBlueprints nodes
  | _ => []

/-- The components that the siblings name. -/
def componentsOfBlueprints : List Blueprint → List String
  | [] => []
  | b :: rest => b.components ++ componentsOfBlueprints rest

end

/-- The component shows the same for every document. -/
def Component.IgnoresDocument (c : Component) : Prop :=
  ∀ (input : Input) (document : Value), c.view { input with document } = c.view input

/-- The same component, or none, under every listed name. -/
def Registry.AgreesOn (names : List String) (r r' : Registry) : Prop :=
  ∀ name ∈ names, r.get? name = r'.get? name

/-- What stands under the listed names ignores the document. -/
def Registry.IgnoresDocumentOn (names : List String) (r : Registry) : Prop :=
  ∀ name ∈ names, ∀ c ∈ r.get? name, c.IgnoresDocument

/-- No built-in component looks into the document. -/
theorem Registry.builtin_ignoresDocument {name : String} {c : Component}
    (h : builtin.get? name = some c) : c.IgnoresDocument := by
  obtain ⟨tag, class_, -, rfl⟩ | ⟨-, rfl⟩ | ⟨-, rfl⟩ | ⟨-, rfl⟩ | ⟨-, rfl⟩ := builtin_cases h <;>
    exact fun _ _ => rfl

/-! ### Views -/

section Views

variable {r r' : Registry} {d d' : Value}

mutual

/-- Two documents and two registries that agree on what a blueprint refers to give one view. -/
theorem Blueprint.view_congr : ∀ {b : Blueprint} {key : String}, d.AgreesOn b.paths d' →
    r.AgreesOn b.components r' → r.IgnoresDocumentOn b.components →
      b.view r d key = b.view r' d' key
  | ⟨component, _, gate, props, handlers, content⟩, key, hpaths, hnames, hignores => by
    rw [Blueprint.paths, Value.agreesOn_append, Value.agreesOn_append] at hpaths
    obtain ⟨hgate, hprops, hcontent⟩ := hpaths
    rw [Blueprint.components] at hnames hignores
    obtain ⟨hname, hnames⟩ := List.forall_mem_cons.mp hnames
    obtain ⟨hignore, hignores⟩ := List.forall_mem_cons.mp hignores
    have hopens : gate.all (·.opens d) = gate.all (·.opens d') := by
      cases gate with
      | none => rfl
      | some g => exact Gate.opens_congr (hgate g.path (by simp))
    rw [Blueprint.view, Blueprint.view, hopens, ← hname, ValueTemplate.fillMembers_congr hprops,
      BlueprintContent.views_congr hcontent hnames hignores]
    cases hget : r.get? component with
    | none => rfl
    | some c =>
      -- the two inputs now differ only in the document that the component is handed itself
      simp only
      rw [← hignore c hget _ d']

theorem BlueprintContent.views_congr : ∀ {content : BlueprintContent} {parent : String},
    d.AgreesOn content.paths d' → r.AgreesOn content.components r' →
      r.IgnoresDocumentOn content.components →
        content.views r d parent = content.views r' d' parent
  | .absent, _, _, _, _ => by rw [BlueprintContent.views, BlueprintContent.views]
  | .text template, _, hpaths, _, _ => by
    rw [BlueprintContent.paths] at hpaths
    rw [BlueprintContent.views, BlueprintContent.views, Template.fill_congr hpaths]
  | .nodes nodes, _, hpaths, hnames, hignores => by
    rw [BlueprintContent.paths] at hpaths
    rw [BlueprintContent.components] at hnames hignores
    rw [BlueprintContent.views, BlueprintContent.views,
      viewSiblings_congr hpaths hnames hignores]

theorem viewSiblings_congr : ∀ {nodes : List Blueprint} {parent : String} {taken : List String}
    {index : Nat}, d.AgreesOn (pathsOfBlueprints nodes) d' →
      r.AgreesOn (componentsOfBlueprints nodes) r' →
        r.IgnoresDocumentOn (componentsOfBlueprints nodes) →
          viewSiblings r d parent taken nodes index = viewSiblings r' d' parent taken nodes index
  | [], _, _, _, _, _, _ => by rw [viewSiblings, viewSiblings]
  | b :: rest, _, _, _, hpaths, hnames, hignores => by
    rw [pathsOfBlueprints, Value.agreesOn_append] at hpaths
    rw [componentsOfBlueprints] at hnames hignores
    obtain ⟨hname, hnames⟩ := List.forall_mem_append.mp hnames
    obtain ⟨hignore, hignores⟩ := List.forall_mem_append.mp hignores
    rw [viewSiblings, viewSiblings, Blueprint.view_congr hpaths.1 hname hignore,
      viewSiblings_congr hpaths.2 hnames hignores]

end

end Views

/-- A view is read from the values at the paths of its blueprint and from the components that the
blueprint names, and from nothing else, when these components leave the document alone.  All the
built-in ones do. -/
theorem Blueprint.view_reads_only :
    (∀ (b : Blueprint) (registry registry' : Registry) (document document' : Value),
      document.AgreesOn b.paths document' → registry.AgreesOn b.components registry' →
        registry.IgnoresDocumentOn b.components →
          ∀ key, b.view registry document key = b.view registry' document' key) ∧
      ∀ name c, Registry.builtin.get? name = some c → c.IgnoresDocument :=
  ⟨fun _ _ _ _ _ hpaths hnames hignores _ => view_congr hpaths hnames hignores,
    fun _ _ h => Registry.builtin_ignoresDocument h⟩

/-- Bindings in an array, in a text and behind a gate, and a component that nobody registered. -/
def Blueprint.greeting : Blueprint :=
  Node.blueprint
    ⟨"Card", some [("labels", .arr [.str "new", .str "{{ user.tag }}"])],
      .nodes
        [⟨"Text", none, .text "Hi {{ user.name }}{{ suffix }}", none,
            some ⟨"user.active", .eq, some (.bool true)⟩, none⟩,
          .ofComponent "Mystery"],
      none, none, none⟩

theorem Blueprint.view_reads_only_greeting :
    let user (rest : Members) : Value := .obj
      [("user", .obj ([("active", .bool true), ("name", .str "Ada"), ("tag", .null)] ++ rest))]
    let registry := Registry.builtin.register "Secret" (.data "user.token")
    greeting.paths = ["user.tag", "user.active", "user.name", "suffix"] ∧
      greeting.components = ["Card", "Text", "Mystery"] ∧
      greeting.view .builtin (user []) "root" =
        greeting.view registry (user [("token", .str "t")]) "root" := by
  intro user registry
  have hpaths : greeting.paths = ["user.tag", "user.active", "user.name", "suffix"] := by
    decide +kernel
  have hcomponents : greeting.components = ["Card", "Text", "Mystery"] := by decide +kernel
  refine ⟨hpaths, hcomponents, ?_⟩
  refine view_reads_only.1 greeting .builtin registry (user []) _ ?_ ?_ ?_ "root"
  · rw [hpaths]
    decide +kernel
  · rw [hcomponents]
    intro name hname
    have hne : name ≠ "Secret" := fun h => absurd (h ▸ hname) (by decide)
    exact ((Registry.get?_register .builtin "Secret" _ name).trans (if_neg hne)).symm
  · exact fun name _ c hc => view_reads_only.2 name c hc

end ServerUi
