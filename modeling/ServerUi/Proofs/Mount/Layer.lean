import ServerUi.Mount
import ServerUi.Proofs.Component.Builtin

/-!
# ServerUi.Proofs.Mount.Layer — later supplies over earlier ones

A supply says what stands under some names: a single component, a registry, or data.  One supply
puts what it says over what is there (`Setup.get?_components_supply`, `Setup.get?_data_supply`), so
after several the latest that says anything about a name counts (`Setup.answer_supplyAll`), and
mounting puts the result over the built-in components and the data of the schema.
-/

namespace ServerUi

namespace Supply

/-- What the supply says about the component under a name. -/
def component? (name : String) : Supply → Option Component
  | .component name' c => if name = name' then some c else none
  | .components registry => registry.get? name
  | .data _ => none

/-- What the supply says about the value under a key.  If a key stands twice in the data, the last
value counts. -/
def value? (key : String) : Supply → Option Value
  | .data members => Dict.get? key (Dict.ofList members)
  | _ => none

/-- Data is supplied, and no component. -/
def isData : Supply → Bool
  | .data _ => true
  | _ => false

end Supply

namespace Setup

variable {s s' : Setup} {supply : Supply} {supplies : List Supply}

/-! ### One supply -/

/-- What a supply says about a component goes over what was there. -/
theorem get?_components_supply (s : Setup) (supply : Supply) (name : String) :
    (s.supply supply).components.get? name = (supply.component? name).or (s.components.get? name) := by
  cases supply with
  | component name' c =>
    rw [Setup.supply, Registry.get?_register, Supply.component?]
    split_ifs <;> rfl
  | components registry => exact Dict.get?_merge_of_nodup registry.ordered.nodup name _
  | data members => rfl

/-- What a supply says about a value goes over what was there. -/
theorem get?_data_supply (s : Setup) (supply : Supply) (key : String) :
    Dict.get? key (s.supply supply).data = (supply.value? key).or (Dict.get? key s.data) := by
  cases supply with
  | data members => exact Dict.get?_merge_ofList key s.data members
  | _ => rfl

theorem ordered_data_supply (h : Dict.Ordered s.data) : Dict.Ordered (s.supply supply).data := by
  cases supply with
  | data members => exact h.merge members
  | _ => exact h

/-! ### Several supplies -/

/-- What one supply keeps, several keep. -/
theorem supplyAll_induction {P : Setup → Prop} (h : ∀ s supply, P s → P (s.supply supply))
    (hs : P s) : P (s.supplyAll supplies) := by
  induction supplies generalizing s with
  | nil => exact hs
  | cons supply supplies ih => exact ih (h s supply hs)

/-- If every supply puts what it says over a setup's answer, then the answer after several is what
the latest of them says that says anything. -/
theorem answer_supplyAll {α : Type} (answer : Setup → Option α) (entry : Supply → Option α)
    (hstep : ∀ (s : Setup) (supply : Supply),
      answer (s.supply supply) = (entry supply).or (answer s)) (s : Setup) :
    answer (s.supplyAll supplies) = (supplies.reverse.findSome? entry).or (answer s) := by
  induction supplies generalizing s with
  | nil => rfl
  | cons supply supplies ih =>
    calc answer ((s.supply supply).supplyAll supplies)
        = (supplies.reverse.findSome? entry).or ((entry supply).or (answer s)) := by
          rw [ih, hstep s supply]
      _ = ((supply :: supplies).reverse.findSome? entry).or (answer s) := by
          rw [List.reverse_cons, List.findSome?_append, List.findSome?_singleton, Option.or_assoc]

/-- Of supplies of which some do not touch a part of a setup, those can be left out. -/
theorem part_supplyAll_filter {β : Type} (part : Setup → β) (touches : Supply → Bool)
    (hcongr : ∀ (s s' : Setup) (supply : Supply), part s = part s' →
      part (s.supply supply) = part (s'.supply supply))
    (hskip : ∀ (s : Setup) (supply : Supply), touches supply = false →
      part (s.supply supply) = part s) (h : part s = part s') :
    part (s.supplyAll supplies) = part (s'.supplyAll (supplies.filter touches)) := by
  induction supplies generalizing s s' with
  | nil => exact h
  | cons supply supplies ih =>
    cases ht : touches supply with
    | true =>
      rw [List.filter_cons_of_pos ht]
      exact ih (hcongr s s' supply h)
    | false =>
      rw [List.filter_cons_of_neg (by simp [ht])]
      exact ih ((hskip s supply ht).trans h)

/-! ### The mount -/

/-- The session of a mount depends on the supplies of data alone. -/
theorem session_mount_supplyAll (s : Setup) (supplies : List Supply) :
    (s.supplyAll supplies).mount.session =
      (s.supplyAll (supplies.filter Supply.isData)).mount.session := by
  -- a session is made of these three, of which supplies change the data alone
  refine congrArg (fun (schema, data, hooks) =>
    Session.start (Session.initialData schema.ownData? data) hooks)
    (part_supplyAll_filter (fun s => (s.schema, s.data, s.hooks)) Supply.isData ?_ ?_ rfl)
  · rintro ⟨schema, components, data, hooks⟩ ⟨schema', components', data', hooks'⟩ supply hsame
    obtain ⟨rfl, rfl, rfl⟩ := Prod.mk.inj hsame |>.imp_right Prod.mk.inj
    cases supply <;> rfl
  · intro s supply hdata
    cases supply with
    | data members => cases hdata
    | _ => rfl

/-- The registry of a mount depends on the other supplies alone. -/
theorem registry_mount_supplyAll (s : Setup) (supplies : List Supply) :
    (s.supplyAll supplies).mount.registry =
      (s.supplyAll (supplies.filter (!·.isData))).mount.registry := by
  refine congrArg Registry.builtin.merge (part_supplyAll_filter Setup.components (!·.isData)
    (fun s s' supply hsame => ?_) (fun s supply hdata => ?_) rfl)
  · cases supply with
    | component name c => exact congrArg (Registry.register · name c) hsame
    | components registry => exact congrArg (Registry.merge · registry) hsame
    | data members => exact hsame
  · cases supply with
    | data members => rfl
    | _ => cases hdata

theorem schema_supplyAll (s : Setup) (supplies : List Supply) :
    (s.supplyAll supplies).schema = s.schema := by
  refine supplyAll_induction (P := fun t => t.schema = s.schema) (fun t supply ht => ?_) rfl
  cases supply <;> exact ht

/-- A mount puts the components of the host over the built-in ones. -/
theorem get?_registry_mount (s : Setup) (name : String) :
    s.mount.registry.get? name = (s.components.get? name).or (Registry.builtin.get? name) :=
  Dict.get?_merge_of_nodup s.components.ordered.nodup name _

/-- The first document has the data of the host over that of the schema. -/
theorem get?_initialData (schemaData : Option Members) {hostData : Members}
    (h : Dict.Ordered hostData) (key : String) :
    Dict.get? key (Session.initialData schemaData hostData) =
      (Dict.get? key hostData).or (Dict.get? key (schemaData.getD [])) :=
  Dict.get?_merge_of_nodup h.nodup key _

end Setup

/-- Under a name stands what the latest supply puts there, else the built-in component.  Under a key
of the first document stands what the latest supply of data puts there, else what the schema does,
and nothing else stands in the document.  The session depends on the supplies of data alone, the
registry on the others alone, and what is shown on none. -/
theorem Setup.latest_supply_counts (schema : Schema) (supplies : List Supply) :
    let m := ((ofSchema schema).supplyAll supplies).mount
    let schemaData := schema.ownData?.getD []
    (∀ name, m.registry.get? name =
      (supplies.reverse.findSome? (Supply.component? name)).or (Registry.builtin.get? name)) ∧
    (∃ members, m.session.document = .obj members ∧
      (∀ key, Dict.get? key members =
        (supplies.reverse.findSome? (Supply.value? key)).or (Dict.get? key schemaData)) ∧
      (Dict.Ordered schemaData → Dict.Ordered members)) ∧
    m.schema = schema ∧ m.root = schema.root.blueprint ∧
    ∀ supplies',
      let m' := ((ofSchema schema).supplyAll supplies').mount
      (supplies'.filter Supply.isData = supplies.filter Supply.isData → m'.session = m.session) ∧
      (supplies'.filter (!·.isData) = supplies.filter (!·.isData) → m'.registry = m.registry) := by
  intro m schemaData
  have hdata : Dict.Ordered ((ofSchema schema).supplyAll supplies).data :=
    supplyAll_induction (P := fun s => Dict.Ordered s.data) (fun _ _ => ordered_data_supply)
      Dict.Ordered.nil
  have hschema : ((ofSchema schema).supplyAll supplies).schema = schema := schema_supplyAll _ _
  refine ⟨fun name => ?_, ⟨_, rfl, fun key => ?_, fun hown => ?_⟩, hschema, ?_,
    fun supplies' => ⟨fun hsame => ?_, fun hsame => ?_⟩⟩
  · have hempty : (ofSchema schema).components.get? name = none := rfl
    rw [get?_registry_mount,
      answer_supplyAll (fun s => s.components.get? name) (Supply.component? name)
        (fun s supply => get?_components_supply s supply name), hempty, Option.or_none]
  · have hempty : Dict.get? key (ofSchema schema).data = none := rfl
    rw [get?_initialData _ hdata, hschema,
      answer_supplyAll (fun s => Dict.get? key s.data) (Supply.value? key)
        (fun s supply => get?_data_supply s supply key), hempty, Option.or_none]
  · rw [hschema]
    exact hown.merge _
  · exact congrArg (fun schema => schema.root.blueprint) hschema
  · rw [session_mount_supplyAll, hsame, ← session_mount_supplyAll]
  · rw [registry_mount_supplyAll, hsame, ← registry_mount_supplyAll]

/-- A page with data of its own, and supplies that collide with it, with each other and with
built-in components. -/
def Schema.profile : Schema :=
  .page ⟨"profile", none, none, some [("lang", .str "en"), ("name", .str "schema")],
    .ofComponent "Button"⟩

/-- Supplies of one name and of one key by several of them. -/
def Supply.colliding : List Supply :=
  [.data [("name", .str "first")],
    .component "Button" (.raw "b" false),
    .components ((Registry.empty.register "Button" (.raw "fancy-button" false)).register "Gauge"
      (.text "gauge")),
    .data [("count", .num (.int 3)), ("name", .str "second")],
    .component "Gauge" .nothing]

theorem Setup.latest_supply_counts_colliding :
    let m := ((ofSchema Schema.profile).supplyAll Supply.colliding).mount
    m.registry.get? "Button" = some (.raw "fancy-button" false) ∧
      m.registry.get? "Gauge" = some .nothing ∧
      m.registry.get? "Card" = Registry.builtin.get? "Card" ∧
      (∃ members, m.session.document = .obj members ∧
        Dict.get? "lang" members = some (.str "en") ∧
        Dict.get? "name" members = some (.str "second") ∧ Dict.get? "size" members = none) ∧
      ((ofSchema Schema.profile).supplyAll (Supply.colliding.filter Supply.isData)).mount.session =
        m.session := by
  obtain ⟨hregistry, ⟨members, hdocument, hmembers, -⟩, -, -, hparts⟩ :=
    latest_supply_counts Schema.profile Supply.colliding
  refine ⟨(hregistry "Button").trans rfl, (hregistry "Gauge").trans rfl,
    (hregistry "Card").trans (Option.none_or), ⟨members, hdocument, (hmembers "lang").trans rfl,
      (hmembers "name").trans rfl, (hmembers "size").trans rfl⟩, (hparts _).1 rfl⟩

end ServerUi
