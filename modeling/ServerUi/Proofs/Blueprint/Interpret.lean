import ServerUi.Component.Builtin
import ServerUi.Component.Host
import ServerUi.Proofs.Blueprint.Identity
import ServerUi.Proofs.Schema.Canonical

/-!
# ServerUi.Proofs.Blueprint.Interpret — views without blueprints

`Node.interpret` reads the view of a node off the node itself: gate, component, props, handlers and
children in one pass, with nothing made ready beforehand.  The view of a node's blueprint is the
same under every identity, so a blueprint that is made once serves every document.
-/

namespace ServerUi

/-! ### Interpretation -/

mutual

/-- The view of a node under an identity. -/
def Node.interpret (registry : Registry) (document : Value) : Node → String → View
  | ⟨component, props, content, _, gate, handlers⟩, key =>
    if gate.any (!·.opens document) then .empty
    else match registry.get? component with
      | none => .placeholder (.unknownComponent component)
      | some c => c.view
        { component, key, document
          props := Members.fill (props.getD []) document
          handlers := Event.known.filterMap fun event =>
            (Dict.get? event (handlers.getD [])).map (.wire event)
          children :=
            if isChildless component then none else content.interpret registry document key }

/-- The views of the content under the identity of its parent: none, one text, or one view a
node. -/
def Content.interpret (registry : Registry) (document : Value) :
    Content → String → Option (List View)
  | .absent, _ => none
  | .text source, _ => some [.text (Template.fillString source document)]
  | .nodes nodes, parent =>
    some (interpretSiblings registry document parent (nodes.filterMap Node.key) nodes 0)

/-- The views of siblings from `index` on, each under its own key or else under its position with
the fewest tildes that avoid the keys of its siblings. -/
def interpretSiblings (registry : Registry) (document : Value) (parent : String)
    (taken : List String) : List Node → Nat → List View
  | [], _ => []
  | n :: rest, index =>
    let position := parent ++ "." ++ toString index
    n.interpret registry document (n.key.getD (tilded position (fewestTildes taken position))) ::
      interpretSiblings registry document parent taken rest (index + 1)

end

/-! ### Parts that are made ready beforehand -/

theorem Event.isWired_iff_mem_known {e : Event} : e.isWired = true ↔ e ∈ known := by
  cases e <;> simp [isWired, known]

/-- Handlers that are looked up come in the order of the lookups. -/
theorem Handlers.keys_lookups_sublist (handlers : Handlers) : ∀ events : List Event,
    (Dict.keys (events.filterMap fun event =>
      (Dict.get? event handlers).map (event, ·))).Sublist events
  | [] => .slnil
  | event :: rest => by
    have ih := keys_lookups_sublist handlers rest
    cases hget : Dict.get? event handlers with
    | none => simpa [hget] using ih.cons event
    | some action => simpa [hget, Dict.keys] using ih.cons_cons event

/-- The wired handlers are looked up event by event. -/
theorem Handlers.wired_eq {handlers : Handlers} (h : Dict.Ordered handlers) :
    handlers.wired =
      Event.known.filterMap fun event => (Dict.get? event handlers).map (event, ·) := by
  have hknown : Event.known.Pairwise (· < ·) := by decide
  refine Dict.Ordered.eq_of_mem_iff (h.sublist (List.filter_sublist.map _))
    (hknown.sublist (keys_lookups_sublist handlers _)) fun (event, action) => ?_
  rw [wired, List.mem_filter, Event.isWired_iff_mem_known, ← Dict.get?_eq_some_iff h.nodup]
  simp only [List.mem_filterMap, Option.map_eq_some_iff, Prod.mk.injEq]
  constructor
  · rintro ⟨hget, hmem⟩
    exact ⟨event, hmem, action, hget, rfl, rfl⟩
  · rintro ⟨_, hmem, _, hget, rfl, rfl⟩
    exact ⟨hget, hmem⟩

/-! ### Views -/

section Views

variable {registry : Registry} {document : Value}

mutual

/-- The view of the blueprint of a node is the interpretation of the node. -/
theorem Node.view_blueprint : ∀ {n : Node} {key : String}, n.Ordered →
    n.blueprint.view registry document key = n.interpret registry document key
  | ⟨component, props, content, _, gate, handlers⟩, key, hn => by
    obtain ⟨-, -, hhandlers, hcontent⟩ := Node.every_iff.mp hn
    have hgate : gate.any (!·.opens document) = !gate.all (·.opens document) := by
      cases gate <;> rfl
    -- handlers are wired as they stand, which is the order in which the events are looked up
    have hordered : Dict.Ordered (handlers.getD []) := by
      cases handlers with
      | none => exact List.Pairwise.nil
      | some hs => exact (hhandlers hs rfl).1
    rw [Node.blueprint, Blueprint.view, Node.interpret, hgate, Handlers.wired_eq hordered,
      Content.views_blueprint hcontent, List.map_filterMap]
    cases gate.all (·.opens document) with
    | false => rfl
    | true =>
      simp only [Option.map_map]
      rfl

theorem Content.views_blueprint : ∀ {content : Content} {parent : String},
    content.Every (fun ms => (Value.obj ms).Ordered) Gate.Ordered Handlers.Ordered →
      content.blueprint.views registry document parent =
        content.interpret registry document parent
  | .absent, _, _ => by rw [Content.blueprint, BlueprintContent.views, Content.interpret]
  | .text source, _, _ => by
    rw [Content.blueprint, BlueprintContent.views, Content.interpret, Template.fillString]
  | .nodes nodes, parent, h => by
    rw [Content.Every] at h
    rw [Content.blueprint, BlueprintContent.views, Content.interpret, givenKeys_blueprints,
      viewSiblings_blueprints h]

theorem viewSiblings_blueprints : ∀ {nodes : List Node} {parent : String} {taken : List String}
    {index : Nat}, nodesEvery (fun ms => (Value.obj ms).Ordered) Gate.Ordered Handlers.Ordered nodes →
      viewSiblings registry document parent taken (blueprints nodes) index =
        interpretSiblings registry document parent taken nodes index
  | [], _, _, _, _ => by rw [blueprints, viewSiblings, interpretSiblings]
  | n :: rest, _, _, _, h => by
    rw [nodesEvery] at h
    rw [blueprints, viewSiblings, interpretSiblings, n.key_blueprint, positionalKey_eq,
      Node.view_blueprint h.1, viewSiblings_blueprints h.2]

end

end Views

/-- The view of a node is its interpretation, under the identity of a root and under every other.
The blueprint is made once and gives the interpretation for one document after another. -/
theorem Node.view_eq_interpret (n : Node) (hn : n.Ordered) (registry : Registry) :
    (∀ document key,
      n.blueprint.view registry document key = n.interpret registry document key) ∧
    (∀ document,
      n.view registry document = n.interpret registry document (n.key.getD rootIdentity)) ∧
    ∀ documents : List Value, documents.map (n.blueprint.view registry · n.blueprint.identity) =
      documents.map (n.interpret registry · (n.key.getD rootIdentity)) := by
  have hroot : n.blueprint.identity = n.key.getD rootIdentity := by
    rw [Blueprint.identity, n.key_blueprint]
  refine ⟨fun _ _ => view_blueprint hn, fun document => ?_, fun documents => ?_⟩
  · rw [view, hroot, view_blueprint hn]
  · exact List.map_congr_left fun document _ => by rw [hroot, view_blueprint hn]

/-- The built-in components and two of a host: one shows its children alone, the other its input. -/
def Registry.hosted : Registry := (builtin.register "Group" .fragment).register "Probe" .inspect

/-- A key that a position would have, a closed gate, an unknown component, a childless one with
content and an event that is not wired, and components of a host. -/
def Node.assorted : Node :=
  ⟨"Card", none,
    .nodes
      [⟨"Box", none, .absent, some "root.1", none, none⟩,
        ⟨"Text", some [("title", .str "{{ user }}")], .text "Hi {{ user }}", none, none, none⟩,
        ⟨"Text", none, .absent, none, some ⟨"user", .eq, none⟩, none⟩,
        .ofComponent "Mystery",
        ⟨"Input", none, .text "unseen", none, none,
          some [(.change, .ofKind .custom), (.other "hover", .ofKind .api)]⟩,
        ⟨"Group", none,
          .nodes [⟨"Probe", some [("who", .str "{{ user }}")], .absent, none, none, none⟩],
          none, none, none⟩],
    none, none, none⟩

theorem Node.view_eq_interpret_assorted :
    assorted.Ordered ∧
      let v := assorted.interpret .hosted (.obj [("user", .str "Ada")]) "root"
      v.elements.map (·.key) = [some "root", some "root.1", some "root.1~", some "root.4"] ∧
        v.elements.map (Dict.get? "title" ·.attrs) = [none, none, some (.str "Ada"), none] ∧
        v.shownText = "Hi AdaUnknown component: Mystery\x7b\"children\":null," ++
          "\"component\":\"Probe\",\"events\":[],\"key\":\"root.5.0\"," ++
          "\"props\":\x7b\"who\":\"Ada\"\x7d\x7d" ∧
        v.elements.map (·.handlers.length) = [0, 0, 0, 1] := by
  have ho : assorted.Ordered := by
    simp only [assorted, Node.ofComponent, Node.Ordered, Node.Every, Content.Every, nodesEvery,
      Option.mem_def, Option.some.injEq, forall_eq', Handlers.Ordered, List.forall_mem_cons]
    simp [Gate.Ordered, Action.Ordered, Action.ofKind, Value.Ordered, Value.OrderedMembers,
      Dict.Ordered, Dict.keys]
    decide
  refine ⟨ho, ?_⟩
  rw [← (view_eq_interpret assorted ho .hosted).1]
  decide +kernel

end ServerUi
