import ServerUi.Component.Builtin
import ServerUi.Proofs.Blueprint.Identity
import ServerUi.Proofs.Diagnostic.Location
import ServerUi.Proofs.Document.Comparison

/-!
# ServerUi.Proofs.Diagnostic.Ineffective — what changes nothing

Some findings say that a part of a schema has no effect: content of a childless component, handlers
of events nobody wires, gates whose operator is not known.  Without these parts the views are the
same (`Node.view_cleaned`), and the findings are gone.  A gate that is found never to open shows
nothing for any document.
-/

namespace ServerUi

/-- The finding is about a part that changes no view. -/
def Finding.isIneffective : Finding → Bool
  | ignoredContent .. | unknownOperator _ | unwiredEvent _ => true
  | _ => false

/-- Some finding is of something that has no effect. -/
def anyIneffective (findings : List Finding) : Bool := findings.any Finding.isIneffective

mutual

/-- The node without every gate, handler and content about which an ineffective finding is made,
at itself and at every node below it that is checked. -/
def Node.cleaned : Node → Node
  | ⟨component, props, content, key, gate, handlers⟩ =>
    { component, props, key
      content :=
        if isChildless component then
          if anyIneffective (Diagnose.ignored component content) then .absent else content
        else content.cleaned
      gate := gate.filter fun g => !anyIneffective (Diagnose.gate g)
      handlers := handlers.map fun entries =>
        entries.filter fun (event, action) => !anyIneffective (Diagnose.handler event action) }

/-- The content with every node in it cleaned. -/
def Content.cleaned : Content → Content
  | .absent => .absent
  | .text source => .text source
  | .nodes nodes => .nodes (cleanedNodes nodes)

/-- The siblings cleaned one by one. -/
def cleanedNodes : List Node → List Node
  | [] => []
  | n :: rest => n.cleaned :: cleanedNodes rest

end

/-- The schema with its root cleaned. -/
def Schema.cleaned : Schema → Schema
  | node n => node n.cleaned
  | page p => page { p with root := p.root.cleaned }

/-! ### Parts without effect -/

/-- A gate that is found to be without effect is always open. -/
theorem Gate.opens_of_ineffective {g : Gate} (h : anyIneffective (Diagnose.gate g) = true)
    (document : Value) : g.opens document = true := by
  unfold Diagnose.gate at h
  split at h
  · rename_i operator hoperator
    unfold opens
    rw [hoperator]
  · split at h <;> simp [anyIneffective, Finding.isIneffective] at h

/-- What is found about the action of a handler leaves it its effect. -/
theorem anyIneffective_handler (event : Event) (a : Action) :
    anyIneffective (Diagnose.handler event a) = !event.isWired := by
  unfold Diagnose.handler
  cases event.isWired <;> cases a.kind <;> cases a.effect <;> rfl

/-- Of a childless component, no content is left. -/
theorem absent_of_ignored {component : String} {content : Content} :
    (if anyIneffective (Diagnose.ignored component content) then .absent else content) =
      Content.absent := by
  cases content <;> rfl

/-- A gate that is found never to open orders the document against something that is no number. -/
theorem Diagnose.neverOpens_mem_gate_iff {g : Gate} {operator : Operator} :
    .neverOpens operator ∈ gate g ↔
      g.operator = operator ∧ operator.isOrdering = true ∧ g.value.any Value.isNumber = false := by
  unfold gate
  split
  · rename_i spelling hspelling
    simp only [List.mem_singleton, reduceCtorEq, false_iff, hspelling]
    -- an unknown operator is none of those that order
    rintro ⟨rfl, hordering, -⟩
    cases hordering
  · by_cases h : g.operator.isOrdering && !g.value.any Value.isNumber
    · rw [if_pos h, List.mem_singleton, Finding.neverOpens.injEq]
      rw [Bool.and_eq_true, Bool.not_eq_true'] at h
      exact ⟨fun heq => ⟨heq.symm, heq ▸ h.1, h.2⟩, fun heq => heq.1.symm⟩
    · rw [if_neg h]
      refine iff_of_false List.not_mem_nil ?_
      rintro ⟨rfl, hordering, hnumber⟩
      exact h (by rw [hordering, hnumber]; rfl)

/-- A gate that is found never to open is always closed. -/
theorem Gate.closed_of_neverOpens {g : Gate} {operator : Operator}
    (h : .neverOpens operator ∈ Diagnose.gate g) (document : Value) : g.opens document = false := by
  obtain ⟨rfl, hordering, hnumber⟩ := Diagnose.neverOpens_mem_gate_iff.mp h
  refine opens_of_not_numbers ?_ hordering
  rintro ⟨-, hvalue⟩
  cases hnumber.symm.trans hvalue

/-- Only handlers that are not wired are cleaned away. -/
theorem Handlers.wired_cleaned (handlers : Option Handlers) :
    Handlers.wired ((handlers.map fun entries => entries.filter fun (event, action) =>
        !anyIneffective (Diagnose.handler event action)).getD []) =
      Handlers.wired (handlers.getD []) := by
  cases handlers with
  | none => rfl
  | some entries =>
    simp only [Option.map_some, Option.getD_some, wired, List.filter_filter,
      anyIneffective_handler, Bool.not_not, Bool.and_self]

/-- Only a gate that is always open is cleaned away. -/
theorem all_opens_cleaned (gate : Option Gate) (document : Value) :
    (gate.filter fun g => !anyIneffective (Diagnose.gate g)).all (·.opens document) =
      gate.all (·.opens document) := by
  cases gate with
  | none => rfl
  | some g =>
    cases hg : anyIneffective (Diagnose.gate g) with
    | false => simp [Option.filter, hg]
    | true => simp [Option.filter, hg, Gate.opens_of_ineffective hg]

theorem Node.key_cleaned (n : Node) : n.cleaned.key = n.key := by
  obtain ⟨component, props, content, key, gate, handlers⟩ := n
  rw [cleaned]

theorem cleanedNodes_eq_map : ∀ nodes : List Node, cleanedNodes nodes = nodes.map Node.cleaned
  | [] => by rw [cleanedNodes, List.map_nil]
  | n :: rest => by rw [cleanedNodes, List.map_cons, cleanedNodes_eq_map rest]

theorem filterMap_key_cleaned (nodes : List Node) :
    (cleanedNodes nodes).filterMap Node.key = nodes.filterMap Node.key := by
  rw [cleanedNodes_eq_map, List.filterMap_map]
  exact congrArg (List.filterMap · nodes) (funext Node.key_cleaned)

/-! ### The views of a cleaned schema -/

section Views

variable {registry : Registry} {document : Value}

mutual

/-- Cleaning changes no view, under whatever identity. -/
theorem Node.view_blueprint_cleaned : ∀ (n : Node) (key : String),
    n.cleaned.blueprint.view registry document key = n.blueprint.view registry document key
  | ⟨component, props, content, _, gate, handlers⟩, key => by
    rw [Node.cleaned, Node.blueprint, Node.blueprint, Blueprint.view, Blueprint.view,
      all_opens_cleaned, Handlers.wired_cleaned]
    cases hc : isChildless component with
    | true => rfl
    | false => simp only [Bool.false_eq_true, if_false, Content.views_blueprint_cleaned content]

theorem Content.views_blueprint_cleaned : ∀ (content : Content) (parent : String),
    content.cleaned.blueprint.views registry document parent =
      content.blueprint.views registry document parent
  | .absent, _ => by rw [Content.cleaned]
  | .text source, _ => by rw [Content.cleaned]
  | .nodes nodes, parent => by
    rw [Content.cleaned, Content.blueprint, Content.blueprint, BlueprintContent.views,
      BlueprintContent.views, givenKeys_blueprints, givenKeys_blueprints, filterMap_key_cleaned,
      viewSiblings_cleaned]

theorem viewSiblings_cleaned : ∀ (nodes : List Node) (parent : String) (taken : List String)
    (index : Nat), viewSiblings registry document parent taken (blueprints (cleanedNodes nodes)) index =
      viewSiblings registry document parent taken (blueprints nodes) index
  | [], _, _, _ => by rw [cleanedNodes]
  | n :: rest, _, _, _ => by
    rw [cleanedNodes, blueprints, blueprints, viewSiblings, viewSiblings, Node.key_blueprint,
      Node.key_blueprint, n.key_cleaned, Node.view_blueprint_cleaned n,
      viewSiblings_cleaned rest]

end

end Views

theorem Node.view_eq_empty {n : Node} {g : Gate} (hg : n.gate = some g) {document : Value}
    (h : g.opens document = false) (registry : Registry) (key : String) :
    n.blueprint.view registry document key = .empty := by
  obtain ⟨component, props, content, key', gate, handlers⟩ := n
  obtain rfl : gate = some g := hg
  rw [blueprint, Blueprint.view, Option.all_some, h]
  rfl

/-- A cleaned node has the view of the node. -/
theorem Node.view_cleaned (n : Node) (registry : Registry) (document : Value) :
    n.cleaned.view registry document = n.view registry document := by
  rw [view, view, view_blueprint_cleaned, Blueprint.identity, Blueprint.identity, key_blueprint,
    key_blueprint, key_cleaned]

/-! ### The findings of a cleaned schema -/

theorem Node.checkedChildren_cleaned (n : Node) :
    n.cleaned.checkedChildren = n.checkedChildren.map cleaned := by
  obtain ⟨component, props, content, key, gate, handlers⟩ := n
  rw [cleaned, checkedChildren, checkedChildren]
  cases hc : isChildless component with
  | true => rfl
  | false =>
    cases content with
    | nodes nodes =>
      simp only [Bool.false_eq_true, if_false, Content.cleaned]
      exact cleanedNodes_eq_map nodes
    | _ => simp [Content.cleaned]

/-- At every position the checks find the same node, cleaned. -/
theorem Node.checked?_cleaned (position : List Nat) : ∀ n : Node,
    n.cleaned.checked? position = (n.checked? position).map cleaned := by
  induction position with
  | nil => exact fun _ => rfl
  | cons index position ih =>
    intro n
    rw [checked?, checked?, checkedChildren_cleaned, List.getElem?_map, Option.map_bind,
      Option.bind_map]
    exact congrArg (Option.bind _) (funext ih)

theorem isIneffective_of_not_any {findings : List Finding} (h : anyIneffective findings = false)
    {finding : Finding} (hm : finding ∈ findings) : finding.isIneffective = false :=
  Bool.eq_false_iff.mpr (List.any_eq_false.mp h finding hm)

namespace Diagnose

variable {registry : Registry}

/-- At a cleaned node nothing is found that has no effect. -/
theorem isIneffective_of_mem_foundAt {n : Node} {place : String} {d : Diagnostic}
    (h : d ∈ foundAt registry n.cleaned place) : d.finding.isIneffective = false := by
  obtain ⟨place', finding⟩ := d
  obtain ⟨component, props, content, key, gate, handlers⟩ := n
  rw [Node.cleaned] at h
  -- an unknown component is another matter; gate, handlers and content are cleaned
  obtain ⟨-, -, rfl⟩ | ⟨-, g, hg, hm⟩ | ⟨event, action, hmem, -, hm⟩ | ⟨-, hc, hm⟩ :=
    mem_foundAt_iff.mp h
  · rfl
  · have hkept := (Option.filter_eq_some_iff.mp hg).2
    exact isIneffective_of_not_any (by simpa using hkept) hm
  · cases handlers with
    | none => cases hmem
    | some entries =>
      have hkept := (List.mem_filter.mp hmem).2
      exact isIneffective_of_not_any (by simpa using hkept) hm
  · simp only at hc hm
    rw [if_pos hc, absent_of_ignored] at hm
    cases hm

/-- Cleaning leaves nothing to clean. -/
theorem isIneffective_of_mem_cleaned {n : Node} {top : String} {d : Diagnostic}
    (h : d ∈ node registry n.cleaned top) : d.finding.isIneffective = false := by
  by_cases hf : ∀ key, d.finding ≠ .duplicateKey key
  · obtain ⟨position, part, hpart, hd⟩ := (mem_node_iff_foundAt hf _ _).mp h
    rw [Node.checked?_cleaned] at hpart
    obtain ⟨part, -, rfl⟩ := Option.map_eq_some_iff.mp hpart
    exact isIneffective_of_mem_foundAt hd
  · obtain ⟨key, hkey⟩ := not_forall_not.mp hf
    rw [hkey]
    rfl

end Diagnose

theorem anyIneffective_eq_false {findings : List Finding}
    (h : ∀ finding ∈ findings, finding.isIneffective = false) : anyIneffective findings = false :=
  List.any_eq_false.mpr fun finding hm => Bool.eq_false_iff.mp (h finding hm)

section Clean

variable {registry : Registry} {n : Node} {top : String}
  (h : ∀ d ∈ Diagnose.node registry n top, d.finding.isIneffective = false)

include h

/-- Where nothing without effect is found in a node, none is found at the node itself. -/
theorem Diagnose.isIneffective_foundAt :
    ∀ d ∈ foundAt registry n top, d.finding.isIneffective = false := by
  rintro ⟨place, finding⟩ hd
  cases finding with
  | duplicateKey => rfl
  | _ => exact h _ ((mem_node_iff (by simp)).mpr (.inl hd))

theorem Diagnose.isIneffective_child {i : Nat} {child : Node}
    (hchild : n.checkedChildren[i]? = some child) :
    ∀ d ∈ node registry child (childLocation top i), d.finding.isIneffective = false := by
  rintro ⟨place, finding⟩ hd
  cases finding with
  | duplicateKey => rfl
  | _ => exact h _ ((mem_node_iff (by simp)).mpr (.inr ⟨i, child, hchild, hd⟩))

end Clean

/-- What has nothing to clean is left as it is. -/
theorem Node.cleaned_eq_self {registry : Registry} (n : Node) {top : String}
    (h : ∀ d ∈ Diagnose.node registry n top, d.finding.isIneffective = false) : n.cleaned = n := by
  have hfound := Diagnose.isIneffective_foundAt h
  have hchildren : ∀ child ∈ n.checkedChildren, child.cleaned = child := by
    intro child hm
    have := Node.sizeOf_lt_of_mem_checkedChildren hm
    obtain ⟨i, hchild⟩ := List.mem_iff_getElem?.mp hm
    exact Node.cleaned_eq_self child (Diagnose.isIneffective_child h hchild)
  obtain ⟨component, props, content, key, gate, handlers⟩ := n
  have hgate : (gate.filter fun g => !anyIneffective (Diagnose.gate g)) = gate := by
    cases gate with
    | none => rfl
    | some g =>
      rw [Option.filter_some, anyIneffective_eq_false fun finding hm =>
        hfound ⟨_, finding⟩ (Diagnose.mem_foundAt_iff.mpr (.inr (.inl ⟨rfl, g, rfl, hm⟩)))]
      rfl
  have hhandlers : (handlers.map fun entries => entries.filter fun (event, action) =>
      !anyIneffective (Diagnose.handler event action)) = handlers := by
    cases handlers with
    | none => rfl
    | some entries =>
      refine congrArg some (List.filter_eq_self.mpr fun (event, action) hentry => ?_)
      simp only
      rw [anyIneffective_eq_false fun finding hm => hfound ⟨_, finding⟩
        (Diagnose.mem_foundAt_iff.mpr (.inr (.inr (.inl ⟨event, action, hentry, rfl, hm⟩))))]
      rfl
  -- what is left is the content: a childless node has none, and the children are clean
  rw [cleaned, hgate, hhandlers]
  cases hc : isChildless component with
  | true =>
    rw [anyIneffective_eq_false fun finding hm => hfound ⟨_, finding⟩
      (Diagnose.mem_foundAt_iff.mpr (.inr (.inr (.inr ⟨rfl, hc, hm⟩))))]
    rfl
  | false =>
    simp only [Bool.false_eq_true, if_false]
    cases content with
    | nodes nodes =>
      simp only [checkedChildren, hc] at hchildren
      rw [Content.cleaned, cleanedNodes_eq_map, List.map_congr_left (g := id) hchildren, List.map_id]
    | _ => rw [Content.cleaned]
termination_by sizeOf n

/-! ### Gates that never open -/

/-- The finding that a gate never opens is made at the gate. -/
theorem Diagnose.neverOpens_mem_foundAt_iff {registry : Registry} {n : Node}
    {place place' : String} {operator : Operator} :
    ⟨place', .neverOpens operator⟩ ∈ foundAt registry n place ↔
      place' = place ++ ".when" ∧ ∃ g ∈ n.gate, .neverOpens operator ∈ gate g := by
  have hhandler (event : Event) (a : Action) : .neverOpens operator ∉ handler event a := by
    unfold handler
    cases event.isWired <;> cases a.kind <;> cases a.effect <;> simp
  have hignored (content : Content) : .neverOpens operator ∉ ignored n.component content := by
    cases content <;> simp [ignored]
  rw [mem_foundAt_iff]
  simp only [reduceCtorEq, and_false, false_or, hhandler, exists_false, hignored, or_false]

/-- Which node is meant by a finding about its gate is told by the location. -/
theorem Diagnose.neverOpens_mem_node_iff {registry : Registry} {n part : Node} {top : String}
    {position : List Nat} (hpart : n.checked? position = some part) {operator : Operator} :
    ⟨location top position ++ ".when", .neverOpens operator⟩ ∈ node registry n top ↔
      ∃ g ∈ part.gate, .neverOpens operator ∈ gate g := by
  rw [mem_node_iff_foundAt (by simp)]
  constructor
  · rintro ⟨position', part', hpart', hfound⟩
    obtain ⟨hplace, hgate⟩ := neverOpens_mem_foundAt_iff.mp hfound
    obtain rfl := location_injective top ((String.append_left_inj ".when").mp hplace)
    rw [hpart, Option.some.injEq] at hpart'
    rwa [hpart']
  · intro hgate
    exact ⟨position, part, hpart, neverOpens_mem_foundAt_iff.mpr ⟨rfl, hgate⟩⟩

/-- What is found to have no effect has none.  Without the content of childless components, the
handlers of events nobody wires and the gates with unknown operators that the checks come upon, a
schema has the same views; cleaning takes away these parts and no others.  A node is found never to
open when its gate orders the document against something that is no number, and then it shows
nothing in any document. -/
theorem Schema.view_without_ineffective (s : Schema) (registry : Registry) :
    (∀ document, s.cleaned.root.view registry document = s.root.view registry document) ∧
    (∀ d ∈ s.cleaned.diagnostics registry, d.finding.isIneffective = false) ∧
    ((∀ d ∈ s.diagnostics registry, d.finding.isIneffective = false) → s.cleaned = s) ∧
    ∀ position part, s.root.checked? position = some part → ∀ operator,
      (⟨Diagnose.location "root" position ++ ".when", .neverOpens operator⟩ ∈
          s.diagnostics registry ↔
        ∃ g, part.gate = some g ∧ g.operator = operator ∧ operator.isOrdering = true ∧
          g.value.any Value.isNumber = false) ∧
      (⟨Diagnose.location "root" position ++ ".when", .neverOpens operator⟩ ∈
          s.diagnostics registry →
        ∀ document key, part.blueprint.view registry document key = .empty) := by
  have hroot : s.cleaned.root = s.root.cleaned := by cases s <;> rfl
  refine ⟨fun document => ?_, fun d hd => ?_, fun h => ?_, fun position part hpart operator => ?_⟩
  · rw [hroot, Node.view_cleaned]
  · rw [diagnostics, hroot] at hd
    exact Diagnose.isIneffective_of_mem_cleaned hd
  · have hcleaned := Node.cleaned_eq_self s.root h
    cases s with
    | node n => exact congrArg Schema.node hcleaned
    | page p => exact congrArg (fun root => Schema.page { p with root }) hcleaned
  · rw [diagnostics, Diagnose.neverOpens_mem_node_iff hpart]
    simp only [Diagnose.neverOpens_mem_gate_iff]
    refine ⟨Iff.rfl, ?_⟩
    rintro ⟨g, hg, hnever⟩ document key
    exact Node.view_eq_empty hg
      (Gate.closed_of_neverOpens (Diagnose.neverOpens_mem_gate_iff.mpr hnever) document) registry key

/-- A text that is shown above three, the number written as a text. -/
def Node.neverShown : Node :=
  ⟨"Text", none, .text "many", none, some ⟨"count", .gt, some (.str "3")⟩, none⟩

/-- An input with content, a gate and a handler that have no effect, beside a node that is never
shown. -/
def Schema.cluttered : Schema :=
  .node ⟨"Card", none,
    .nodes
      [⟨"Input", none, .nodes [.ofComponent "Text"], none, some ⟨"count", .unknown "matches", none⟩,
          some [(.click, .ofKind .api), (.other "hover", .ofKind .navigate)]⟩,
        .neverShown],
    none, none, none⟩

theorem Schema.view_without_ineffective_cluttered :
    let document : Value := .obj [("count", .num (.int 5))]
    let v := cluttered.cleaned.root.view .builtin document
    (cluttered.diagnostics .builtin).length = 5 ∧
      (cluttered.cleaned.diagnostics .builtin).map (·.finding) = [.neverOpens .gt] ∧
      cluttered.cleaned.cleaned = cluttered.cleaned ∧
      v = cluttered.root.view .builtin document ∧ v.elements.map (·.handlers.length) = [0, 1] ∧
      cluttered.root.checked? [1] = some .neverShown ∧
      Node.neverShown.blueprint.view .builtin document "root.1" = .empty := by
  intro document v
  obtain ⟨hview, hclean, -, hnever⟩ := view_without_ineffective cluttered .builtin
  have hpart : cluttered.root.checked? [1] = some .neverShown := rfl
  have hfound : ⟨Diagnose.location "root" [1] ++ ".when", .neverOpens .gt⟩ ∈
      cluttered.diagnostics .builtin := by decide +kernel
  exact ⟨by decide +kernel, by decide +kernel,
    (view_without_ineffective cluttered.cleaned .builtin).2.2.1 hclean, hview document,
    by decide +kernel, hpart, (hnever [1] _ hpart .gt).2 hfound document "root.1"⟩

end ServerUi
