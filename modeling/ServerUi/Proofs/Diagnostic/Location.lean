import Mathlib.Data.List.Basic
import ServerUi.Diagnostic
import ServerUi.Proofs.Number.Decimal

/-!
# ServerUi.Proofs.Diagnostic.Location — where a finding is made

A position leads from the root to a node by the indices of children.  The checks come to every
position that no childless component stands above, and what they find there names the position:
distinct positions have distinct locations (`location_injective`).
-/

namespace ServerUi

/-- The children that are checked: those of a childless component are not. -/
def Node.checkedChildren (n : Node) : List Node :=
  match isChildless n.component, n.content with
  | false, .nodes nodes => nodes
  | _, _ => []

/-- A checked child is smaller than its node, so recursion on them ends. -/
theorem Node.sizeOf_lt_of_mem_checkedChildren {n child : Node} (h : child ∈ n.checkedChildren) :
    sizeOf child < sizeOf n := by
  obtain ⟨component, props, content, key, gate, handlers⟩ := n
  unfold checkedChildren at h
  split at h
  · rename_i nodes _ hcontent
    obtain rfl : content = .nodes nodes := hcontent
    have hlt := List.sizeOf_lt_of_mem h
    simp only [Node.mk.sizeOf_spec, Content.nodes.sizeOf_spec]
    omega
  · cases h

/-- The node that is checked at a position below `n`. -/
def Node.checked? (n : Node) : List Nat → Option Node
  | [] => some n
  | index :: position => n.checkedChildren[index]?.bind (·.checked? position)

namespace Diagnose

/-- Where the child at an index is. -/
def childLocation (parent : String) (index : Nat) : String :=
  parent ++ ".children[" ++ toString index ++ "]"

/-- Where a position below a node is. -/
def location (top : String) (position : List Nat) : String := position.foldl childLocation top

/-! ### Locations -/

theorem toList_childLocation (parent : String) (index : Nat) :
    (childLocation parent index).toList =
      parent.toList ++ (".children[".toList ++ (Nat.toDigits 10 index ++ [']'])) := by
  simp [childLocation, Nat.toString_eq_repr, Nat.toList_repr]

/-- A location is the place of the root with one index for every step. -/
theorem toList_location (top : String) (position : List Nat) :
    (location top position).toList = top.toList ++
      position.flatMap fun index => ".children[".toList ++ (Nat.toDigits 10 index ++ [']']) := by
  induction position generalizing top with
  | nil => simp [location]
  | cons index rest ih =>
    have ih : (location (childLocation top index) rest).toList = _ := ih _
    rw [toList_childLocation, List.append_assoc] at ih
    rwa [List.flatMap_cons]

/-- The digits of an index end where its bracket closes. -/
theorem location_injective (top : String) : Function.Injective (location top) := by
  intro position position' h
  have hlist := congrArg String.toList h
  rw [toList_location, toList_location] at hlist
  have hends : Decimal.EndsDigits ([']'] ++ ".children[".toList) := by
    rintro c ⟨⟩
    decide
  exact Decimal.flatMap_toDigits_injective (by decide) hends (List.append_cancel_left hlist)

/-! ### Findings at a position -/

section Findings

variable {registry : Registry} {place : String} {finding : Finding}

/-- What is found at a node itself and at content that it never shows. -/
def foundAt (registry : Registry) (n : Node) (place : String) : List Diagnostic :=
  ownFindings registry n.component n.gate n.handlers place ++
    if isChildless n.component then located (place ++ ".children") (ignored n.component n.content)
    else []

theorem mem_located {findings : List Finding} {place' : String} :
    ⟨place, finding⟩ ∈ located place' findings ↔ place = place' ∧ finding ∈ findings := by
  simp [located, and_comm, eq_comm]

/-- Comparing keys finds nothing but keys that stand twice. -/
theorem ne_duplicateKey_of_mem_repeats {seen : List String} {key : Option String}
    (h : finding ∈ repeats seen key) : ∃ k, finding = .duplicateKey k := by
  cases key with
  | none => cases h
  | some k =>
    rw [repeats] at h
    split at h
    · exact ⟨k, List.mem_singleton.mp h⟩
    · cases h

/-- What may be found at a node itself: its component, its gate, its handlers, or its content. -/
theorem mem_foundAt_iff {n : Node} {place place' : String} {finding : Finding} :
    ⟨place', finding⟩ ∈ foundAt registry n place ↔
      (place' = place ∧ registry.contains n.component = false ∧
        finding = .unknownComponent n.component) ∨
      (place' = place ++ ".when" ∧ ∃ g ∈ n.gate, finding ∈ gate g) ∨
      (∃ event action, (event, action) ∈ n.handlers.getD [] ∧
        place' = place ++ ".on." ++ event.spelling ∧ finding ∈ handler event action) ∨
      (place' = place ++ ".children" ∧ isChildless n.component = true ∧
        finding ∈ ignored n.component n.content) := by
  have hunknown : finding ∈ (if registry.contains n.component then []
      else [Finding.unknownComponent n.component]) ↔
        registry.contains n.component = false ∧ finding = .unknownComponent n.component := by
    cases registry.contains n.component <;> simp
  have hchildless : ⟨place', finding⟩ ∈ (if isChildless n.component then
      located (place ++ ".children") (ignored n.component n.content) else []) ↔
        place' = place ++ ".children" ∧ isChildless n.component = true ∧
          finding ∈ ignored n.component n.content := by
    cases isChildless n.component <;> simp [mem_located]
  rw [foundAt, List.mem_append, hchildless, ownFindings, List.mem_append, List.mem_append,
    mem_located, mem_located, hunknown, List.mem_flatMap]
  simp only [List.mem_flatMap, Option.mem_toList, Prod.exists, mem_located, or_assoc,
    Option.mem_def]

section NotDuplicate

variable (hf : ∀ key, finding ≠ .duplicateKey key)

include hf

/-- But for keys that stand twice, what is found among siblings is found in one of them. -/
theorem mem_siblings_iff {parent : String} : ∀ {nodes : List Node} {seen : List String}
    {index : Nat}, ⟨place, finding⟩ ∈ siblings registry parent nodes seen index ↔
      ∃ i child, nodes[i]? = some child ∧
        ⟨place, finding⟩ ∈ node registry child (childLocation parent (index + i))
  | [], _, _ => by simp [siblings]
  | n :: rest, seen, index => by
    have ih : ⟨place, finding⟩ ∈ siblings registry parent rest (n.key.toList ++ seen) (index + 1) ↔
        _ := mem_siblings_iff
    -- the one finding that is made among siblings and not at one of them
    have hrepeats : ⟨place, finding⟩ ∉
        located (childLocation parent index) (repeats seen n.key) := by
      intro h
      obtain ⟨key, hkey⟩ := ne_duplicateKey_of_mem_repeats (mem_located.mp h).2
      exact hf key hkey
    rw [siblings, List.mem_append, List.mem_append, ih]
    constructor
    · rintro ((h | h) | ⟨i, child, hchild, h⟩)
      · exact absurd h hrepeats
      · exact ⟨0, n, rfl, h⟩
      · refine ⟨i + 1, child, hchild, ?_⟩
        rwa [show index + (i + 1) = index + 1 + i by omega]
    · rintro ⟨_ | i, child, hchild, h⟩
      · obtain rfl := Option.some.inj hchild
        exact .inl (.inr h)
      · refine .inr ⟨i, child, hchild, ?_⟩
        rwa [show index + 1 + i = index + (i + 1) by omega]

/-- One step down: a finding is made at the node or at one of its children. -/
theorem mem_node_iff {n : Node} {top : String} :
    ⟨place, finding⟩ ∈ node registry n top ↔ ⟨place, finding⟩ ∈ foundAt registry n top ∨
      ∃ i child, n.checkedChildren[i]? = some child ∧
        ⟨place, finding⟩ ∈ node registry child (childLocation top i) := by
  obtain ⟨component, props, content, key, gate, handlers⟩ := n
  rw [node, foundAt, Node.checkedChildren, List.mem_append, List.mem_append]
  cases hc : isChildless component with
  | true => simp
  | false =>
    cases content with
    | nodes nodes =>
      have hsiblings : ⟨place, finding⟩ ∈ siblings registry top nodes [] 0 ↔ _ :=
        mem_siblings_iff hf
      simp only [Bool.false_eq_true, if_false, inside, hsiblings, Nat.zero_add, List.not_mem_nil,
        or_false]
    | _ => simp [inside]

/-- A finding that is not about siblings is made at a checked position. -/
theorem mem_node_iff_foundAt (n : Node) (top : String) :
    ⟨place, finding⟩ ∈ node registry n top ↔ ∃ position part, n.checked? position = some part ∧
      ⟨place, finding⟩ ∈ foundAt registry part (location top position) := by
  -- a position is empty or begins with the index of a child
  rw [mem_node_iff hf]
  constructor
  · rintro (h | ⟨i, child, hchild, h⟩)
    · exact ⟨[], n, rfl, h⟩
    · have := Node.sizeOf_lt_of_mem_checkedChildren (List.mem_of_getElem? hchild)
      obtain ⟨position, part, hpart, h⟩ := (mem_node_iff_foundAt child _).mp h
      exact ⟨i :: position, part, by rw [Node.checked?, hchild]; exact hpart, h⟩
  · rintro ⟨_ | ⟨i, position⟩, part, hpart, h⟩
    · obtain rfl := Option.some.inj hpart
      exact .inl h
    · obtain ⟨child, hchild, hpart⟩ := Option.bind_eq_some_iff.mp hpart
      have := Node.sizeOf_lt_of_mem_checkedChildren (List.mem_of_getElem? hchild)
      exact .inr ⟨i, child, hchild, (mem_node_iff_foundAt child _).mpr ⟨position, part, hpart, h⟩⟩
termination_by sizeOf n

end NotDuplicate

end Findings

end Diagnose

end ServerUi
