import Mathlib.Data.List.Forall2
import ServerUi.Mount
import ServerUi.Proofs.Blueprint.Shown
import ServerUi.Proofs.Interaction.Effect

/-!
# ServerUi.Proofs.Log.Warning — what a warning is for

A view is made by one walk and its notices are given by another.  Both stop at a closed gate, at an
unknown component and at a childless one, so the warnings of a view stand for its placeholders, one
for one and in the same order.  In the same way the warning of a dispatch stands for an incomplete
action.  Making a blueprint never warns.
-/

namespace ServerUi

namespace Notice

/-- The warnings among notices. -/
def warnings (notices : List Notice) : List Notice := upTo .warn notices

@[simp] theorem warnings_nil : warnings [] = [] := rfl

@[simp] theorem warnings_append (ns ms : List Notice) :
    warnings (ns ++ ms) = warnings ns ++ warnings ms := List.filter_append ..

/-- The notice warns of the placeholder. -/
def Marks (n : Notice) (p : Placeholder) : Prop :=
  ∃ component key, n = .unknownComponent component key ∧ p = .unknownComponent component

/-- The notice warns of the action, which had no effect. -/
def Skips (n : Notice) (a : Action) : Prop :=
  ∃ reason, a.effect = .nothing reason ∧ n = .actionSkipped reason a.kind

end Notice

open Notice

/-! ### Blueprints -/

mutual

/-- Making a blueprint warns of nothing. -/
theorem Node.warnings_blueprintNotices : ∀ n : Node, warnings n.blueprintNotices = []
  | ⟨component, _, content, _, _, handlers⟩ => by
    rw [Node.blueprintNotices, warnings_append, Content.warnings_blueprintNotices, List.append_nil,
      warnings, upTo, List.filter_eq_nil_iff]
    simp only [List.mem_map]
    rintro _ ⟨⟨event, _⟩, -, rfl⟩
    exact Bool.false_ne_true

theorem Content.warnings_blueprintNotices : ∀ c : Content, warnings c.blueprintNotices = []
  | .absent => by simp [Content.blueprintNotices]
  | .text _ => by simp [Content.blueprintNotices]
  | .nodes nodes => by
    rw [Content.blueprintNotices]
    exact warnings_blueprintsNotices nodes

theorem warnings_blueprintsNotices : ∀ nodes : List Node, warnings (blueprintsNotices nodes) = []
  | [] => by rw [blueprintsNotices]; rfl
  | n :: rest => by
    rw [blueprintsNotices, warnings_append, Node.warnings_blueprintNotices n,
      warnings_blueprintsNotices rest, List.append_nil]

end

theorem Setup.warnings_mountNotices (s : Setup) : warnings s.mountNotices = [] := by
  rw [mountNotices, warnings_append, Node.warnings_blueprintNotices]
  rfl

/-! ### Views -/

theorem Gate.warnings_notices (g : Gate) : warnings g.notices = [] := by
  unfold Gate.notices
  split <;> rfl

namespace View

theorem placeholders_element (e : Element) :
    (element e).placeholders = (preorders e.children).filterMap placeholder? := by
  rw [placeholders, preorder_element, List.filterMap_cons_none rfl]

end View

/-- What an adapter shows has the placeholders of what it is given to show. -/
theorem Component.IsAdapter.placeholders {c : Component} (hc : c.IsAdapter) (input : Input)
    (h : isChildless input.component = true → input.children = none) :
    (c.view input).placeholders =
      (View.preorders (input.children.getD [])).filterMap View.placeholder? := by
  obtain ⟨e, he, hw⟩ := hc input
  rw [he, View.placeholders_element, hw.children]
  cases hn : isChildless input.component with
  | true => simp [h hn]
  | false => simp

section Views

variable {registry : Registry} (document : Value)

mutual

/-- A view warns of every placeholder in it, in order, and of nothing else. -/
theorem Blueprint.warnings_viewNotices (hr : registry.AllAdapters) :
    ∀ (b : Blueprint) (key : String),
      List.Forall₂ Marks (warnings (b.viewNotices registry document key))
        (b.view registry document key).placeholders
  | ⟨component, _, gate, props, handlers, content⟩, key => by
    rw [Blueprint.viewNotices, Blueprint.view, warnings_append]
    have hgate : warnings (gate.toList.flatMap Gate.notices) = [] := by
      cases gate <;> simp [Gate.warnings_notices]
    rw [hgate, List.nil_append]
    -- a closed gate and an unknown component end both walks, and a childless one is given no views
    by_cases hg : gate.all (·.opens document) = true
    · rw [if_pos hg, if_pos hg]
      cases hc : registry.get? component with
      | none =>
        rw [if_neg (by simp [Registry.contains, hc])]
        exact .cons ⟨component, key, rfl, rfl⟩ .nil
      | some c =>
        rw [if_pos (by simp [Registry.contains, hc]), warnings_append,
          (hr _ c hc).placeholders _ fun hn => if_pos hn]
        have hviewed : warnings [.viewed component key] = [] := rfl
        rw [hviewed, List.append_nil]
        by_cases hn : isChildless component = true
        · simp only [if_pos hn, warnings_nil, Option.getD_none, View.preorders, List.filterMap_nil]
          exact .nil
        · simp only [if_neg hn]
          exact BlueprintContent.warnings_viewNotices hr content key
    · rw [if_neg hg, if_neg hg]
      exact .nil

theorem BlueprintContent.warnings_viewNotices (hr : registry.AllAdapters) :
    ∀ (content : BlueprintContent) (parent : String),
      List.Forall₂ Marks (warnings (content.viewNotices registry document parent))
        ((View.preorders ((content.views registry document parent).getD [])).filterMap
          View.placeholder?)
  | .absent, _ => by simp [BlueprintContent.viewNotices, BlueprintContent.views, View.preorders]
  | .text _, _ => by
    simp [BlueprintContent.viewNotices, BlueprintContent.views, View.preorders, View.preorder,
      View.placeholder?]
  | .nodes nodes, parent => by
    rw [BlueprintContent.viewNotices, BlueprintContent.views]
    exact warnings_siblingNotices hr parent (givenKeys nodes) nodes 0

theorem warnings_siblingNotices (hr : registry.AllAdapters) (parent : String)
    (taken : List String) : ∀ (bs : List Blueprint) (index : Nat),
      List.Forall₂ Marks (warnings (siblingNotices registry document parent taken bs index))
        ((View.preorders (viewSiblings registry document parent taken bs index)).filterMap
          View.placeholder?)
  | [], _ => by
    rw [siblingNotices, viewSiblings, View.preorders]
    exact .nil
  | b :: rest, index => by
    rw [siblingNotices, viewSiblings, View.preorders, warnings_append, List.filterMap_append]
    exact List.rel_append (Blueprint.warnings_viewNotices hr b _)
      (warnings_siblingNotices hr parent taken rest (index + 1))

end

end Views

/-! ### Dispatches -/

namespace Session

/-- Whatever has an effect is done without a warning. -/
theorem warnings_dispatchNotices_eq_nil (s : Session) {a : Action} (h : ¬ a.IsIncomplete) :
    warnings (s.dispatchNotices a) = [] := by
  unfold dispatchNotices
  cases he : a.effect with
  | goTo path =>
    show warnings (s.goToNotices path) = []
    unfold goToNotices
    split <;> rfl
  | write path value => rfl
  | handOver b =>
    show warnings [if s.hooks.action then .actionHandedOver b.kind else .actionDropped b.kind] = []
    split <;> rfl
  | nothing reason => exact absurd (Action.isIncomplete_iff_effect.mpr ⟨reason, he⟩) h

/-- Dispatching an action warns of it if it is incomplete. -/
theorem warnings_dispatchNotices (s : Session) (a : Action) :
    List.Forall₂ Skips (warnings (s.dispatchNotices a)) ([a].filter (·.IsIncomplete)) := by
  by_cases h : a.IsIncomplete
  · obtain ⟨reason, he⟩ := Action.isIncomplete_iff_effect.mp h
    rw [dispatchNotices, he, List.filter_cons_of_pos (by simpa using h)]
    exact .cons ⟨reason, he, rfl⟩ .nil
  · rw [s.warnings_dispatchNotices_eq_nil h, List.filter_cons_of_neg (by simpa using h)]
    exact .nil

end Session

end ServerUi
