import ServerUi.Component.Builtin
import ServerUi.Proofs.Dict.Order

/-!
# ServerUi.Proofs.Component.Builtin — every built-in component is one element

A built-in component chooses a tag and attributes and takes the rest of its element from its input
(`Wraps`).  `builtin_view` says so for whatever the built-in registry holds under a name; nothing
else about the single components is needed to follow a view through a tree.
-/

namespace ServerUi

namespace Registry

/-- What is registered under a name is found there, and nothing else changes. -/
theorem get?_register (r : Registry) (name : String) (c : Component) (n : String) :
    (r.register name c).get? n = if n = name then some c else r.get? n :=
  Dict.get?_insert n name c r.entries

/-- What a registry of tags holds was there before or is one of the tags. -/
theorem get?_tags {name : String} {c : Component} :
    ∀ {tags : List (String × String × String)} {r : Registry},
      (tags.foldl (fun r (name, tag, class_) => r.register name (.tag tag class_)) r).get? name =
          some c →
        r.get? name = some c ∨ ∃ tag class_, (name, tag, class_) ∈ tags ∧ c = .tag tag class_
  | [], _, h => .inl h
  | (name', tag, class_) :: tags, r, h => by
    rw [List.foldl_cons] at h
    obtain h | ⟨tag', class', hmem, hc⟩ := get?_tags h
    · rw [get?_register] at h
      by_cases hn : name = name'
      · rw [if_pos hn] at h
        obtain rfl := Option.some.inj h
        exact .inr ⟨tag, class_, by simp [hn], rfl⟩
      · rw [if_neg hn] at h
        exact .inl h
    · exact .inr ⟨tag', class', List.mem_cons_of_mem _ hmem, hc⟩

/-- The built-in components, by what they are made of. -/
theorem builtin_cases {name : String} {c : Component} (h : builtin.get? name = some c) :
    (∃ tag class_, (name, tag, class_) ∈ builtinTags ∧ c = .tag tag class_) ∨
      (name = "Heading" ∧ c = .heading) ∨ (name = "Checkbox" ∧ c = .checkbox) ∨
      (name = "Switch" ∧ c = .switch) ∨ (name = "Alert" ∧ c = .alert) := by
  -- the name that was registered last is asked for first, and the tags at the end
  unfold builtin at h
  simp only [get?_register] at h
  by_cases ha : name = "Alert"
  · rw [if_pos ha, Option.some.injEq] at h
    exact .inr (.inr (.inr (.inr ⟨ha, h.symm⟩)))
  rw [if_neg ha] at h
  by_cases hs : name = "Switch"
  · rw [if_pos hs, Option.some.injEq] at h
    exact .inr (.inr (.inr (.inl ⟨hs, h.symm⟩)))
  rw [if_neg hs] at h
  by_cases hb : name = "Checkbox"
  · rw [if_pos hb, Option.some.injEq] at h
    exact .inr (.inr (.inl ⟨hb, h.symm⟩))
  rw [if_neg hb] at h
  by_cases hh : name = "Heading"
  · rw [if_pos hh, Option.some.injEq] at h
    exact .inr (.inl ⟨hh, h.symm⟩)
  rw [if_neg hh] at h
  obtain h | h := get?_tags h
  · simp [get?, empty] at h
  · exact .inl h

end Registry

namespace Component

/-- The element has everything but its tag and its attributes from the input. -/
structure Wraps (input : Input) (e : Element) : Prop where
  component : e.component = input.component
  key : e.key = some input.key
  handlers : e.handlers = input.handlers
  children : e.children = if isChildless input.component then [] else input.children.getD []
  void : e.void = isChildless input.component

/-- The component wraps every input in an element. -/
def IsAdapter (c : Component) : Prop := ∀ input, ∃ e, c.view input = .element e ∧ Wraps input e

theorem element_wraps (input : Input) (tag class_ : String) :
    Wraps input (element input tag class_) := ⟨rfl, rfl, rfl, rfl, rfl⟩

theorem Wraps.attrs {input : Input} {e : Element} (h : Wraps input e) (attrs : Members) :
    Wraps input { e with attrs } := ⟨h.component, h.key, h.handlers, h.children, h.void⟩

theorem Wraps.setAttrIfAbsent {input : Input} {e : Element} (h : Wraps input e) (name : String)
    (v : Value) : Wraps input (setAttrIfAbsent e name v) := by
  unfold Component.setAttrIfAbsent
  split
  · exact h
  · exact h.attrs _

theorem tag_setAttrIfAbsent (e : Element) (name : String) (v : Value) :
    (setAttrIfAbsent e name v).tag = e.tag := by
  unfold setAttrIfAbsent
  split <;> rfl

/-- The tags of the built-in components. -/
def hostTags : List String :=
  builtinTags.map (fun (_, tag, _) => tag) ++ ["h1", "h2", "h3", "h4", "h5", "h6"]

/-- The level of a heading is one of six, whatever the props are. -/
theorem headingLevel_mem (props : Members) : headingLevel props ∈ [1, 2, 3, 4, 5, 6] := by
  have hbounds : 1 ≤ headingLevel props ∧ headingLevel props ≤ 6 := by
    unfold headingLevel
    split
    · split
      · omega
      · omega
    · omega
  simp only [List.mem_cons, List.not_mem_nil, or_false]
  omega

theorem heading_mem_hostTags (props : Members) :
    "h" ++ toString (headingLevel props) ∈ hostTags := by
  have hheadings : ∀ level ∈ [1, 2, 3, 4, 5, 6], "h" ++ toString level ∈ hostTags := by decide
  exact hheadings _ (headingLevel_mem props)

/-- What the built-in registry holds under a name is an adapter with one of the host tags. -/
theorem builtin_view {name : String} {c : Component} (h : Registry.builtin.get? name = some c)
    (input : Input) : ∃ e, c.view input = .element e ∧ Wraps input e ∧ e.tag ∈ hostTags := by
  obtain ⟨tag, class_, hmem, rfl⟩ | ⟨-, rfl⟩ | ⟨-, rfl⟩ | ⟨-, rfl⟩ | ⟨-, rfl⟩ :=
    Registry.builtin_cases h
  · refine ⟨_, rfl, element_wraps input tag class_, ?_⟩
    exact List.mem_append_left _ (List.mem_map.mpr ⟨_, hmem, rfl⟩)
  · exact ⟨_, rfl, (element_wraps input _ _).attrs _, heading_mem_hostTags input.props⟩
  · have htag : "input" ∈ hostTags := by decide
    exact ⟨_, rfl, (element_wraps input _ _).attrs _, htag⟩
  · refine ⟨_, rfl, ((element_wraps input _ _).attrs _).setAttrIfAbsent _ _, ?_⟩
    rw [tag_setAttrIfAbsent]
    show "input" ∈ hostTags
    decide
  · refine ⟨_, rfl, (element_wraps input _ _).setAttrIfAbsent _ _, ?_⟩
    rw [tag_setAttrIfAbsent]
    show "div" ∈ hostTags
    decide

end Component

/-- Every component of the registry is an adapter. -/
def Registry.AllAdapters (r : Registry) : Prop :=
  ∀ name c, r.get? name = some c → c.IsAdapter

/-- The built-in components are all adapters. -/
theorem Registry.builtin_allAdapters : builtin.AllAdapters := by
  intro name c h input
  obtain ⟨e, he, hw, -⟩ := Component.builtin_view h input
  exact ⟨e, he, hw⟩

end ServerUi
