import ServerUi.Proofs.Blueprint.Position
import ServerUi.Proofs.Diagnostic.Location

/-!
# ServerUi.Proofs.Blueprint.Sibling — siblings are told apart

The identity of a child without a key is its position, with tildes behind it until no sibling has
that key.  Positions of siblings differ in their digits, which end where the tildes begin, so no two
of them meet (`positionalKey_injective`).  Keys that the schema gives can only meet each other, and
then the checks find it: the checks come to every node that is shown.
-/

namespace ServerUi

/-! ### Positional keys -/

theorem toList_position (parent : String) (index count : Nat) :
    (tilded (parent ++ "." ++ toString index) count).toList =
      parent.toList ++ '.' :: (Nat.toDigits 10 index ++ List.replicate count '~') := by
  rw [toList_tilded]
  simp [Nat.toString_eq_repr, Nat.toList_repr]

/-- The digits of a position end where its tildes begin. -/
theorem endsDigits_tildes (count : Nat) : Decimal.EndsDigits (List.replicate count '~') := by
  intro c hc
  rw [List.eq_of_mem_replicate (List.mem_of_head? hc)]
  decide

/-- Siblings without keys get different positional keys. -/
theorem positionalKey_injective (parent : String) (taken : List String) :
    Function.Injective (positionalKey parent · taken) := by
  intro i j h
  replace h : positionalKey parent i taken = positionalKey parent j taken := h
  rw [positionalKey_eq, positionalKey_eq] at h
  have hlist := congrArg String.toList h
  rw [toList_position, toList_position] at hlist
  obtain ⟨-, htail⟩ := List.cons.inj (List.append_cancel_left hlist)
  exact (Decimal.toDigits_append_inj (endsDigits_tildes _) (endsDigits_tildes _) htail).1

theorem positionalKey_not_mem (parent : String) (index : Nat) (taken : List String) :
    positionalKey parent index taken ∉ taken := by
  rw [positionalKey_eq]
  exact tilded_fewestTildes_not_mem taken _

/-! ### Identities of siblings -/

section Identities

variable {n child sibling : Node} {identity : String} {i j : Nat}

/-- A child without a key has an identity that no other child has. -/
theorem Node.childIdentity_ne (hsibling : n.children[j]? = some sibling) (hkey : child.key = none)
    (hij : i ≠ j) : n.childIdentity identity i child ≠ n.childIdentity identity j sibling := by
  rw [childIdentity, childIdentity, hkey, Option.getD_none]
  cases hk : sibling.key with
  | none => exact fun h => hij (positionalKey_injective identity _ h)
  | some k =>
    -- the key of the sibling is one of those that the position avoids
    have hmem : k ∈ n.children.filterMap key :=
      List.mem_filterMap.mpr ⟨sibling, List.mem_of_getElem? hsibling, hk⟩
    rw [Option.getD_some]
    exact fun h => positionalKey_not_mem identity i _ (h ▸ hmem)

/-- The same below the root: a part without a key shares its identity with no sibling. -/
theorem Node.identityAt?_ne (hkey : child.key = none) (hij : i ≠ j) :
    ∀ {position : List Nat} {n : Node} {identity : String},
      n.at? (position ++ [i]) = some child →
      n.identityAt? identity (position ++ [i]) ≠ n.identityAt? identity (position ++ [j])
  | [], n, identity, h => by
    obtain ⟨nodes, c, hcontent, hchild, h⟩ := at?_cons_eq_some.mp h
    obtain rfl := Option.some.inj h
    rw [List.nil_append, List.nil_append, identityAt?_cons hcontent hchild]
    -- where there is no sibling there is no identity to differ from
    cases hsibling : nodes[j]? with
    | none =>
      rw [identityAt?, identityAt?, children_of_content hcontent, hsibling]
      exact Option.some_ne_none _
    | some sibling =>
      rw [identityAt?_cons hcontent hsibling, identityAt?, identityAt?, ne_eq, Option.some.injEq]
      exact childIdentity_ne (by rwa [children_of_content hcontent]) hkey hij
  | k :: position, n, identity, h => by
    obtain ⟨nodes, c, hcontent, hchild, h⟩ := at?_cons_eq_some.mp h
    rw [List.cons_append, List.cons_append, identityAt?_cons hcontent hchild,
      identityAt?_cons hcontent hchild]
    exact identityAt?_ne hkey hij h

theorem Node.key_ne_of_nodup {nodes : List Node} (hkeys : (nodes.filterMap key).Nodup)
    (hchild : nodes[i]? = some child) (hsibling : nodes[j]? = some sibling) (hij : i ≠ j)
    {k : String} (hk : child.key = some k) : sibling.key ≠ some k := by
  have hpairwise := List.pairwise_iff_getElem.mp (List.pairwise_filterMap.mp hkeys)
  obtain ⟨hi, rfl⟩ := List.getElem?_eq_some_iff.mp hchild
  obtain ⟨hj, rfl⟩ := List.getElem?_eq_some_iff.mp hsibling
  intro hk'
  obtain hlt | hlt := Nat.lt_or_gt_of_ne hij
  · exact hpairwise i j hi hj hlt k hk k hk' rfl
  · exact hpairwise j i hj hi hlt k hk' k hk rfl

/-- If no key is given twice, no two children have one identity. -/
theorem Node.childIdentity_ne_of_nodup (hkeys : (n.children.filterMap key).Nodup)
    (hchild : n.children[i]? = some child) (hsibling : n.children[j]? = some sibling)
    (hij : i ≠ j) : n.childIdentity identity i child ≠ n.childIdentity identity j sibling := by
  cases hk : child.key with
  | none => exact childIdentity_ne hsibling hk hij
  | some k =>
    cases hk' : sibling.key with
    | none => exact (childIdentity_ne hchild hk' hij.symm).symm
    | some k' =>
      rw [childIdentity, childIdentity, hk, hk', Option.getD_some, Option.getD_some]
      rintro rfl
      exact key_ne_of_nodup hkeys hchild hsibling hij hk hk'

end Identities

/-! ### Duplicate keys are found -/

/-- The finding is a key that a sibling has too. -/
def Finding.isDuplicateKey : Finding → Bool
  | duplicateKey _ => true
  | _ => false

/-- Some key is found twice. -/
def anyDuplicateKey (diagnostics : List Diagnostic) : Bool :=
  diagnostics.any (·.finding.isDuplicateKey)

theorem anyDuplicateKey_append {ds ds' : List Diagnostic} :
    anyDuplicateKey (ds ++ ds') = false ↔ anyDuplicateKey ds = false ∧ anyDuplicateKey ds' = false := by
  rw [anyDuplicateKey, List.any_append, Bool.or_eq_false_iff]
  rfl

namespace Diagnose

variable {registry : Registry}

theorem not_mem_of_repeats {location key : String} {seen : List String}
    (h : anyDuplicateKey (located location (repeats seen (some key))) = false) : key ∉ seen := by
  intro hmem
  rw [repeats, if_pos (List.contains_iff_mem.mpr hmem)] at h
  cases h

/-- Where no duplicate key is found among siblings, their keys differ from each other and from those
before them, and none is found below them. -/
theorem keys_of_siblings {parent : String} : ∀ {nodes : List Node} {seen : List String}
    {index : Nat}, anyDuplicateKey (siblings registry parent nodes seen index) = false →
      (nodes.filterMap Node.key).Nodup ∧ (∀ k ∈ nodes.filterMap Node.key, k ∉ seen) ∧
        ∀ child ∈ nodes, ∃ location, anyDuplicateKey (node registry child location) = false
  | [], _, _, _ => ⟨List.nodup_nil, fun _ hk => (List.not_mem_nil hk).elim,
      fun _ hc => (List.not_mem_nil hc).elim⟩
  | n :: rest, seen, index, h => by
    rw [siblings, anyDuplicateKey_append, anyDuplicateKey_append] at h
    obtain ⟨⟨hrepeats, hnode⟩, hrest⟩ := h
    -- the siblings behind are checked against the key of this one too
    obtain ⟨hnodup, hseen, hbelow⟩ := keys_of_siblings hrest
    have hbelow : ∀ child ∈ n :: rest, ∃ location,
        anyDuplicateKey (node registry child location) = false :=
      List.forall_mem_cons.mpr ⟨⟨_, hnode⟩, hbelow⟩
    cases hk : n.key with
    | none =>
      rw [hk, Option.toList_none, List.nil_append] at hseen
      rw [List.filterMap_cons_none hk]
      exact ⟨hnodup, hseen, hbelow⟩
    | some k =>
      rw [hk] at hrepeats
      rw [hk, Option.toList_some, List.singleton_append] at hseen
      rw [List.filterMap_cons_some hk]
      refine ⟨List.nodup_cons.mpr ⟨fun hm => hseen k hm List.mem_cons_self, hnodup⟩,
        List.forall_mem_cons.mpr ⟨not_mem_of_repeats hrepeats, fun k' hm hs => ?_⟩, hbelow⟩
      exact hseen k' hm (List.mem_cons_of_mem _ hs)

/-- If no key is reported twice in a node, none is given twice among its children, nor below them.
-/
theorem keys_of_node {n : Node} {nodes : List Node} {location : String}
    (hn : isChildless n.component = false) (hcontent : n.content = .nodes nodes)
    (h : anyDuplicateKey (node registry n location) = false) :
    (nodes.filterMap Node.key).Nodup ∧
      ∀ child ∈ nodes, ∃ location, anyDuplicateKey (node registry child location) = false := by
  obtain ⟨component, props, content, key, gate, handlers⟩ := n
  obtain rfl : content = .nodes nodes := hcontent
  rw [node, anyDuplicateKey_append, if_neg (by simp [show isChildless component = false from hn]),
    inside] at h
  obtain ⟨hnodup, -, hbelow⟩ := keys_of_siblings h.2
  exact ⟨hnodup, hbelow⟩

end Diagnose

/-- The same for every part that the checks reach. -/
theorem Node.IsWithin.keys_nodup {registry : Registry} {part n : Node} (h : part.IsWithin n)
    {location : String} (hn : anyDuplicateKey (Diagnose.node registry n location) = false)
    (hpart : isChildless part.component = false) : (part.children.filterMap key).Nodup := by
  induction h generalizing location with
  | self =>
    cases hcontent : part.content with
    | nodes nodes =>
      rw [children_of_content hcontent]
      exact (Diagnose.keys_of_node hpart hcontent hn).1
    | _ =>
      rw [children, hcontent]
      exact List.nodup_nil
  | child hchildless hcontent hm _ ih =>
    obtain ⟨location', hchild⟩ := (Diagnose.keys_of_node hchildless hcontent hn).2 _ hm
    exact ih hchild

/-! ### Keys in a view -/

/-- The key of an element. -/
def View.key? : View → Option String
  | element e => e.key
  | _ => none

section Views

variable {registry : Registry} {document : Value}

/-- An element is shown under the identity of its node. -/
theorem Node.key_of_view_eq_element (hr : registry.AllAdapters) {n : Node} {key : String}
    {e : Element} (h : n.blueprint.view registry document key = .element e) : e.key = some key := by
  obtain ⟨c, -, -, hw⟩ := view_eq_element hr h
  exact hw.key

/-- If the view of a node has a key, it is the identity of the node. -/
theorem Node.key?_view (hr : registry.AllAdapters) {n : Node} {key k : String}
    (h : (n.blueprint.view registry document key).key? = some k) : k = key := by
  cases hv : n.blueprint.view registry document key with
  | element e =>
    rw [hv, View.key?, key_of_view_eq_element hr hv] at h
    exact (Option.some.inj h).symm
  | _ =>
    rw [hv] at h
    cases h

/-- The keys that the children of a view show are different, if the node gives none twice. -/
theorem Node.keys_of_children_view_nodup (hr : registry.AllAdapters) {n : Node} (key : String)
    (hkeys : isChildless n.component = false → (n.children.filterMap Node.key).Nodup) :
    ((n.blueprint.view registry document key).children.filterMap View.key?).Nodup := by
  rw [List.Nodup, List.pairwise_filterMap, List.pairwise_iff_getElem]
  intro i j hi hj hij k hk k' hk'
  obtain ⟨hn, ⟨text, htext⟩ | ⟨nodes, child, hcontent, hchild, hview⟩⟩ :=
    cases_children_view hr (List.getElem?_eq_getElem hi)
  · -- a text has no key
    rw [htext] at hk
    cases hk
  obtain ⟨-, ⟨text, htext⟩ | ⟨nodes', sibling, hcontent', hsibling, hview'⟩⟩ :=
    cases_children_view hr (List.getElem?_eq_getElem hj)
  · rw [htext] at hk'
    cases hk'
  rw [hview] at hk
  rw [hview'] at hk'
  obtain rfl := key?_view hr hk
  obtain rfl := key?_view hr hk'
  rw [← children_of_content hcontent] at hchild
  rw [← children_of_content hcontent'] at hsibling
  exact childIdentity_ne_of_nodup (hkeys hn) hchild hsibling (Nat.ne_of_lt hij)

end Views

/-- An element has the identity of its node as its key.  The identity of a node without a key is
that of none of its siblings, and if no duplicate key is found in a schema then no two elements next
to each other have one key.  A position never takes more tildes to avoid the keys of siblings than
there are keys, and never more than it needs. -/
theorem Schema.siblings_told_apart (s : Schema) (document : Value) :
    let n := s.root
    let v := n.view .builtin document
    let identity := n.identityAt? (n.key.getD rootIdentity)
    (∀ position e, v.at? position = some (.element e) →
        (n.at? position).isSome ∧ e.key = identity position) ∧
      (∀ position i j child, n.at? (position ++ [i]) = some child → child.key = none → i ≠ j →
        identity (position ++ [i]) ≠ identity (position ++ [j])) ∧
      (anyDuplicateKey (s.diagnostics .builtin) = false →
        ∀ x ∈ v.preorder, (x.children.filterMap View.key?).Nodup) ∧
      ∀ parent index taken, ∃ count ≤ taken.length,
        let position := parent ++ "." ++ toString index
        positionalKey parent index taken = tilded position count ∧ tilded position count ∉ taken ∧
          ∀ fewer < count, tilded position fewer ∈ taken := by
  intro n v identity
  have hroot : n.blueprint.identity = n.key.getD rootIdentity := n.identity_blueprint
  have hr : Registry.builtin.AllAdapters := Registry.builtin_allAdapters
  refine ⟨fun position e h => ?_, fun position i j child hchild hkey hij => ?_,
    fun hduplicate x hx => ?_, fun parent index taken => ?_⟩
  · obtain ⟨part, k, hpart, hidentity, -, hview⟩ := Node.exists_of_at?_view_element hr h
    rw [hroot] at hidentity
    refine ⟨by rw [hpart]; rfl, ?_⟩
    rw [Node.key_of_view_eq_element hr hview]
    exact hidentity.symm
  · exact Node.identityAt?_ne hkey hij hchild
  · obtain ⟨position, hat⟩ := (View.mem_preorder_iff_at? v x).mp hx
    obtain ⟨text, rfl⟩ | ⟨part, k, -, -, hwithin, rfl⟩ := Node.exists_of_at?_view hr hat
    · exact List.nodup_nil
    · exact part.keys_of_children_view_nodup hr k (hwithin.keys_nodup hduplicate)
  · refine ⟨fewestTildes taken (parent ++ "." ++ toString index), fewestTildes_le taken _,
      positionalKey_eq parent index taken, tilded_fewestTildes_not_mem taken _, fun fewer hlt => ?_⟩
    exact Classical.not_not.mp (Nat.find_min (exists_free taken _) hlt)

/-- Keys that look like positions with and without tildes, beside children without keys. -/
def Schema.lookalikes : Schema :=
  .node ((Node.ofComponent "List").setNodes
    [(Node.ofComponent "ListItem").setKey "root.1",
      (Node.ofComponent "ListItem").setNodes [.ofComponent "Text"],
      (Node.ofComponent "ListItem").setKey "root.1~",
      (Node.ofComponent "ListItem").setGate ⟨"user", .exist, none⟩,
      (Node.ofComponent "ListItem").setKey "root.3"])

theorem Schema.siblings_told_apart_lookalikes :
    anyDuplicateKey (lookalikes.diagnostics .builtin) = false ∧
      let v := lookalikes.root.view .builtin (.obj [("user", .bool true)])
      v.elements.map (·.key) = [some "root", some "root.1", some "root.1~~", some "root.1~~.0",
        some "root.1~", some "root.3~", some "root.3"] ∧
      lookalikes.root.identityAt? "root" [1] ≠ lookalikes.root.identityAt? "root" [0] ∧
      ∀ x ∈ v.preorder, (x.children.filterMap View.key?).Nodup := by
  have hduplicate : anyDuplicateKey (lookalikes.diagnostics .builtin) = false := by decide +kernel
  obtain ⟨-, hne, hnodup, -⟩ := siblings_told_apart lookalikes (.obj [("user", .bool true)])
  exact ⟨hduplicate, by decide +kernel, hne [] 1 0 _ rfl rfl (by decide), hnodup hduplicate⟩

end ServerUi
