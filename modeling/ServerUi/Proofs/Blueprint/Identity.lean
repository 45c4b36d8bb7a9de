import Mathlib.Data.List.Nodup
import Mathlib.Data.List.Perm.Subperm
import Mathlib.Data.Nat.Find
import Mathlib.Data.String.Basic
import ServerUi.Blueprint

/-!
# ServerUi.Proofs.Blueprint.Identity — the identities of children without keys

A blueprint has the key of its node.  The identity of a child without a key is its position with as
many tildes behind it as it takes to avoid the keys of its siblings, and no more
(`positionalKey_eq`).  Of one more candidate than there are siblings one is free, so the bound of
`avoid` is never reached.
-/

namespace ServerUi

/-! ### Keys given by the schema -/

theorem Node.key_blueprint (n : Node) : n.blueprint.key = n.key := by
  obtain ⟨component, props, content, key, gate, handlers⟩ := n
  rw [Node.blueprint]

theorem Node.identity_blueprint (n : Node) : n.blueprint.identity = n.key.getD rootIdentity := by
  rw [Blueprint.identity, n.key_blueprint]

theorem givenKeys_blueprints : ∀ nodes : List Node,
    givenKeys (blueprints nodes) = nodes.filterMap Node.key
  | [] => rfl
  | n :: rest => by
    have ih := givenKeys_blueprints rest
    unfold givenKeys at ih ⊢
    rw [blueprints, List.filterMap_cons, List.filterMap_cons, n.key_blueprint, ih]

/-! ### Positional keys -/

/-- The key with tildes behind it. -/
def tilded (key : String) (count : Nat) : String := key ++ String.ofList (List.replicate count '~')

theorem toList_tilded (key : String) (count : Nat) :
    (tilded key count).toList = key.toList ++ List.replicate count '~' := by
  simp [tilded]

theorem tilded_zero (key : String) : tilded key 0 = key := by
  rw [← String.toList_inj, toList_tilded]
  simp

theorem tilded_succ (key : String) (count : Nat) :
    tilded key (count + 1) = tilded (key ++ "~") count := by
  rw [← String.toList_inj, toList_tilded, toList_tilded, String.toList_append, List.append_assoc,
    List.replicate_succ]
  rfl

/-- Different numbers of tildes make different keys. -/
theorem tilded_injective (key : String) : Function.Injective (tilded key) := by
  intro count count' h
  have hlist := congrArg String.toList h
  rw [toList_tilded, toList_tilded] at hlist
  simpa using congrArg List.length (List.append_cancel_left hlist)

/-- Of one more candidate than there are keys one is free. -/
theorem exists_tilded_not_mem (taken : List String) (key : String) :
    ∃ count, tilded key count ∉ taken ∧ count ≤ taken.length := by
  by_contra h
  -- otherwise the keys would contain more different candidates than there are keys
  have hmem : (List.range (taken.length + 1)).map (tilded key) ⊆ taken := by
    intro k hk
    obtain ⟨count, hcount, rfl⟩ := List.mem_map.mp hk
    have hle : count ≤ taken.length := Nat.lt_succ_iff.mp (List.mem_range.mp hcount)
    exact Classical.byContradiction fun hk => h ⟨count, hk, hle⟩
  have hnodup : ((List.range (taken.length + 1)).map (tilded key)).Nodup :=
    List.Nodup.map (tilded_injective key) List.nodup_range
  have hlength := (hnodup.subperm hmem).length_le
  simp at hlength

theorem exists_free (taken : List String) (key : String) : ∃ count, tilded key count ∉ taken :=
  (exists_tilded_not_mem taken key).imp fun _ h => h.1

/-- The least number of tildes that makes a key none of the taken ones. -/
def fewestTildes (taken : List String) (key : String) : Nat := Nat.find (exists_free taken key)

theorem tilded_fewestTildes_not_mem (taken : List String) (key : String) :
    tilded key (fewestTildes taken key) ∉ taken :=
  Nat.find_spec (exists_free taken key)

/-- No more tildes are needed than there are keys. -/
theorem fewestTildes_le (taken : List String) (key : String) :
    fewestTildes taken key ≤ taken.length := by
  obtain ⟨count, hfree, hle⟩ := exists_tilded_not_mem taken key
  exact (Nat.find_min' (exists_free taken key) hfree).trans hle

theorem fewestTildes_of_not_mem {taken : List String} {key : String} (h : key ∉ taken) :
    fewestTildes taken key = 0 := by
  refine (Nat.find_eq_zero _).mpr ?_
  rwa [tilded_zero]

/-- A key that is taken needs one tilde and what it then needs further. -/
theorem fewestTildes_of_mem {taken : List String} {key : String} (h : key ∈ taken) :
    fewestTildes taken key = fewestTildes taken (key ++ "~") + 1 := by
  refine (Nat.find_eq_iff _).mpr ⟨?_, ?_⟩
  · rw [tilded_succ]
    exact tilded_fewestTildes_not_mem taken (key ++ "~")
  · rintro (_ | count) hlt
    · rwa [tilded_zero, not_not]
    · rw [tilded_succ]
      exact Nat.find_min (exists_free taken (key ++ "~")) (Nat.lt_of_succ_lt_succ hlt)

/-- As long as the bound allows it, the search ends at the fewest tildes. -/
theorem avoid_eq_tilded (taken : List String) : ∀ (fuel : Nat) (key : String),
    fewestTildes taken key ≤ fuel → avoid taken fuel key = tilded key (fewestTildes taken key)
  | 0, key, h => by rw [avoid, Nat.le_zero.mp h, tilded_zero]
  | fuel + 1, key, h => by
    by_cases hkey : key ∈ taken
    · rw [fewestTildes_of_mem hkey] at h ⊢
      rw [avoid, if_pos (List.contains_iff_mem.mpr hkey), tilded_succ]
      exact avoid_eq_tilded taken fuel (key ++ "~") (Nat.le_of_succ_le_succ h)
    · rw [avoid, if_neg (by simpa using hkey), fewestTildes_of_not_mem hkey, tilded_zero]

/-- A positional key is the position with the fewest tildes that keep it clear of its siblings. -/
theorem positionalKey_eq (parent : String) (index : Nat) (taken : List String) :
    positionalKey parent index taken =
      let position := parent ++ "." ++ toString index
      tilded position (fewestTildes taken position) :=
  avoid_eq_tilded taken taken.length _ (fewestTildes_le taken _)

end ServerUi
