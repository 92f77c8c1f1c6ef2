import BlockCheck.Proofs.Json.DistinctKeys
import BlockCheck.Proofs.Scan.Mentions
import Mathlib.Data.List.Nodup

/-!
# Locations of references

In a document whose objects have distinct keys no two references have the same location, so a
location tells which reference is meant.
-/

namespace BlockCheck.Scan

theorem nodup_flatMap_cons {α : Type} {l : List α} {step : α → Step} {f : α → List Location}
    (hstep : (l.map step).Nodup) (hf : ∀ a ∈ l, (f a).Nodup) :
    (l.flatMap fun a => (f a).map (step a :: ·)).Nodup := by
  rw [List.nodup_flatMap]
  constructor
  · intro a ha
    exact (hf a ha).map fun _ _ h => List.tail_eq_of_cons_eq h
  · rw [List.Nodup, List.pairwise_map] at hstep
    refine hstep.imp fun {a b} hne x hx hy => ?_
    obtain ⟨_, -, rfl⟩ := List.mem_map.1 hx
    obtain ⟨_, -, hhead⟩ := List.mem_map.1 hy
    exact hne (List.head_eq_of_cons_eq hhead).symm

theorem map_location_under (step : Step) (rs : List Reference) :
    (rs.map (Reference.under step)).map (·.location) = (rs.map (·.location)).map (step :: ·) := by
  simp [Function.comp_def, Reference.under]

theorem nodup_keys_without {members : List (String × Json)} (h : (Record.keys members).Nodup)
    (key : String) : (Record.keys (Record.without key members)).Nodup :=
  h.sublist (List.filter_sublist.map Prod.fst)

theorem nodup_memberLocations (naming : Naming) (key : String) {members : List (String × Json)}
    (hkeys : (Record.keys members).Nodup)
    (h : ∀ m ∈ members, ((references naming key m.2).map (·.location)).Nodup) :
    ((memberReferences naming key members).map (·.location)).Nodup := by
  rw [memberReferences_eq, List.map_flatMap]
  simp only [map_location_under]
  apply nodup_flatMap_cons
  · rw [show (Record.without key members).map (fun m => Step.key m.1) =
      (Record.keys (Record.without key members)).map Step.key from List.map_map.symm]
    exact (nodup_keys_without hkeys key).map fun _ _ h => Step.key.inj h
  · intro m hm
    exact h m (List.mem_filter.1 hm).1

theorem nodup_indexSteps (items : List Json) : (items.zipIdx.map fun item => Step.index item.2).Nodup := by
  have hpositions : (items.zipIdx.map Prod.snd).Nodup := by
    rw [List.zipIdx_map_snd]
    exact List.nodup_range'
  rw [show items.zipIdx.map (fun item => Step.index item.2) =
    (items.zipIdx.map Prod.snd).map Step.index from List.map_map.symm]
  exact hpositions.map fun _ _ h => Step.index.inj h

theorem nodup_itemLocations (naming : Naming) (key : String) {items : List Json}
    (h : ∀ item ∈ items, ((references naming key item).map (·.location)).Nodup) :
    ((itemReferences naming key 0 items).map (·.location)).Nodup := by
  rw [itemReferences_eq, List.map_flatMap]
  simp only [map_location_under]
  apply nodup_flatMap_cons
  · exact nodup_indexSteps items
  · intro item hitem
    exact h item.1 (List.fst_mem_of_mem_zipIdx hitem)

theorem location_ne_nil_of_mem_memberReferences {naming : Naming} {key : String}
    {members : List (String × Json)} {r : Reference}
    (h : r ∈ memberReferences naming key members) : r.location ≠ [] := by
  rw [memberReferences_eq, List.mem_flatMap] at h
  obtain ⟨m, -, hr⟩ := h
  obtain ⟨inner, -, rfl⟩ := List.mem_map.1 hr
  exact List.cons_ne_nil _ _

theorem nodup_locations (naming : Naming) (key : String) {document : Json}
    (h : document.DistinctKeys) : ((references naming key document).map (·.location)).Nodup := by
  induction h with
  | null | bool | int | real | string => simp [references]
  | array _ ih => exact nodup_itemLocations naming key ih
  | @object members hkeys _ ih =>
    rw [references, List.map_append]
    cases hown : referenceOf naming key members with
    | none => exact nodup_memberLocations naming key hkeys ih
    | some r =>
      refine List.nodup_cons.2 ⟨fun hmem => ?_, nodup_memberLocations naming key hkeys ih⟩
      obtain ⟨inner, hinner, heq⟩ := List.mem_map.1 hmem
      exact location_ne_nil_of_mem_memberReferences hinner (heq.trans (of_referenceOf hown).2.1)

end BlockCheck.Scan
