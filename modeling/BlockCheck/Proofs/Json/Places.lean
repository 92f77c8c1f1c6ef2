import BlockCheck.Location
import BlockCheck.Proofs.Json.DistinctKeys
import Mathlib.Data.List.Nodup

/-!
# Places in a value

A location leads to a place step by step. The parts of a value are what one step leads to, in the order
in which they are written, and where keys are distinct there is one part for each step.
-/

namespace BlockCheck.Json

variable {value inner : Json} {step : Step}

def step? : Json → Step → Option Json
  | .object members, .key name => members.lookup name
  | .array items, .index position => items[position]?
  | _, _ => none

def at? : Json → Location → Option Json
  | value, [] => some value
  | value, step :: rest => (value.step? step).bind fun inner => at? inner rest

theorem at?_cons (h : value.step? step = some inner) (rest : Location) :
    value.at? (step :: rest) = inner.at? rest := by
  rw [at?, h, Option.bind_some]

/-! ## Parts -/

def parts : Json → List (Step × Json)
  | .object members => members.map fun m => (.key m.1, m.2)
  | .array items => items.zipIdx.map fun item => (.index item.2, item.1)
  | _ => []

theorem induction_parts {motive : Json → Prop}
    (h : ∀ value, (∀ p ∈ parts value, motive p.2) → motive value) (value : Json) : motive value := by
  induction value using Json.induction with
  | null | bool | int | real | string =>
    apply h
    simp [parts]
  | array items ih =>
    apply h
    intro p hp
    obtain ⟨item, hitem, rfl⟩ := List.mem_map.1 hp
    exact ih item.1 (List.fst_mem_of_mem_zipIdx hitem)
  | object members ih =>
    apply h
    intro p hp
    obtain ⟨m, hm, rfl⟩ := List.mem_map.1 hp
    exact ih m hm

theorem DistinctKeys.of_mem_parts {p : Step × Json} (h : value.DistinctKeys) (hp : p ∈ value.parts) :
    p.2.DistinctKeys := by
  cases h with
  | null | bool | int | real | string => simp [parts] at hp
  | array hitems =>
    obtain ⟨item, hitem, rfl⟩ := List.mem_map.1 hp
    exact hitems item.1 (List.fst_mem_of_mem_zipIdx hitem)
  | object _ hmembers =>
    obtain ⟨m, hm, rfl⟩ := List.mem_map.1 hp
    exact hmembers m hm

theorem DistinctKeys.nodup_steps (h : value.DistinctKeys) : (value.parts.map Prod.fst).Nodup := by
  cases h with
  | null | bool | int | real | string => simp [parts]
  | @array items _ =>
    have hpositions : (items.zipIdx.map Prod.snd).Nodup := by
      rw [List.zipIdx_map_snd]
      exact List.nodup_range'
    have hsteps : (parts (.array items)).map Prod.fst = (items.zipIdx.map Prod.snd).map Step.index := by
      rw [parts, List.map_map, List.map_map]
      rfl
    rw [hsteps]
    exact hpositions.map fun _ _ h => Step.index.inj h
  | @object members hkeys _ =>
    have hsteps : (parts (.object members)).map Prod.fst = (Record.keys members).map Step.key := by
      rw [parts, Record.keys, List.map_map, List.map_map]
      rfl
    rw [hsteps]
    exact hkeys.map fun _ _ h => Step.key.inj h

theorem DistinctKeys.step?_eq_some_iff (h : value.DistinctKeys) :
    value.step? step = some inner ↔ (step, inner) ∈ value.parts := by
  cases h with
  | null | bool | int | real | string => simp [step?, parts]
  | array hitems =>
    cases step with
    | key name => simp [step?, parts]
    | index position => simp [step?, parts, List.mk_mem_zipIdx_iff_getElem?]
  | @object members hkeys _ =>
    cases step with
    | index position => simp [step?, parts]
    | key name =>
      have hmem : (Step.key name, inner) ∈ parts (.object members) ↔ (name, inner) ∈ members := by
        simp [parts]
      rw [hmem]
      exact ⟨Record.mem_of_lookup, Record.lookup_of_mem hkeys⟩

theorem DistinctKeys.at?_cons_eq_some_iff (h : value.DistinctKeys) {rest : Location} :
    value.at? (step :: rest) = some inner ↔ ∃ p ∈ value.parts, p.1 = step ∧ p.2.at? rest = some inner := by
  rw [at?, Option.bind_eq_some_iff]
  constructor
  · rintro ⟨outer, houter, hinner⟩
    exact ⟨(step, outer), h.step?_eq_some_iff.1 houter, rfl, hinner⟩
  · rintro ⟨⟨_, outer⟩, houter, rfl, hinner⟩
    exact ⟨outer, h.step?_eq_some_iff.2 houter, hinner⟩

end BlockCheck.Json
