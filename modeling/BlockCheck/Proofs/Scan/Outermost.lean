import BlockCheck.Proofs.Scan.Walks

/-!
# Outermost references

The search for one component stops at the objects it finds, while the references are found everywhere.
What the search finds are the references to the component that lie inside no other one.
-/

namespace BlockCheck.Scan

variable {naming : Naming} {key target : String} {value document : Json} {location : Location}

def identifierAt? (key : String) (document : Json) (location : Location) : Option String :=
  (document.at? location).bind (Json.stringAt? key)

/-- None of the objects that the location lies inside of refers to `target`. -/
def Outermost (key target : String) (document : Json) (location : Location) : Prop :=
  ∀ n < location.length, identifierAt? key document (location.take n) ≠ some target

instance : Decidable (Outermost key target document location) := Nat.decidableBallLT _ _

theorem outermost_nil : Outermost key target value [] := by
  intro n hn
  simp at hn

theorem outermost_cons (h : value.DistinctKeys) {p : Step × Json} (hp : p ∈ value.parts) :
    Outermost key target value (p.1 :: location) ↔
      value.stringAt? key ≠ some target ∧ Outermost key target p.2 location := by
  have hinside (n : Nat) :
      identifierAt? key value ((p.1 :: location).take (n + 1)) = identifierAt? key p.2 (location.take n) := by
    rw [identifierAt?, List.take_succ_cons, Json.at?_cons (h.step?_eq_some_iff.2 hp), identifierAt?]
  constructor
  · intro houter
    refine ⟨by simpa [identifierAt?, Json.at?] using houter 0 (by simp), fun n hn => ?_⟩
    rw [← hinside]
    exact houter (n + 1) (by simpa using hn)
  · rintro ⟨hhere, hrest⟩ n hn
    cases n with
    | zero => simpa [identifierAt?, Json.at?] using hhere
    | succ n =>
      rw [hinside]
      exact hrest n (by simpa using hn)

/-! ## What is found at a value and in its parts -/

def Reference.occurrence (r : Reference) : Occurrence := ⟨r.location, r.properties⟩

theorem occurrences_of_here (h : value.stringAt? key = some target) :
    ∃ members, value = .object members ∧ members.lookup key = some (.string target) ∧
      occurrences key target value = [⟨[], Record.without key members⟩] := by
  cases value with
  | object members =>
    refine ⟨members, rfl, bind_string?_eq_some_iff.1 h, ?_⟩
    rw [occurrences, if_pos (by exact h)]
  | _ => simp [Json.stringAt?, Json.get?] at h

theorem occurrences_of_parts (h : value.stringAt? key ≠ some target) :
    occurrences key target value = value.parts.flatMap fun p =>
      if p.1 = .key key then [] else (occurrences key target p.2).map (Occurrence.under p.1) := by
  cases value with
  | null | bool | int | real | string => rfl
  | array items =>
    rw [occurrences, itemOccurrences_eq, Json.parts, List.flatMap_map]
    simp
  | object members =>
    rw [occurrences, if_neg (by exact h), memberOccurrences_eq, flatMap_without, Json.parts,
      List.flatMap_map]
    simp

theorem identifier_of_reference? {node : Node} {r : Reference} (hnode : nodeOf? value = some node)
    (hr : node.reference? naming key = some r) :
    value.stringAt? key = some r.identifier ∧ r.location = [] := by
  obtain ⟨hlocation, rfl⟩ := nodeOf?_eq_some_iff.1 hnode
  unfold Node.reference? at hr
  split at hr
  · rename_i identifier hlookup
    split at hr
    · cases hr
    · cases hr
      exact ⟨bind_string?_eq_some_iff.2 hlookup, hlocation⟩
  · cases hr

/-! ## The search as a part of the sweep -/

def isOutermost (key target : String) (document : Json) (r : Reference) : Bool :=
  r.identifier = target ∧ Outermost key target document r.location

theorem isOutermost_under (h : value.DistinctKeys) (hhere : value.stringAt? key ≠ some target)
    {p : Step × Json} (hp : p ∈ value.parts) :
    isOutermost key target value ∘ Reference.under p.1 = isOutermost key target p.2 := by
  funext r
  simp [isOutermost, Reference.under, outermost_cons h hp, hhere]

theorem occurrences_eq_map_filter (h : value.DistinctKeys) (hkind : naming.classify target ≠ .external) :
    occurrences key target value =
      ((references naming key value).filter (isOutermost key target value)).map Reference.occurrence := by
  induction value using Json.induction_parts with
  | h value ih =>
    rw [references_eq, List.filter_append, List.map_append, List.filter_flatMap, List.map_flatMap]
    by_cases hhere : value.stringAt? key = some target
    · -- The search stops here, and nothing that the sweep finds inside is an outermost reference.
      obtain ⟨members, rfl, hlookup, hfound⟩ := occurrences_of_here hhere
      have hown : (nodeOf? (.object members)).bind (Node.reference? naming key) =
          some ⟨target, naming.classify target, [], Record.without key members⟩ := by
        simp [nodeOf?, Node.reference?, hlookup, hkind, Record.without]
      have hinside : ∀ p ∈ (Json.object members).parts, ∀ r : Reference,
          isOutermost key target (.object members) (r.under p.1) = false := by
        intro p hp r
        simp [isOutermost, Reference.under, outermost_cons h hp, hhere]
      rw [hfound, hown, Option.toList_some, List.filter_cons_of_pos (by simp [isOutermost, outermost_nil]),
        List.flatMap_eq_nil_iff.2]
      · rfl
      · intro p hp
        split
        · rfl
        · rw [List.map_eq_nil_iff, List.filter_eq_nil_iff]
          rintro _ hr
          obtain ⟨r, -, rfl⟩ := List.mem_map.1 hr
          simp [hinside p hp r]
    · -- The value itself is not found, so that what is outermost in a part is outermost in the whole.
      have hown : ((nodeOf? value).bind (Node.reference? naming key)).toList.filter
          (isOutermost key target value) = [] := by
        rw [List.filter_eq_nil_iff]
        intro r hr
        obtain ⟨node, hnode, hr⟩ := Option.bind_eq_some_iff.1 (Option.mem_toList.1 hr)
        have hne : r.identifier ≠ target := fun heq =>
          hhere (heq ▸ (identifier_of_reference? hnode hr).1)
        simp [isOutermost, hne]
      rw [hown, List.map_nil, List.nil_append, occurrences_of_parts hhere]
      refine List.flatMap_congr fun p hp => ?_
      split
      · rfl
      · rw [List.filter_map, isOutermost_under h hhere hp, ih p hp (h.of_mem_parts hp), List.map_map,
          List.map_map]
        rfl

/-- The search finds the outermost references to a component of the project or a saved block, in their
order, and nothing if and only if nothing refers to it. -/
theorem occurrences_eq_outermost (h : document.DistinctKeys) (hkind : naming.classify target ≠ .external) :
    occurrences key target document =
        ((references naming key document).filter fun r =>
          r.identifier = target ∧ Outermost key target document r.location).map
            (fun r => ⟨r.location, r.properties⟩) ∧
      (occurrences key target document = [] ↔
        ∀ r ∈ references naming key document, r.identifier ≠ target) := by
  refine ⟨occurrences_eq_map_filter h hkind, ?_⟩
  rw [occurrences_eq_nil_iff]
  constructor
  · rintro hnone r hr rfl
    exact hnone (mentions_of_mem_references hr)
  · intro hnone hmentions
    obtain ⟨o, ho⟩ := List.exists_mem_of_ne_nil _ (mt (occurrences_eq_nil_iff key target document).1
      (not_not.2 hmentions))
    exact hnone _ (mem_references_of_mem_occurrences hkind ho) rfl

theorem occurrences_boxes_eq_outermost :
    boxes.DistinctKeys ∧ ({} : Naming).classify "site/Box.tsx" ≠ .external ∧
    (references {} "__resolveType" boxes).map (·.location.text) =
      ["boxes[0]", "boxes[0].inner", "boxes[1].section", "boxes[2]"] ∧
    (occurrences "__resolveType" "site/Box.tsx" boxes).map (·.location.text) =
      ["boxes[0]", "boxes[1].section"] ∧
    occurrences "__resolveType" "site/Box.tsx" boxes =
      ((references {} "__resolveType" boxes).filter fun r =>
        r.identifier = "site/Box.tsx" ∧ Outermost "__resolveType" "site/Box.tsx" boxes r.location).map
          fun r => ⟨r.location, r.properties⟩ :=
  ⟨distinctKeys_boxes, by decide, by decide, by decide,
    (occurrences_eq_outermost distinctKeys_boxes (by decide)).1⟩

end BlockCheck.Scan
