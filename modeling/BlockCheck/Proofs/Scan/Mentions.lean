import BlockCheck.Proofs.Lists
import BlockCheck.Scan

/-!
# What a document mentions

A document mentions an identifier where an object has it as its discriminator. An object that stands
inside a discriminator does not count. The search for one component stops at the objects it finds, so
it does not find every mention, but it finds one whenever there is any, and what it finds are
references.
-/

namespace BlockCheck.Scan

variable {key identifier target : String} {naming : Naming} {members : List (String × Json)}
  {items : List Json} {value : Json}

/-- An object stands in the value, and not inside anything at `key`. -/
inductive Stands (key : String) (members : List (String × Json)) : Json → Prop
  | here : Stands key members (.object members)
  | member {outer : List (String × Json)} {m : String × Json} : m ∈ outer → m.1 ≠ key →
      Stands key members m.2 → Stands key members (.object outer)
  | item {items : List Json} {value : Json} : value ∈ items → Stands key members value →
      Stands key members (.array items)

def Mentions (key identifier : String) (value : Json) : Prop :=
  ∃ members, Stands key members value ∧ members.lookup key = some (.string identifier)

theorem bind_string?_eq_some_iff {found : Option Json} {s : String} :
    found.bind Json.string? = some s ↔ found = some (.string s) := by
  cases found with
  | none => simp
  | some value => cases value <;> simp [Json.string?]

theorem mentions_object :
    Mentions key identifier (.object members) ↔ members.lookup key = some (.string identifier) ∨
      ∃ m ∈ Record.without key members, Mentions key identifier m.2 := by
  constructor
  · rintro ⟨inner, hstands, hlookup⟩
    cases hstands with
    | here => exact Or.inl hlookup
    | @member _ m hm hkey hinner =>
      exact Or.inr ⟨m, List.mem_filter.2 ⟨hm, by simpa using hkey⟩, inner, hinner, hlookup⟩
  · rintro (hlookup | ⟨m, hm, inner, hinner, hlookup⟩)
    · exact ⟨members, .here, hlookup⟩
    · obtain ⟨hm, hkey⟩ := List.mem_filter.1 hm
      exact ⟨inner, .member hm (by simpa using hkey) hinner, hlookup⟩

theorem mentions_array :
    Mentions key identifier (.array items) ↔ ∃ item ∈ items, Mentions key identifier item := by
  constructor
  · rintro ⟨inner, hstands, hlookup⟩
    cases hstands with
    | item hitem hinner => exact ⟨_, hitem, inner, hinner, hlookup⟩
  · rintro ⟨item, hitem, inner, hinner, hlookup⟩
    exact ⟨inner, .item hitem hinner, hlookup⟩

theorem not_mentions (hobject : ∀ members, value ≠ .object members)
    (harray : ∀ items, value ≠ .array items) : ¬Mentions key identifier value := by
  rintro ⟨inner, hstands, -⟩
  cases hstands with
  | here => exact hobject _ rfl
  | member => exact hobject _ rfl
  | item => exact harray _ rfl

/-! ## Occurrences -/

theorem memberOccurrences_eq (key target : String) (members : List (String × Json)) :
    memberOccurrences key target members = (Record.without key members).flatMap fun m =>
      (occurrences key target m.2).map (Occurrence.under (.key m.1)) := by
  induction members with
  | nil => rfl
  | cons m rest ih =>
    rw [memberOccurrences, ih, singleMemberOccurrences]
    by_cases hm : m.1 = key <;> simp [Record.without, hm]

theorem itemOccurrences_eq (key target : String) (position : Nat) (items : List Json) :
    itemOccurrences key target position items = (items.zipIdx position).flatMap fun item =>
      (occurrences key target item.1).map (Occurrence.under (.index item.2)) := by
  induction items generalizing position with
  | nil => rfl
  | cons item rest ih => rw [itemOccurrences, ih, List.zipIdx_cons, List.flatMap_cons]

theorem occurrences_eq_nil_iff (key target : String) (value : Json) :
    occurrences key target value = [] ↔ ¬Mentions key target value := by
  induction value using Json.induction with
  | null | bool | int | real | string =>
    exact iff_of_true (by simp [occurrences]) (not_mentions nofun nofun)
  | array items ih =>
    rw [occurrences, itemOccurrences_eq, List.flatMap_eq_nil_iff, mentions_array]
    simp only [List.map_eq_nil_iff, not_exists, not_and]
    rw [forall_mem_zipIdx items fun item => occurrences key target item = []]
    exact forall₂_congr ih
  | object members ih =>
    rw [occurrences, mentions_object]
    by_cases hhere : (members.lookup key).bind Json.string? = some target
    · rw [if_pos hhere]
      exact iff_of_false (List.cons_ne_nil _ _) fun h =>
        h (Or.inl (bind_string?_eq_some_iff.1 hhere))
    · rw [if_neg hhere, memberOccurrences_eq, List.flatMap_eq_nil_iff, ← bind_string?_eq_some_iff]
      simp only [List.map_eq_nil_iff, hhere, false_or, not_exists, not_and]
      exact forall₂_congr fun m hm => ih m (List.mem_filter.1 hm).1

/-! ## References -/

/-- The reference that an object is stands at the object itself, and has all its members but one. -/
theorem of_referenceOf {r : Reference} (h : referenceOf naming key members = some r) :
    members.lookup key = some (.string r.identifier) ∧ r.location = [] ∧
      r.properties = Record.without key members := by
  rw [← bind_string?_eq_some_iff]
  unfold referenceOf at h
  split at h
  · cases h
  · split at h
    · cases h
    · cases h
      exact ⟨‹_›, rfl, rfl⟩

theorem referenceOf_of_lookup (hkind : naming.classify identifier ≠ .external)
    (h : members.lookup key = some (.string identifier)) :
    referenceOf naming key members =
      some ⟨identifier, naming.classify identifier, [], Record.without key members⟩ := by
  unfold referenceOf
  rw [bind_string?_eq_some_iff.2 h]
  cases hclass : naming.classify identifier with
  | external => exact absurd hclass hkind
  | localComponent => simp [hclass]
  | savedBlock => simp [hclass]

theorem stands_of_mem_references {r : Reference} (h : r ∈ references naming key value) :
    ∃ members, Stands key members value ∧ referenceOf naming key members = some { r with location := [] } := by
  induction value using Json.induction generalizing r with
  | null | bool | int | real | string =>
    simp [references] at h
  | array items ih =>
    rw [references, itemReferences_eq, List.mem_flatMap] at h
    obtain ⟨item, hitem, h⟩ := h
    obtain ⟨inner, hinner, rfl⟩ := List.mem_map.1 h
    have hmem := List.fst_mem_of_mem_zipIdx hitem
    obtain ⟨members, hstands, hr⟩ := ih item.1 hmem hinner
    exact ⟨members, .item hmem hstands, hr⟩
  | object members ih =>
    rw [references, memberReferences_eq, List.mem_append, List.mem_flatMap] at h
    rcases h with hhere | ⟨m, hm, h⟩
    · have hr := Option.mem_toList.1 hhere
      exact ⟨members, .here, by rw [hr, ← (of_referenceOf hr).2.1]⟩
    · obtain ⟨inner, hinner, rfl⟩ := List.mem_map.1 h
      obtain ⟨hmem, hkey⟩ := List.mem_filter.1 hm
      obtain ⟨members, hstands, hr⟩ := ih m hmem hinner
      exact ⟨members, .member hmem (by simpa using hkey) hstands, hr⟩

theorem mentions_of_mem_references {r : Reference} (h : r ∈ references naming key value) :
    Mentions key r.identifier value := by
  obtain ⟨members, hstands, hr⟩ := stands_of_mem_references h
  exact ⟨members, hstands, (of_referenceOf hr).1⟩

theorem mem_references_of_mem_occurrences (hkind : naming.classify target ≠ .external)
    {o : Occurrence} (h : o ∈ occurrences key target value) :
    ⟨target, naming.classify target, o.location, o.properties⟩ ∈ references naming key value := by
  induction value using Json.induction generalizing o with
  | null | bool | int | real | string =>
    simp [occurrences] at h
  | array items ih =>
    rw [occurrences, itemOccurrences_eq, List.mem_flatMap] at h
    obtain ⟨item, hitem, h⟩ := h
    obtain ⟨inner, hinner, rfl⟩ := List.mem_map.1 h
    rw [references, itemReferences_eq, List.mem_flatMap]
    exact ⟨item, hitem,
      List.mem_map.2 ⟨_, ih _ (List.fst_mem_of_mem_zipIdx hitem) hinner, rfl⟩⟩
  | object members ih =>
    rw [occurrences] at h
    rw [references, List.mem_append]
    split at h
    · rename_i hhere
      rw [List.mem_singleton.1 h]
      exact Or.inl (Option.mem_toList.2
        (referenceOf_of_lookup hkind (bind_string?_eq_some_iff.1 hhere)))
    · rw [memberOccurrences_eq, List.mem_flatMap] at h
      obtain ⟨m, hm, h⟩ := h
      obtain ⟨inner, hinner, rfl⟩ := List.mem_map.1 h
      rw [memberReferences_eq, List.mem_flatMap]
      exact Or.inr ⟨m, hm, List.mem_map.2 ⟨_, ih m (List.mem_filter.1 hm).1 hinner, rfl⟩⟩

end BlockCheck.Scan
