import BlockCheck.Proofs.Scan.Mentions

/-!
# Renamed keys

A key is renamed in a value wherever it stands. If the new name is not in use, then looking for the new
name finds what looking for the old one found: the same references and the same occurrences at the same
locations, each with its properties renamed.
-/

namespace BlockCheck

namespace Json

def renamedKey (old new key : String) : String := if key = old then new else key

mutual

def renameKeys (old new : String) : Json → Json
  | .array items => .array (renameItems old new items)
  | .object members => .object (renameMembers old new members)
  | value => value

def renameItems (old new : String) : List Json → List Json
  | [] => []
  | item :: rest => item.renameKeys old new :: renameItems old new rest

def renameMembers (old new : String) : List (String × Json) → List (String × Json)
  | [] => []
  | member :: rest => renameMember old new member :: renameMembers old new rest

def renameMember (old new : String) : String × Json → String × Json
  | (key, value) => (renamedKey old new key, value.renameKeys old new)

end

inductive HasKey (key : String) : Json → Prop
  | here {members : List (String × Json)} : key ∈ Record.keys members → HasKey key (.object members)
  | member {members : List (String × Json)} {m : String × Json} : m ∈ members → HasKey key m.2 →
      HasKey key (.object members)
  | item {items : List Json} {value : Json} : value ∈ items → HasKey key value →
      HasKey key (.array items)

variable {old new key : String} {value : Json} {items : List Json} {members : List (String × Json)}

theorem hasKey_object :
    HasKey key (.object members) ↔ key ∈ Record.keys members ∨ ∃ m ∈ members, HasKey key m.2 := by
  constructor
  · intro h
    cases h with
    | here hkey => exact Or.inl hkey
    | member hm h => exact Or.inr ⟨_, hm, h⟩
  · rintro (hkey | ⟨m, hm, h⟩)
    · exact .here hkey
    · exact .member hm h

theorem renamedKey_of_ne (h : key ≠ old) (new : String) : renamedKey old new key = key := if_neg h

@[simp] theorem renamedKey_self (old new : String) : renamedKey old new old = new := if_pos rfl

theorem renameItems_eq (old new : String) (items : List Json) :
    renameItems old new items = items.map (renameKeys old new) := by
  induction items with
  | nil => rfl
  | cons item rest ih => rw [renameItems, ih, List.map_cons]

theorem renameMembers_eq (old new : String) (members : List (String × Json)) :
    renameMembers old new members =
      members.map fun m => (renamedKey old new m.1, m.2.renameKeys old new) := by
  induction members with
  | nil => rfl
  | cons m rest ih => rw [renameMembers, ih, List.map_cons, renameMember]

@[simp] theorem string?_renameKeys (old new : String) (value : Json) :
    (value.renameKeys old new).string? = value.string? := by
  cases value <;> simp [renameKeys, string?]

/-! ## The members of an object -/

theorem lookup_new_renameMembers (old : String) (h : new ∉ Record.keys members) :
    (renameMembers old new members).lookup new = (members.lookup old).map (renameKeys old new) := by
  induction members with
  | nil => rfl
  | cons m rest ih =>
    obtain ⟨k, v⟩ := m
    rw [Record.keys, List.map_cons, List.mem_cons, not_or] at h
    obtain ⟨hk, hrest⟩ := h
    by_cases hold : k = old
    · simp [renameMembers, renameMember, hold]
    · simp [renameMembers, renameMember, renamedKey_of_ne hold, List.lookup_cons,
        beq_eq_false_iff_ne.2 hk, beq_eq_false_iff_ne.2 (Ne.symm hold), ih hrest]

theorem lookup_renameMembers_of_ne (hold : key ≠ old) (hnew : key ≠ new) :
    (renameMembers old new members).lookup key = (members.lookup key).map (renameKeys old new) := by
  induction members with
  | nil => rfl
  | cons m rest ih =>
    obtain ⟨k, v⟩ := m
    by_cases hk : k = old
    · subst hk
      simp [renameMembers, renameMember, List.lookup_cons, beq_eq_false_iff_ne.2 hnew,
        beq_eq_false_iff_ne.2 hold, ih]
    · by_cases hkey : key = k
      · subst hkey
        simp [renameMembers, renameMember, renamedKey_of_ne hk]
      · simp [renameMembers, renameMember, renamedKey_of_ne hk, List.lookup_cons,
          beq_eq_false_iff_ne.2 hkey, ih]

theorem without_renameMembers (old : String) (h : new ∉ Record.keys members) :
    Record.without new (renameMembers old new members) =
      renameMembers old new (Record.without old members) := by
  induction members with
  | nil => rfl
  | cons m rest ih =>
    obtain ⟨k, v⟩ := m
    rw [Record.keys, List.map_cons, List.mem_cons, not_or] at h
    obtain ⟨hk, hrest⟩ := h
    have ih := ih hrest
    unfold Record.without at ih ⊢
    by_cases hold : k = old
    · simp [renameMembers, renameMember, hold, ih]
    · simp [renameMembers, renameMember, renamedKey_of_ne hold, hold, Ne.symm hk, ih]

theorem keys_renameMembers_of_notMem (new : String) (h : old ∉ Record.keys members) :
    Record.keys (renameMembers old new members) = Record.keys members := by
  rw [renameMembers_eq, Record.keys, Record.keys, List.map_map]
  refine List.map_congr_left fun m hm => renamedKey_of_ne ?_ new
  rintro rfl
  exact h (List.mem_map_of_mem hm)

theorem notMem_keys_renameMembers (old : String) (h : new ∉ Record.keys members) :
    old ∉ Record.keys (renameMembers old new members) := by
  rw [renameMembers_eq, Record.keys, List.map_map, List.mem_map]
  rintro ⟨m, hm, heq⟩
  by_cases hold : m.1 = old
  · have hnew : new = old := by simpa [hold] using heq
    rw [hnew, ← hold] at h
    exact h (List.mem_map_of_mem hm)
  · have hsame : m.1 = old := by simpa [renamedKey_of_ne hold] using heq
    exact hold hsame

theorem notMem_keys_without (key : String) (members : List (String × Json)) :
    key ∉ Record.keys (Record.without key members) := by
  simp [Record.keys, Record.without]

end Json

namespace Scan

variable {naming : Naming} {old new target : String} {value : Json} {members : List (String × Json)}

def Reference.renameKeys (old new : String) (r : Reference) : Reference :=
  { r with properties := Json.renameMembers old new r.properties }

def Occurrence.renameKeys (old new : String) (o : Occurrence) : Occurrence :=
  { o with properties := Json.renameMembers old new o.properties }

/-! ## What is found under the new name -/

theorem identifier_renameMembers (old : String) (h : new ∉ Record.keys members) :
    ((Json.renameMembers old new members).lookup new).bind Json.string? =
      (members.lookup old).bind Json.string? := by
  have hstring : Json.string? ∘ Json.renameKeys old new = Json.string? := funext fun value =>
    Json.string?_renameKeys old new value
  rw [Json.lookup_new_renameMembers old h, Option.bind_map, hstring]

theorem referenceOf_renameMembers (naming : Naming) (old : String) (h : new ∉ Record.keys members) :
    referenceOf naming new (Json.renameMembers old new members) =
      (referenceOf naming old members).map (Reference.renameKeys old new) := by
  unfold referenceOf
  rw [identifier_renameMembers old h, Json.without_renameMembers old h]
  cases (members.lookup old).bind Json.string? with
  | none => rfl
  | some identifier =>
    dsimp only
    cases naming.classify identifier <;> rfl

theorem flatMap_renameMembers {α : Type} {f g : String × Json → List α}
    (h : ∀ m ∈ Record.without old members, g (m.1, m.2.renameKeys old new) = f m) :
    (Json.renameMembers old new (Record.without old members)).flatMap g =
      (Record.without old members).flatMap f := by
  rw [Json.renameMembers_eq, List.flatMap_map]
  refine List.flatMap_congr fun m hm => ?_
  rw [Json.renamedKey_of_ne (by simpa using (List.mem_filter.1 hm).2)]
  exact h m hm

theorem flatMap_renameItems {α : Type} {items : List Json} {f g : Json × Nat → List α}
    (h : ∀ item ∈ items.zipIdx, g (item.1.renameKeys old new, item.2) = f item) :
    (Json.renameItems old new items).zipIdx.flatMap g = items.zipIdx.flatMap f := by
  rw [Json.renameItems_eq, List.zipIdx_map, List.flatMap_map]
  exact List.flatMap_congr h

theorem references_renameKeys (naming : Naming) (old : String) (h : ¬value.HasKey new) :
    references naming new (value.renameKeys old new) =
      (references naming old value).map (Reference.renameKeys old new) := by
  induction value using Json.induction with
  | null | bool | int | real | string => simp [Json.renameKeys, references]
  | array items ih =>
    rw [Json.renameKeys, references, references, itemReferences_eq, itemReferences_eq, List.map_flatMap]
    refine flatMap_renameItems fun item hitem => ?_
    have hmem := List.fst_mem_of_mem_zipIdx hitem
    dsimp only
    rw [ih item.1 hmem fun hkey => h (.item hmem hkey), List.map_map, List.map_map]
    rfl
  | object members ih =>
    rw [Json.hasKey_object, not_or] at h
    obtain ⟨hkeys, hinner⟩ := h
    rw [Json.renameKeys, references, references, referenceOf_renameMembers naming old hkeys,
      memberReferences_eq, memberReferences_eq, Json.without_renameMembers old hkeys, List.map_append,
      List.map_flatMap, Option.toList_map]
    congr 1
    refine flatMap_renameMembers fun m hm => ?_
    have hmem := (List.mem_filter.1 hm).1
    dsimp only
    rw [ih m hmem fun hkey => hinner ⟨m, hmem, hkey⟩, List.map_map, List.map_map]
    rfl

theorem occurrences_renameKeys (old target : String) (h : ¬value.HasKey new) :
    occurrences new target (value.renameKeys old new) =
      (occurrences old target value).map (Occurrence.renameKeys old new) := by
  induction value using Json.induction with
  | null | bool | int | real | string => simp [Json.renameKeys, occurrences]
  | array items ih =>
    rw [Json.renameKeys, occurrences, occurrences, itemOccurrences_eq, itemOccurrences_eq, List.map_flatMap]
    refine flatMap_renameItems fun item hitem => ?_
    have hmem := List.fst_mem_of_mem_zipIdx hitem
    dsimp only
    rw [ih item.1 hmem fun hkey => h (.item hmem hkey), List.map_map, List.map_map]
    rfl
  | object members ih =>
    rw [Json.hasKey_object, not_or] at h
    obtain ⟨hkeys, hinner⟩ := h
    rw [Json.renameKeys, occurrences, occurrences, identifier_renameMembers old hkeys,
      Json.without_renameMembers old hkeys]
    split
    · rfl
    · rw [memberOccurrences_eq, memberOccurrences_eq, Json.without_renameMembers old hkeys,
        List.map_flatMap]
      refine flatMap_renameMembers fun m hm => ?_
      have hmem := (List.mem_filter.1 hm).1
      dsimp only
      rw [ih m hmem fun hkey => hinner ⟨m, hmem, hkey⟩, List.map_map, List.map_map]
      rfl

/-! ## The properties that are found -/

theorem hasKey_of_without (key : String) (h : Json.HasKey new (.object (Record.without key members))) :
    Json.HasKey new (.object members) := by
  rw [Json.hasKey_object] at h ⊢
  rcases h with hkey | ⟨m, hm, h⟩
  · exact Or.inl (((List.filter_sublist).map Prod.fst).subset hkey)
  · exact Or.inr ⟨m, (List.mem_filter.1 hm).1, h⟩

theorem hasKey_of_stands {key : String} (hstands : Stands key members value)
    (h : Json.HasKey new (.object (Record.without key members))) : value.HasKey new := by
  induction hstands with
  | here => exact hasKey_of_without key h
  | member hm _ _ ih => exact .member hm ih
  | item hitem _ ih => exact .item hitem ih

theorem properties_of_mem_references {r : Reference} (h : r ∈ references naming old value) :
    old ∉ Record.keys r.properties ∧
      (Json.HasKey new (.object r.properties) → value.HasKey new) := by
  obtain ⟨members, hstands, hr⟩ := stands_of_mem_references h
  obtain ⟨-, -, hproperties⟩ := of_referenceOf hr
  rw [show r.properties = _ from hproperties]
  exact ⟨Json.notMem_keys_without old members, hasKey_of_stands hstands⟩

theorem hasKey_of_mem_occurrences {o : Occurrence} (h : o ∈ occurrences old target value)
    (hkey : Json.HasKey new (.object o.properties)) : value.HasKey new := by
  induction value using Json.induction generalizing o with
  | null | bool | int | real | string =>
    simp [occurrences] at h
  | array items ih =>
    rw [occurrences, itemOccurrences_eq, List.mem_flatMap] at h
    obtain ⟨item, hitem, h⟩ := h
    obtain ⟨inner, hinner, rfl⟩ := List.mem_map.1 h
    have hmem := List.fst_mem_of_mem_zipIdx hitem
    exact .item hmem (ih item.1 hmem hinner hkey)
  | object members ih =>
    rw [occurrences] at h
    split at h
    · rw [List.mem_singleton.1 h] at hkey
      exact hasKey_of_without old hkey
    · rw [memberOccurrences_eq, List.mem_flatMap] at h
      obtain ⟨m, hm, h⟩ := h
      obtain ⟨inner, hinner, rfl⟩ := List.mem_map.1 h
      have hmem := (List.mem_filter.1 hm).1
      exact .member hmem (ih m hmem hinner hkey)

end Scan

end BlockCheck
