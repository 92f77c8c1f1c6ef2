import BlockCheck.Record

/-!
# Names and values of records

What putting values into a record, one or many, and taking one out does to its names and to what
stands under them.
-/

namespace BlockCheck.Record

variable {α : Type} {key : String} {value : α} {record : List (String × α)}

theorem keys_insert_of_mem (h : key ∈ keys record) : keys (insert key value record) = keys record := by
  induction record with
  | nil => cases h
  | cons m rest ih =>
    obtain ⟨k, v⟩ := m
    by_cases hk : k = key
    · subst hk
      simp [insert, keys]
    · have hrest : key ∈ keys rest := (List.mem_cons.1 h).resolve_left (Ne.symm hk)
      simpa [insert, hk, keys] using ih hrest

theorem insert_of_not_mem (h : key ∉ keys record) : insert key value record = record ++ [(key, value)] := by
  induction record with
  | nil => rfl
  | cons m rest ih =>
    obtain ⟨k, v⟩ := m
    rw [keys, List.map_cons, List.mem_cons, not_or] at h
    obtain ⟨hk, hrest⟩ := h
    rw [insert, if_neg (Ne.symm hk), ih hrest, List.cons_append]

theorem keys_insert_of_not_mem (h : key ∉ keys record) :
    keys (insert key value record) = keys record ++ [key] := by
  rw [insert_of_not_mem h, keys, List.map_append]
  rfl

theorem nodup_keys_insert (h : (keys record).Nodup) : (keys (insert key value record)).Nodup := by
  by_cases hkey : key ∈ keys record
  · rwa [keys_insert_of_mem hkey]
  · rw [keys_insert_of_not_mem hkey, List.nodup_append]
    refine ⟨h, by simp, ?_⟩
    rintro a ha b hb rfl
    exact hkey (List.mem_singleton.1 hb ▸ ha)

theorem mem_of_lookup (h : record.lookup key = some value) : (key, value) ∈ record := by
  obtain ⟨before, after, rfl, -⟩ := List.lookup_eq_some_iff.1 h
  exact List.mem_append_right before List.mem_cons_self

theorem lookup_of_mem (hkeys : (keys record).Nodup) (h : (key, value) ∈ record) :
    record.lookup key = some value := by
  obtain ⟨before, after, rfl⟩ := List.append_of_mem h
  refine List.lookup_eq_some_iff.2 ⟨before, after, rfl, fun m hm => ?_⟩
  rw [keys, List.map_append, List.nodup_append] at hkeys
  have hne := hkeys.2.2 m.1 (List.mem_map_of_mem hm) key List.mem_cons_self
  exact bne_iff_ne.2 (Ne.symm hne)

theorem lookup_eq_none_iff : record.lookup key = none ↔ key ∉ keys record := by
  rw [← isSome_lookup_iff, Bool.not_eq_true, Option.isSome_eq_false_iff, Option.isNone_iff_eq_none]

theorem mem_insert {m : String × α} (h : m ∈ insert key value record) :
    m = (key, value) ∨ m ∈ record := by
  induction record with
  | nil => exact Or.inl (List.mem_singleton.1 h)
  | cons first rest ih =>
    obtain ⟨k, v⟩ := first
    by_cases hk : k = key
    · simp only [insert, if_pos hk, List.mem_cons] at h
      refine h.imp (fun he => ?_) (List.mem_cons_of_mem _)
      rw [he, hk]
    · simp only [insert, if_neg hk, List.mem_cons] at h
      rcases h with rfl | h
      · exact Or.inr List.mem_cons_self
      · exact (ih h).imp_right (List.mem_cons_of_mem _)

/-! ## Many values -/

section InsertAll

variable {more : List (String × α)}

theorem nodup_keys_insertAll (h : (keys record).Nodup) : (keys (insertAll more record)).Nodup := by
  induction more generalizing record with
  | nil => exact h
  | cons m rest ih => exact ih (nodup_keys_insert h)

theorem mem_insertAll {m : String × α} (h : m ∈ insertAll more record) : m ∈ more ∨ m ∈ record := by
  induction more generalizing record with
  | nil => exact .inr h
  | cons first rest ih =>
    rcases ih h with h | h
    · exact .inl (List.mem_cons_of_mem _ h)
    · rcases mem_insert h with rfl | h
      · exact .inl List.mem_cons_self
      · exact .inr h

theorem mem_keys_insertAll :
    key ∈ keys (insertAll more record) ↔ key ∈ keys more ∨ key ∈ keys record := by
  induction more generalizing record with
  | nil => simp [insertAll, keys]
  | cons m rest ih =>
    have hrest := @ih (insert m.1 m.2 record)
    rw [mem_keys_insert] at hrest
    refine hrest.trans ?_
    change _ ↔ key ∈ m.1 :: keys rest ∨ key ∈ keys record
    rw [List.mem_cons, or_assoc, or_left_comm]

theorem lookup_insertAll (hmore : (keys more).Nodup) (key : String) (record : List (String × α)) :
    (insertAll more record).lookup key = (more.lookup key).or (record.lookup key) := by
  induction more generalizing record with
  | nil => rfl
  | cons m rest ih =>
    obtain ⟨hfresh, hrest⟩ := List.nodup_cons.1 hmore
    refine (ih hrest _).trans ?_
    rw [lookup_insert, List.lookup_cons]
    by_cases hkey : key = m.1
    · subst hkey
      simp [lookup_eq_none_iff.2 hfresh]
    · rw [if_neg hkey, beq_eq_false_iff_ne.2 hkey]

end InsertAll

theorem lookup_without_of_ne {name : String} (h : key ≠ name) (record : List (String × α)) :
    (without name record).lookup key = record.lookup key := by
  induction record with
  | nil => rfl
  | cons m rest ih =>
    rw [without, List.filter_cons]
    split
    · rw [List.lookup_cons, List.lookup_cons, ← ih, without]
    · rename_i hm
      obtain rfl : m.1 = name := by simpa using hm
      rw [List.lookup_cons, beq_eq_false_iff_ne.2 h, ← ih, without]

end BlockCheck.Record
