/-!
# Records

Values under names, in the order in which the names came first. A name that is given another
value keeps its place.
-/

namespace BlockCheck.Record

def insert (key : String) (value : α) : List (String × α) → List (String × α)
  | [] => [(key, value)]
  | (k, v) :: rest => if k = key then (k, value) :: rest else (k, v) :: insert key value rest

def insertAll (more record : List (String × α)) : List (String × α) :=
  more.foldl (fun r m => insert m.1 m.2 r) record

def without (key : String) (record : List (String × α)) : List (String × α) :=
  record.filter (fun m => m.1 != key)

def keys (record : List (String × α)) : List String := record.map Prod.fst

def hasKey (key : String) (record : List (String × α)) : Bool := record.any (fun m => m.1 = key)

theorem hasKey_iff {key : String} {record : List (String × α)} :
    hasKey key record = true ↔ key ∈ keys record := by
  simp [hasKey, keys]

theorem isSome_lookup_iff {key : String} {record : List (String × α)} :
    (record.lookup key).isSome = true ↔ key ∈ keys record := by
  rw [List.lookup_isSome_iff, keys, List.mem_map]
  exact exists_congr fun m => and_congr_right fun _ => by rw [beq_iff_eq, eq_comm]

theorem lookup_insert (key k : String) (value : α) (record : List (String × α)) :
    (insert key value record).lookup k = if k = key then some value else record.lookup k := by
  induction record with
  | nil =>
    by_cases h : k = key
    · simp [insert, h]
    · simp [insert, List.lookup_cons, h, beq_eq_false_iff_ne.2 h]
  | cons m rest ih =>
    obtain ⟨k', v⟩ := m
    by_cases h : k' = key
    · subst h
      by_cases h' : k = k'
      · simp [insert, h']
      · simp [insert, List.lookup_cons, h', beq_eq_false_iff_ne.2 h']
    · by_cases h' : k = k'
      · subst h'; simp [insert, h]
      · simp [insert, List.lookup_cons, h, beq_eq_false_iff_ne.2 h', ih]

theorem mem_keys_insert (key k : String) (value : α) (record : List (String × α)) :
    k ∈ keys (insert key value record) ↔ k = key ∨ k ∈ keys record := by
  induction record with
  | nil => simp [insert, keys]
  | cons m rest ih =>
    obtain ⟨k', v⟩ := m
    by_cases h : k' = key
    · subst h; simp [insert, keys]
    · simp only [insert, if_neg h, keys, List.map_cons, List.mem_cons] at ih ⊢
      rw [show k ∈ List.map Prod.fst (insert key value rest) ↔
        k = key ∨ k ∈ List.map Prod.fst rest from ih]
      exact or_left_comm

end BlockCheck.Record
