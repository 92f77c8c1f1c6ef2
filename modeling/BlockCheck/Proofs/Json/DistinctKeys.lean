import BlockCheck.Json.Parser
import BlockCheck.Proofs.Records

/-!
# Keys of a value that was read

No object that is read from a text has a key twice: a key that is written again takes the new value
in its old place.
-/

namespace BlockCheck.Json

/-- No object in the value has a key twice. -/
inductive DistinctKeys : Json → Prop
  | null : DistinctKeys .null
  | bool (b : Bool) : DistinctKeys (.bool b)
  | int (n : Int) : DistinctKeys (.int n)
  | real (x : Number.Binary64) : DistinctKeys (.real x)
  | string (s : String) : DistinctKeys (.string s)
  | array {items : List Json} : (∀ item ∈ items, DistinctKeys item) → DistinctKeys (.array items)
  | object {members : List (String × Json)} : (Record.keys members).Nodup →
      (∀ m ∈ members, DistinctKeys m.2) → DistinctKeys (.object members)

/-! ## What the reader builds -/

theorem distinctKeys_of_literal? {s rest : List Char} {j : Json} (h : literal? s = some (j, rest)) :
    j.DistinctKeys := by
  obtain ⟨l, hl, he⟩ := Option.map_eq_some_iff.1 h
  have hmem : l ∈ literals := List.mem_of_find?_eq_some hl
  cases he
  simp only [literals, List.mem_cons, List.not_mem_nil, or_false] at hmem
  rcases hmem with rfl | rfl | rfl | rfl | rfl | rfl <;> constructor

theorem distinctKeys_of_unsignedNumber {negative : Bool} {start s rest : List Char} {j : Json}
    (h : unsignedNumber negative start s = .ok (j, rest)) : j.DistinctKeys := by
  unfold unsignedNumber at h
  split at h
  · cases h
  · dsimp only at h
    split at h
    · split at h
      · cases h
      · cases h
        constructor
    · cases h
      constructor

theorem distinctKeys_of_number {s rest : List Char} {j : Json} (h : number s = .ok (j, rest)) :
    j.DistinctKeys := by
  unfold number at h
  split at h
  · exact distinctKeys_of_unsignedNumber h
  · exact distinctKeys_of_unsignedNumber h

/-- What one step of reading is to keep: read values have distinct keys, and so has an object that
is read in part. -/
structure ReadsDistinct (fuel : Nat) : Prop where
  value : ∀ {s j rest}, value fuel s = .ok (j, rest) → j.DistinctKeys
  items : ∀ {s js rest}, items fuel s = .ok (js, rest) → ∀ j ∈ js, j.DistinctKeys
  members : ∀ {s read ms rest}, members fuel read s = .ok (ms, rest) →
    DistinctKeys (.object read) → DistinctKeys (.object ms)

theorem exists_of_bind_eq_ok {ε α β : Type} {x : Except ε α} {f : α → Except ε β} {b : β}
    (h : (x >>= f) = .ok b) : ∃ a, x = .ok a ∧ f a = .ok b := by
  cases x with
  | error e => cases h
  | ok a => exact ⟨a, rfl, h⟩

theorem value_distinct {fuel : Nat} (ih : ReadsDistinct fuel) {s rest : List Char} {j : Json}
    (h : value (fuel + 1) s = .ok (j, rest)) : j.DistinctKeys := by
  unfold value at h
  split at h
  · obtain ⟨⟨cs, r⟩, -, h⟩ := exists_of_bind_eq_ok h
    cases h
    constructor
  · split at h
    · cases h
      exact .array (by simp)
    · obtain ⟨⟨js, r⟩, hitems, h⟩ := exists_of_bind_eq_ok h
      cases h
      exact .array (ih.items hitems)
  · split at h
    · cases h
      exact .object (by simp [Record.keys]) (by simp)
    · obtain ⟨⟨ms, r⟩, hmembers, h⟩ := exists_of_bind_eq_ok h
      cases h
      exact ih.members hmembers (.object (by simp [Record.keys]) (by simp))
  · split at h
    · rename_i hliteral
      cases h
      exact distinctKeys_of_literal? hliteral
    · exact distinctKeys_of_number h

theorem items_distinct {fuel : Nat} (ih : ReadsDistinct fuel) {s rest : List Char} {js : List Json}
    (h : items (fuel + 1) s = .ok (js, rest)) : ∀ j ∈ js, j.DistinctKeys := by
  unfold items at h
  obtain ⟨⟨item, r⟩, hitem, h⟩ := exists_of_bind_eq_ok h
  dsimp only at h
  split at h
  · cases h
    exact List.forall_mem_singleton.2 (ih.value hitem)
  · obtain ⟨⟨more, r⟩, hmore, h⟩ := exists_of_bind_eq_ok h
    cases h
    exact List.forall_mem_cons.2 ⟨ih.value hitem, ih.items hmore⟩
  · cases h

theorem distinctKeys_insert (key : String) {value : Json} {record : List (String × Json)}
    (hvalue : value.DistinctKeys) (hrecord : DistinctKeys (.object record)) :
    DistinctKeys (.object (Record.insert key value record)) := by
  cases hrecord with
  | object hkeys hmembers =>
    refine .object (Record.nodup_keys_insert hkeys) fun m hm => ?_
    rcases Record.mem_insert hm with rfl | hm
    · exact hvalue
    · exact hmembers m hm

theorem members_distinct {fuel : Nat} (ih : ReadsDistinct fuel) {s rest : List Char}
    {read ms : List (String × Json)} (h : members (fuel + 1) read s = .ok (ms, rest))
    (hread : DistinctKeys (.object read)) : DistinctKeys (.object ms) := by
  unfold members at h
  split at h
  · obtain ⟨⟨key, r⟩, -, h⟩ := exists_of_bind_eq_ok h
    dsimp only at h
    split at h
    · obtain ⟨⟨item, r⟩, hitem, h⟩ := exists_of_bind_eq_ok h
      have hnow := distinctKeys_insert (String.ofList key) (ih.value hitem) hread
      dsimp only at h
      split at h
      · cases h
        exact hnow
      · exact ih.members h hnow
      · cases h
    · cases h
  · cases h

theorem readsDistinct (fuel : Nat) : ReadsDistinct fuel := by
  induction fuel with
  | zero => exact { value := nofun, items := nofun, members := nofun }
  | succ fuel ih =>
    exact { value := value_distinct ih, items := items_distinct ih, members := members_distinct ih }

/-- What a text is read as is read from its first character that is not blank, and nothing but blanks
follow it. -/
theorem exists_value_of_parse {text : String} {j : Json} (h : parse text = .ok j) :
    ∃ fuel rest, value fuel (skipBlank text.toList) = .ok (j, rest) ∧ skipBlank rest = [] := by
  unfold parse at h
  cases hdocument : document text.toList with
  | error fault =>
    rw [hdocument] at h
    cases h
  | ok read =>
    rw [hdocument] at h
    cases h
    unfold document at hdocument
    split at hdocument
    · cases hdocument
    · obtain ⟨⟨j, rest⟩, hvalue, hdocument⟩ := exists_of_bind_eq_ok hdocument
      dsimp only at hdocument
      split at hdocument
      · cases hdocument
        exact ⟨_, rest, hvalue, ‹_›⟩
      · cases hdocument

theorem distinctKeys_of_parse {text : String} {j : Json} (h : parse text = .ok j) :
    j.DistinctKeys := by
  obtain ⟨fuel, rest, hvalue, -⟩ := exists_value_of_parse h
  exact (readsDistinct fuel).value hvalue

end BlockCheck.Json
