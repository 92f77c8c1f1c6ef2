import BlockCheck.Proofs.Json.DistinctKeys
import BlockCheck.Proofs.Lists
import BlockCheck.Schema.Reading
import Mathlib.Data.Option.Basic

/-!
# Names of properties

No object of a schema that was read has two properties of one name.
-/

namespace BlockCheck.Schema

inductive DistinctNames : Schema → Prop
  | primitive (type : Primitive) (optional : Bool) : DistinctNames (.primitive type optional)
  | array {element : Option Schema} {optional : Bool} : (∀ s ∈ element, DistinctNames s) →
      DistinctNames (.array element optional)
  | object {properties : List (String × Schema)} {ignored : List String} {optional : Bool} :
      (Record.keys properties).Nodup → (∀ p ∈ properties, DistinctNames p.2) →
      DistinctNames (.object properties ignored optional)
  | union {members : List Schema} {optional : Bool} : (∀ s ∈ members, DistinctNames s) →
      DistinctNames (.union members optional)
  | special (tag : String) (optional : Bool) : DistinctNames (.special tag optional)
  | any (optional : Bool) : DistinctNames (.any optional)

theorem DistinctNames.withOptional {s : Schema} (h : s.DistinctNames) (optional : Bool) :
    (s.withOptional optional).DistinctNames := by
  cases h with
  | primitive => exact .primitive _ _
  | array helement => exact .array helement
  | object hnames hproperties => exact .object hnames hproperties
  | union hmembers => exact .union hmembers
  | special => exact .special _ _
  | any => exact .any _

/-! ## Reading

A property of a schema is read from the member of the same name.
-/

theorem exists_of_mem_mapM {α β : Type} {f : α → Option β} {l : List α} {l' : List β}
    (h : l.mapM f = some l') {b : β} (hb : b ∈ l') : ∃ a ∈ l, f a = some b :=
  exists_of_mem_right ((List.forall₂_and_left _ _).2 ⟨fun _ ha => ha, forall₂_of_mapM h⟩) hb

theorem keys_of_mapM {α β : Type} {f : α → Option β} {record : List (String × α)}
    {read : List (String × β)}
    (h : record.mapM (fun m => (f m.2).map fun b => (m.1, b)) = some read) :
    Record.keys read = Record.keys record := by
  have hnames : List.Forall₂ Eq (Record.keys read) (Record.keys record) := by
    rw [Record.keys, Record.keys, List.forall₂_map_left_iff, List.forall₂_map_right_iff]
    refine (forall₂_of_mapM h).flip.imp fun b m hb => ?_
    obtain ⟨_, -, rfl⟩ := Option.map_eq_some_iff.1 hb
    rfl
  exact List.forall₂_eq_eq_eq ▸ hnames

theorem distinctNames_of_primitiveOf? {members : List (String × Json)} {s : Schema}
    (h : primitiveOf? members = some s) : s.DistinctNames := by
  obtain ⟨_, -, h⟩ := Option.bind_eq_some_iff.1 h
  obtain ⟨_, -, h⟩ := Option.bind_eq_some_iff.1 h
  obtain ⟨_, -, h⟩ := Option.bind_eq_some_iff.1 h
  obtain ⟨_, -, h⟩ := Option.bind_eq_some_iff.1 h
  cases h
  exact .primitive _ _

theorem distinctNames_of_specialOf? {members : List (String × Json)} {s : Schema}
    (h : specialOf? members = some s) : s.DistinctNames := by
  obtain ⟨_, -, h⟩ := Option.bind_eq_some_iff.1 h
  obtain ⟨_, -, h⟩ := Option.bind_eq_some_iff.1 h
  obtain ⟨_, -, h⟩ := Option.bind_eq_some_iff.1 h
  cases h
  exact .special _ _

theorem distinctNames_of_anyOf? {members : List (String × Json)} {s : Schema}
    (h : anyOf? members = some s) : s.DistinctNames := by
  obtain ⟨_, -, h⟩ := Option.bind_eq_some_iff.1 h
  obtain ⟨_, -, h⟩ := Option.bind_eq_some_iff.1 h
  cases h
  exact .any _

section Compound

variable {depth : Nat} {members : List (String × Json)} {s : Schema}

theorem exists_of_read_array (hkind : (members.lookup "kind").bind Json.string? = some "array")
    (h : ofJsonWithin (depth + 1) (.object members) = some s) :
    ∃ element optional, s = .array element optional ∧ ∀ e ∈ element,
      ∃ held, members.lookup "element_type" = some held ∧ ofJsonWithin depth held = some e := by
  rw [ofJsonWithin, hkind] at h
  obtain ⟨_, -, h⟩ := Option.bind_eq_some_iff.1 h
  split at h
  · obtain ⟨_, ⟨⟩, h⟩ := Option.bind_eq_some_iff.1 h
    obtain ⟨optional, -, h⟩ := Option.bind_eq_some_iff.1 h
    cases h
    exact ⟨none, optional, rfl, nofun⟩
  · obtain ⟨_, ⟨⟩, h⟩ := Option.bind_eq_some_iff.1 h
    obtain ⟨optional, -, h⟩ := Option.bind_eq_some_iff.1 h
    cases h
    exact ⟨none, optional, rfl, nofun⟩
  · rename_i held _ hheld
    obtain ⟨element, helement, h⟩ := Option.bind_eq_some_iff.1 h
    obtain ⟨optional, -, h⟩ := Option.bind_eq_some_iff.1 h
    cases h
    obtain ⟨e, he, rfl⟩ := Option.map_eq_some_iff.1 helement
    refine ⟨some e, optional, rfl, ?_⟩
    rintro _ ⟨⟩
    exact ⟨held, hheld, he⟩

theorem exists_of_read_object (hkind : (members.lookup "kind").bind Json.string? = some "object")
    (h : ofJsonWithin (depth + 1) (.object members) = some s) :
    ∃ properties ignored optional, s = .object properties ignored optional ∧
      (properties = [] ∨ ∃ fields, members.lookup "properties" = some (.object fields) ∧
        fields.mapM (fun p => (ofJsonWithin depth p.2).map fun s => (p.1, s)) = some properties) := by
  rw [ofJsonWithin, hkind] at h
  obtain ⟨_, -, h⟩ := Option.bind_eq_some_iff.1 h
  split at h
  · obtain ⟨_, ⟨⟩, h⟩ := Option.bind_eq_some_iff.1 h
    obtain ⟨ignored, -, h⟩ := Option.bind_eq_some_iff.1 h
    obtain ⟨optional, -, h⟩ := Option.bind_eq_some_iff.1 h
    cases h
    exact ⟨[], ignored, optional, rfl, .inl rfl⟩
  · rename_i fields hfields
    obtain ⟨properties, hproperties, h⟩ := Option.bind_eq_some_iff.1 h
    obtain ⟨ignored, -, h⟩ := Option.bind_eq_some_iff.1 h
    obtain ⟨optional, -, h⟩ := Option.bind_eq_some_iff.1 h
    cases h
    exact ⟨properties, ignored, optional, rfl, .inr ⟨fields, hfields, hproperties⟩⟩
  · cases h

theorem exists_of_read_union (hkind : (members.lookup "kind").bind Json.string? = some "union")
    (h : ofJsonWithin (depth + 1) (.object members) = some s) :
    ∃ alternatives optional, s = .union alternatives optional ∧
      (alternatives = [] ∨ ∃ items, members.lookup "members" = some (.array items) ∧
        items.mapM (ofJsonWithin depth) = some alternatives) := by
  rw [ofJsonWithin, hkind] at h
  obtain ⟨_, -, h⟩ := Option.bind_eq_some_iff.1 h
  split at h
  · obtain ⟨_, ⟨⟩, h⟩ := Option.bind_eq_some_iff.1 h
    obtain ⟨optional, -, h⟩ := Option.bind_eq_some_iff.1 h
    cases h
    exact ⟨[], optional, rfl, .inl rfl⟩
  · rename_i items hitems
    obtain ⟨alternatives, halternatives, h⟩ := Option.bind_eq_some_iff.1 h
    obtain ⟨optional, -, h⟩ := Option.bind_eq_some_iff.1 h
    cases h
    exact ⟨alternatives, optional, rfl, .inr ⟨items, hitems, halternatives⟩⟩
  · cases h

end Compound

theorem distinctNames_of_ofJsonWithin {depth : Nat} {value : Json} {s : Schema}
    (hvalue : value.DistinctKeys) (h : ofJsonWithin depth value = some s) : s.DistinctNames := by
  induction depth generalizing value s with
  | zero => cases h
  | succ depth ih =>
    cases hvalue with
    | @object members _ hmembers =>
      have hfield : ∀ {key held}, members.lookup key = some held → held.DistinctKeys :=
        fun hheld => hmembers _ (Record.mem_of_lookup hheld)
      have hread := h
      unfold ofJsonWithin at h
      dsimp only at h
      split at h
      · exact distinctNames_of_primitiveOf? h
      · exact distinctNames_of_specialOf? h
      · exact distinctNames_of_anyOf? h
      · rename_i hkind
        obtain ⟨element, optional, rfl, helement⟩ := exists_of_read_array hkind hread
        refine .array fun e he => ?_
        obtain ⟨held, hheld, he⟩ := helement e he
        exact ih (hfield hheld) he
      · rename_i hkind
        obtain ⟨properties, ignored, optional, rfl, rfl | ⟨fields, hfields, hproperties⟩⟩ :=
          exists_of_read_object hkind hread
        · exact .object (by simp [Record.keys]) (by simp)
        · cases hfield hfields with
          | object hkeys hheld =>
            refine .object (keys_of_mapM hproperties ▸ hkeys) fun p hp => ?_
            obtain ⟨m, hm, hp⟩ := exists_of_mem_mapM hproperties hp
            obtain ⟨s, hs, rfl⟩ := Option.map_eq_some_iff.1 hp
            exact ih (hheld m hm) hs
      · rename_i hkind
        obtain ⟨alternatives, optional, rfl, rfl | ⟨items, hitems, halternatives⟩⟩ :=
          exists_of_read_union hkind hread
        · exact .union (by simp)
        · cases hfield hitems with
          | array hheld =>
            refine .union fun s hs => ?_
            obtain ⟨item, hitem, hs⟩ := exists_of_mem_mapM halternatives hs
            exact ih (hheld item hitem) hs
      · cases h
    | _ => cases h

theorem distinctNames_of_ofJson? {value : Json} {s : Schema} (hvalue : value.DistinctKeys)
    (h : ofJson? value = some s) : s.DistinctNames := distinctNames_of_ofJsonWithin hvalue h

end BlockCheck.Schema
