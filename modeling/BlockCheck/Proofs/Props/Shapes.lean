import BlockCheck.Proofs.Props.Depth
import BlockCheck.Proofs.Props.Marks
import BlockCheck.Proofs.Schema.DistinctNames

/-!
# Shapes of schemas

The schema of a type carries the flag that it was asked for, and none of its objects has two properties
of one name. Every step keeps to that if its answers do, and so does the resolution.
-/

namespace BlockCheck.Props

open Source

/-- The schema of a position with the flag. -/
structure Shaped (optional : Bool) (s : Schema) : Prop where
  flag : s.optional = optional
  names : s.DistinctNames

structure Members.Shaped (members : Members) : Prop where
  nodup : (Record.keys members.properties).Nodup
  names : ∀ p ∈ members.properties, p.2.DistinctNames

structure Answers.Shaped (a : Answers) : Prop where
  type : ∀ {optional t s}, a.type optional t = some s → Props.Shaped optional s
  interface : ∀ {i members}, a.interface i = some members → members.Shaped

theorem shaped_any (optional : Bool) : Shaped optional (.any optional) := ⟨rfl, .any optional⟩

/-! ## Members -/

section Members

variable {a : Answers} {members more result : Members}

theorem shaped_empty : Members.empty.Shaped := ⟨List.nodup_nil, nofun⟩

theorem shaped_schema (h : members.Shaped) (optional : Bool) : Shaped optional (members.schema optional) :=
  ⟨rfl, .object h.nodup h.names⟩

theorem shaped_addProperty {s : Schema} (h : members.Shaped) (hs : s.DistinctNames) (name : String) :
    (members.addProperty name s).Shaped := by
  refine ⟨Record.nodup_keys_insert h.nodup, fun p hp => ?_⟩
  rcases Record.mem_insert hp with rfl | hp
  · exact hs
  · exact h.names p hp

theorem shaped_addIgnored (h : members.Shaped) (name : String) : (members.addIgnored name).Shaped :=
  ⟨h.nodup, h.names⟩

theorem shaped_extend (h : members.Shaped) (hmore : more.Shaped) : (members.extend more).Shaped := by
  refine ⟨Record.nodup_keys_insertAll h.nodup, fun p hp => ?_⟩
  rcases Record.mem_insertAll hp with hp | hp
  · exact hmore.names p hp
  · exact h.names p hp

theorem shaped_settled (h : members.Shaped) : members.settled.Shaped := ⟨h.nodup, h.names⟩

theorem shaped_addMembers (ha : a.Shaped) {properties : List Property} (hmembers : members.Shaped)
    (h : addMembers a.type members properties = some result) : result.Shaped := by
  induction properties generalizing members with
  | nil => exact Option.some.inj h ▸ hmembers
  | cons p rest ih =>
    unfold addMembers at h
    split at h
    · exact ih (shaped_addIgnored hmembers p.name) h
    · split at h
      · exact ih (shaped_addProperty hmembers (.any _) p.name) h
      · obtain ⟨s, hs, h⟩ := Option.bind_eq_some_iff.1 h
        exact ih (shaped_addProperty hmembers (ha.type hs).names p.name) h

theorem shaped_inherit (ha : a.Shaped) {outline : Outline} {bases : List String}
    (hmembers : members.Shaped) (h : inherit outline a.interface members bases = some result) :
    result.Shaped := by
  induction bases generalizing members with
  | nil => exact Option.some.inj h ▸ hmembers
  | cons base rest ih =>
    unfold inherit at h
    split at h
    · exact ih hmembers h
    · obtain ⟨more, hmore, h⟩ := Option.bind_eq_some_iff.1 h
      exact ih (shaped_extend hmembers (ha.interface hmore)) h

end Members

/-! ## Utility types -/

section Utility

variable {s : Schema}

theorem shaped_utility {utility : Schema → Bool → Schema} {optional : Bool}
    (hobject : ∀ properties ignored o, (Record.keys properties).Nodup →
      (∀ p ∈ properties, p.2.DistinctNames) →
      Shaped optional (utility (.object properties ignored o) optional))
    (hother : ∀ s, (∀ properties ignored o, s ≠ .object properties ignored o) →
      utility s optional = s.withOptional optional)
    (h : s.DistinctNames) : Shaped optional (utility s optional) := by
  have hkept := h.withOptional optional
  cases h with
  | object hnames hproperties => exact hobject _ _ _ hnames hproperties
  | _ =>
    rw [hother]
    · exact ⟨rfl, hkept⟩
    · exact nofun

theorem shaped_omitKeys (keys : List String) (h : s.DistinctNames) (optional : Bool) :
    Shaped optional (omitKeys keys s optional) := by
  refine shaped_utility (fun properties ignored o hnames hproperties => ?_)
    (omitKeys_of_not_object keys · optional) h
  refine ⟨rfl, .object (hnames.sublist (List.filter_sublist.map Prod.fst)) fun p hp => ?_⟩
  exact hproperties p (List.mem_of_mem_filter hp)

theorem keys_picked_sublist {α : Type} (keys : List String) (record : List (String × α)) :
    (Record.keys (keys.filterMap fun k => (record.lookup k).map fun v => (k, v))).Sublist keys := by
  induction keys with
  | nil => exact .slnil
  | cons k rest ih =>
    rw [List.filterMap_cons]
    cases record.lookup k with
    | none => exact ih.cons k
    | some v => exact ih.cons_cons k

theorem shaped_pickKeys (keys : List String) (h : s.DistinctNames) (optional : Bool) :
    Shaped optional (pickKeys keys s optional) := by
  refine shaped_utility (fun properties ignored o _ hproperties => ?_)
    (pickKeys_of_not_object keys · optional) h
  have hpicked := (nodup_eraseDups keys).sublist (keys_picked_sublist keys.eraseDups properties)
  refine ⟨rfl, .object hpicked fun p hp => ?_⟩
  obtain ⟨k, -, hk⟩ := List.mem_filterMap.1 hp
  obtain ⟨v, hv, rfl⟩ := Option.map_eq_some_iff.1 hk
  exact hproperties (k, v) (Record.mem_of_lookup hv)

theorem shaped_makePartial (h : s.DistinctNames) (optional : Bool) :
    Shaped optional (makePartial s optional) := by
  refine shaped_utility (fun properties ignored o hnames hproperties => ?_)
    (makePartial_of_not_object · optional) h
  refine ⟨rfl, .object ?_ fun p hp => ?_⟩
  · rw [Record.keys, List.map_map]
    exact hnames
  · obtain ⟨q, hq, rfl⟩ := List.mem_map.1 hp
    exact (hproperties q hq).withOptional true

end Utility

/-! ## The step -/

section Step

variable {a : Answers} {outline : Outline} {optional : Bool} {s : Schema}

theorem shaped_ofMeaning (ha : a.Shaped) {name : String} {m : Meaning}
    (h : ofMeaning a optional name m = some s) : Shaped optional s := by
  cases m with
  | special => exact Option.some.inj h ▸ ⟨rfl, .special name optional⟩
  | unknown => exact Option.some.inj h ▸ shaped_any optional
  | omitted base keys =>
    obtain ⟨t, ht, rfl⟩ := Option.map_eq_some_iff.1 h
    exact shaped_omitKeys keys.literalKeys (ha.type ht).names optional
  | picked base keys =>
    obtain ⟨t, ht, rfl⟩ := Option.map_eq_some_iff.1 h
    exact shaped_pickKeys keys.literalKeys (ha.type ht).names optional
  | partly base =>
    obtain ⟨t, ht, rfl⟩ := Option.map_eq_some_iff.1 h
    exact shaped_makePartial (ha.type ht).names optional
  | list element =>
    obtain ⟨t, ht, rfl⟩ := Option.map_eq_some_iff.1 h
    exact ⟨rfl, .array fun e he => Option.some.inj he ▸ (ha.type ht).names⟩
  | interface i =>
    obtain ⟨members, hmembers, rfl⟩ := Option.map_eq_some_iff.1 h
    exact shaped_schema (ha.interface hmembers) optional
  | typeAlias value => exact ha.type h

theorem shaped_predefined (text : String) (optional : Bool) : Shaped optional (predefined text optional) := by
  unfold predefined
  split
  case h_4 => exact shaped_any optional
  all_goals exact ⟨rfl, .primitive _ optional⟩

theorem shaped_typeStep (ha : a.Shaped) {t : TypeExpr} (h : typeStep outline a optional t = some s) :
    Shaped optional s := by
  cases t with
  | predefined text => exact Option.some.inj h ▸ shaped_predefined text optional
  | null => exact Option.some.inj h ▸ ⟨rfl, .primitive .null optional⟩
  | stringLiteral | other => exact Option.some.inj h ▸ shaped_any optional
  | array _ element =>
    obtain ⟨t, ht, rfl⟩ := Option.map_eq_some_iff.1 h
    exact ⟨rfl, .array fun e he => Option.some.inj he ▸ (ha.type ht).names⟩
  | union _ operands =>
    obtain ⟨members, hmembers, rfl⟩ := Option.map_eq_some_iff.1 h
    refine ⟨rfl, .union fun s hs => ?_⟩
    obtain ⟨t, -, ht⟩ := Schema.exists_of_mem_mapM hmembers hs
    exact (ha.type ht).names
  | object _ properties =>
    obtain ⟨members, hmembers, rfl⟩ := Option.map_eq_some_iff.1 h
    exact shaped_schema (shaped_addMembers ha shaped_empty hmembers) optional
  | parenthesized _ content => exact ha.type h
  | named name => exact shaped_ofMeaning ha h
  | generic _ name arguments => exact shaped_ofMeaning ha h

theorem shaped_interfaceStep (ha : a.Shaped) {i : Interface} {members : Members}
    (h : interfaceStep outline a i = some members) : members.Shaped := by
  obtain ⟨inherited, hinherited, h⟩ := Option.bind_eq_some_iff.1 h
  obtain ⟨own, hown, rfl⟩ := Option.map_eq_some_iff.1 h
  have hshaped := shaped_extend (shaped_inherit ha shaped_empty hinherited)
    (shaped_addMembers ha shaped_empty hown)
  exact shaped_settled hshaped

theorem shaped_step (ha : a.Shaped) : (step outline a).Shaped :=
  ⟨shaped_typeStep ha, shaped_interfaceStep ha⟩

end Step

/-! ## The resolution -/

variable {outline : Outline}

theorem shaped_guarded (outline : Outline) (depth : Nat) (guard : Guard) :
    (guarded outline depth guard).Shaped := by
  induction depth generalizing guard with
  | zero => exact ⟨nofun, nofun⟩
  | succ depth ih =>
    constructor
    · intro optional t s h
      by_cases hkey : t.text ∈ guard
      · cases (resolve_of_mem hkey outline depth optional).symm.trans h
        exact shaped_any optional
      · exact (shaped_step (ih _)).type ((resolve_of_notMem hkey outline depth optional).symm.trans h)
    · intro i members h
      by_cases hkey : interfaceKey i.name ∈ guard
      · cases (interfaceMembers_of_mem hkey outline depth).symm.trans h
        exact shaped_empty
      · exact (shaped_step (ih _)).interface ((interfaceMembers_of_notMem hkey outline depth).symm.trans h)

theorem shaped_resolve {depth : Nat} {guard : Guard} {optional : Bool} {t : TypeExpr} {s : Schema}
    (h : resolve outline depth guard optional t = some s) : Shaped optional s :=
  (shaped_guarded outline depth guard).type h

theorem shaped_interfaceMembers {depth : Nat} {guard : Guard} {i : Interface} {members : Members}
    (h : interfaceMembers outline depth guard i = some members) : members.Shaped :=
  (shaped_guarded outline depth guard).interface h

theorem shaped_schemaOfType (outline : Outline) (t : TypeExpr) :
    Shaped false (schemaOfType outline t) := by
  unfold schemaOfType
  cases h : resolve outline (enoughDepth outline (typeTexts t)) [] false t with
  | none => exact shaped_any false
  | some s => exact shaped_resolve h

theorem shaped_schemaOfInterface (outline : Outline) (i : Interface) :
    Shaped false (schemaOfInterface outline i) := by
  unfold schemaOfInterface
  cases h : interfaceMembers outline (enoughDepth outline []) [] i with
  | none => exact shaped_schema shaped_empty false
  | some members => exact shaped_schema (shaped_interfaceMembers h) false

theorem shaped_schemaOf? {s : Schema} (h : schemaOf? outline = some s) : Shaped false s := by
  unfold schemaOf? at h
  split at h
  · exact Option.some.inj h ▸ shaped_schemaOfType outline _
  · split at h
    · exact Option.some.inj h ▸ shaped_schemaOfInterface outline _
    · obtain ⟨t, -, rfl⟩ := Option.map_eq_some_iff.1 h
      exact shaped_schemaOfType outline t

end BlockCheck.Props
