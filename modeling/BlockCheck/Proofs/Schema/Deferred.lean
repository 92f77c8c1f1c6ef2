import BlockCheck.Proofs.Records
import BlockCheck.Proofs.Scan.Renaming
import BlockCheck.Proofs.Schema.Modes

/-!
# References in place of lists

Where a list is wanted an object will do that has the usual discriminator: it is a reference, and stands
for the list that it will be replaced by. Under any other name of the discriminator it is an object like
any other. So once the discriminator is renamed in a value, what was found before is still found. More is
found if and only if something in the value was let pass as a reference only.
-/

namespace BlockCheck

theorem ne_of_reserved {key other : String} (hkey : Text.startsWith key reservedStart = true)
    (hother : Text.startsWith other reservedStart = false) : other ≠ key := by
  rintro rfl
  rw [hkey] at hother
  cases hother

theorem discriminator_reserved : Text.startsWith discriminator reservedStart = true := by decide

namespace Schema

inductive Declares (name : String) : Schema → Prop
  | here {properties : List (String × Schema)} {ignored : List String} {optional : Bool} :
      name ∈ Record.keys properties → Declares name (.object properties ignored optional)
  | property {properties : List (String × Schema)} {ignored : List String} {optional : Bool}
      {p : String × Schema} : p ∈ properties → Declares name p.2 →
      Declares name (.object properties ignored optional)
  | element {element : Schema} {optional : Bool} : Declares name element →
      Declares name (.array (some element) optional)
  | member {members : List Schema} {optional : Bool} {s : Schema} : s ∈ members → Declares name s →
      Declares name (.union members optional)

mutual

def propertyNames : Schema → List String
  | .array (some element) _ => propertyNames element
  | .object properties _ _ => namesOfProperties properties
  | .union members _ => namesOfMembers members
  | _ => []

def namesOfProperties : List (String × Schema) → List String
  | [] => []
  | p :: rest => namesOfProperty p ++ namesOfProperties rest

def namesOfProperty : String × Schema → List String
  | (name, s) => name :: propertyNames s

def namesOfMembers : List Schema → List String
  | [] => []
  | s :: rest => propertyNames s ++ namesOfMembers rest

end

theorem namesOfProperties_eq (properties : List (String × Schema)) :
    namesOfProperties properties = properties.flatMap fun p => p.1 :: propertyNames p.2 := by
  induction properties with
  | nil => rfl
  | cons p rest ih => rw [namesOfProperties, ih, namesOfProperty, List.flatMap_cons]

theorem namesOfMembers_eq (members : List Schema) :
    namesOfMembers members = members.flatMap propertyNames := by
  induction members with
  | nil => rfl
  | cons s rest ih => rw [namesOfMembers, ih, List.flatMap_cons]

theorem declares_iff {name : String} {s : Schema} : s.Declares name ↔ name ∈ s.propertyNames := by
  constructor
  · intro h
    induction h with
    | here hname =>
      obtain ⟨p, hp, rfl⟩ := List.mem_map.1 hname
      rw [propertyNames, namesOfProperties_eq, List.mem_flatMap]
      exact ⟨p, hp, List.mem_cons_self⟩
    | property hp _ ih =>
      rw [propertyNames, namesOfProperties_eq, List.mem_flatMap]
      exact ⟨_, hp, List.mem_cons_of_mem _ ih⟩
    | element _ ih =>
      rw [propertyNames]
      exact ih
    | member hs _ ih =>
      rw [propertyNames, namesOfMembers_eq, List.mem_flatMap]
      exact ⟨_, hs, ih⟩
  · intro h
    induction s using Schema.induction with
    | primitive _ _ | special _ _ | any _ => simp [propertyNames] at h
    | array element _ ih =>
      cases element with
      | none => simp [propertyNames] at h
      | some element =>
        rw [propertyNames] at h
        exact .element (ih element rfl h)
    | object properties _ _ ih =>
      rw [propertyNames, namesOfProperties_eq, List.mem_flatMap] at h
      obtain ⟨p, hp, h⟩ := h
      rcases List.mem_cons.1 h with rfl | h
      · exact .here (List.mem_map_of_mem hp)
      · exact .property hp (ih p hp h)
    | union members _ ih =>
      rw [propertyNames, namesOfMembers_eq, List.mem_flatMap] at h
      obtain ⟨s, hs, h⟩ := h
      exact .member hs (ih s hs h)

instance (name : String) (s : Schema) : Decidable (s.Declares name) := decidable_of_iff _ declares_iff.symm

/-- Something in the value is let pass because it is a reference where a list is wanted. In a union
all members that the value conforms to have to let it pass so. -/
inductive Defers (mode : Mode) : Schema → Json → Prop
  | reference {element : Option Schema} {optional : Bool} {members : List (String × Json)} :
      discriminator ∈ Record.keys members → Defers mode (.array element optional) (.object members)
  | item {element : Schema} {optional : Bool} {items : List Json} {value : Json} :
      value ∈ items → Defers mode element value →
      Defers mode (.array (some element) optional) (.array items)
  | property {properties : List (String × Schema)} {ignored : List String} {optional : Bool}
      {members : List (String × Json)} {p : String × Schema} {value : Json} :
      p ∈ properties → members.lookup p.1 = some value → Defers mode p.2 value →
      Defers mode (.object properties ignored optional) (.object members)
  | member {members : List Schema} {optional : Bool} {s : Schema} {value : Json} :
      s ∈ members → Conforms mode s (some value) →
      (∀ t ∈ members, Conforms mode t (some value) → Defers mode t value) →
      Defers mode (.union members optional) value

variable {mode : Mode} {optional : Bool} {value : Json} {members : List (String × Json)}
  {new key : String}

theorem defers_array {element : Schema} {items : List Json} :
    Defers mode (.array (some element) optional) (.array items) ↔ ∃ v ∈ items, Defers mode element v := by
  constructor
  · intro h
    cases h with
    | item hv h => exact ⟨_, hv, h⟩
  · rintro ⟨v, hv, h⟩
    exact .item hv h

theorem defers_array_object {element : Option Schema} :
    Defers mode (.array element optional) (.object members) ↔ discriminator ∈ Record.keys members := by
  constructor
  · intro h
    cases h with
    | reference h => exact h
  · exact .reference

theorem defers_object {properties : List (String × Schema)} {ignored : List String} :
    Defers mode (.object properties ignored optional) (.object members) ↔
      ∃ p ∈ properties, ∃ v ∈ members.lookup p.1, Defers mode p.2 v := by
  constructor
  · intro h
    cases h with
    | property hp hv h => exact ⟨_, hp, _, hv, h⟩
  · rintro ⟨p, hp, v, hv, h⟩
    exact .property hp hv h

theorem defers_union {members : List Schema} :
    Defers mode (.union members optional) value ↔
      (∃ s ∈ members, Conforms mode s (some value)) ∧
        ∀ s ∈ members, Conforms mode s (some value) → Defers mode s value := by
  constructor
  · intro h
    cases h with
    | member hs hconforms h => exact ⟨⟨_, hs, hconforms⟩, h⟩
  · rintro ⟨⟨s, hs, hconforms⟩, h⟩
    exact .member hs hconforms h

/-! ## Rules that know no discriminator -/

section Rules

variable (hnew : Text.startsWith new reservedStart = true)

@[simp] theorem truthy_renameKeys (old new : String) (value : Json) :
    (value.renameKeys old new).truthy = value.truthy := by
  cases value <;> simp [Json.renameKeys, Json.truthy]

include hnew

theorem get?_renameKeys (value : Json) (hkey : Text.startsWith key reservedStart = false) :
    (value.renameKeys discriminator new).get? key =
      (value.get? key).map (Json.renameKeys discriminator new) := by
  cases value with
  | object members =>
    rw [Json.renameKeys, Json.get?, Json.get?]
    exact Json.lookup_renameMembers_of_ne (ne_of_reserved discriminator_reserved hkey)
      (ne_of_reserved hnew hkey)
  | _ => simp [Json.renameKeys, Json.get?]

theorem truthyAt_renameKeys (value : Json) (hkey : Text.startsWith key reservedStart = false) :
    (value.renameKeys discriminator new).truthyAt key = value.truthyAt key := by
  unfold Json.truthyAt
  rw [get?_renameKeys hnew value hkey, Option.map_map]
  congr 2
  funext held
  exact truthy_renameKeys _ _ held

theorem listAt_renameKeys (value : Json) (hkey : Text.startsWith key reservedStart = false) :
    (value.renameKeys discriminator new).listAt key = value.listAt key := by
  unfold Json.listAt
  rw [get?_renameKeys hnew value hkey]
  cases value.get? key with
  | none => rfl
  | some held => cases held <;> simp [Json.renameKeys]

theorem recordFindings_renameKeys (tag : String) (value : Json) :
    recordFindings tag (value.renameKeys discriminator new) = recordFindings tag value := by
  unfold recordFindings
  rw [truthyAt_renameKeys hnew value (by decide), truthyAt_renameKeys hnew value (by decide),
    truthyAt_renameKeys hnew value (by decide), listAt_renameKeys hnew value (by decide)]

theorem specialFindings_renameKeys (tag : String) (value : Json) :
    specialFindings tag (value.renameKeys discriminator new) = specialFindings tag value := by
  have hrecord := recordFindings_renameKeys hnew tag value
  unfold specialFindings
  cases value with
  | array items =>
    rw [Json.renameKeys] at hrecord ⊢
    simp [hrecord, Json.kind]
  | object members =>
    rw [Json.renameKeys] at hrecord ⊢
    simp [hrecord, Json.kind]
  | _ => simp [Json.renameKeys]

theorem unknownFindings_renameMembers (mode : Mode) (properties : List (String × Schema))
    (ignored : List String) (members : List (String × Json)) :
    unknownFindings mode properties ignored (Json.renameMembers discriminator new members) =
      unknownFindings mode properties ignored members := by
  cases mode with
  | lenient => rfl
  | strict =>
    simp only [unknownFindings]
    induction members with
    | nil => rfl
    | cons m rest ih =>
      obtain ⟨k, v⟩ := m
      rw [Json.renameMembers, Json.renameMember]
      by_cases hk : k = discriminator
      · have hold : isUnknownKey properties ignored discriminator = false := by
          simp [isUnknownKey, discriminator_reserved]
        have hafter : isUnknownKey properties ignored new = false := by simp [isUnknownKey, hnew]
        simp [hk, hold, hafter, ih]
      · rw [Json.renamedKey_of_ne hk, List.filter_cons, List.filter_cons]
        split
        · rw [List.map_cons, List.map_cons, ih]
        · exact ih

end Rules

theorem primitiveFindings_renameKeys (old new : String) (type : Primitive) (value : Json) :
    primitiveFindings type (value.renameKeys old new) = primitiveFindings type value := by
  cases type <;> cases value <;> simp [Json.renameKeys, primitiveFindings, Json.kind]

/-! ## What is found besides -/

section Findings

variable (hnew : Text.startsWith new reservedStart = true)

theorem lookup_declared {properties : List (String × Schema)} {ignored : List String}
    {p : String × Schema} (hp : p ∈ properties)
    (hold : ¬Declares discriminator (.object properties ignored optional))
    (hdeclares : ¬Declares new (.object properties ignored optional)) (members : List (String × Json)) :
    (Json.renameMembers discriminator new members).lookup p.1 =
      (members.lookup p.1).map (Json.renameKeys discriminator new) := by
  have hname : p.1 ∈ Record.keys properties := List.mem_map_of_mem hp
  apply Json.lookup_renameMembers_of_ne
  · exact ne_of_mem_of_not_mem hname (mt .here hold)
  · exact ne_of_mem_of_not_mem hname (mt .here hdeclares)

theorem check_of_findings {s : Schema} {v : Option Json}
    (h : ∀ value ∈ v, WholeIff (s.findings mode value)
      (s.findings mode (value.renameKeys discriminator new)) (¬Defers mode s value)) :
    WholeIff (s.check mode v) (s.check mode (v.map (Json.renameKeys discriminator new)))
      (∀ value ∈ v, ¬Defers mode s value) := by
  cases v with
  | none => exact .of_true _ (by rintro _ ⟨⟩)
  | some value => exact (h value rfl).congr (by simp)

/-- Where a list is wanted, an object was let pass if and only if it has the discriminator, and then it is
found once the discriminator is gone. -/
theorem findings_reference {element : Option Schema} (hfresh : new ∉ Record.keys members) :
    WholeIff ((Schema.array element optional).findings mode (.object members))
      ((Schema.array element optional).findings mode ((Json.object members).renameKeys discriminator new))
      (¬Defers mode (.array element optional) (.object members)) := by
  have hgone := Json.notMem_keys_renameMembers discriminator hfresh
  rw [← Record.isSome_lookup_iff] at hgone
  rw [Json.renameKeys, defers_array_object, ← Record.isSome_lookup_iff]
  simp only [findings]
  rw [if_neg hgone]
  split
  · rename_i hsome
    exact ⟨List.nil_sublist _, iff_of_false (List.cons_ne_nil _ _).symm (not_not_intro hsome)⟩
  · rename_i hnone
    exact .of_true _ hnone

theorem findings_union {members : List Schema}
    (h : ∀ s ∈ members, WholeIff (s.findings mode value)
      (s.findings mode (value.renameKeys discriminator new)) (¬Defers mode s value)) :
    WholeIff ((Schema.union members optional).findings mode value)
      ((Schema.union members optional).findings mode (value.renameKeys discriminator new))
      (¬Defers mode (.union members optional) value) := by
  rw [findings, findings, anyAccepts_eq, anyAccepts_eq, defers_union]
  simp only [← findings_eq_nil_iff_conforms]
  by_cases hbefore : ∃ s ∈ members, s.findings mode value = []
  · have hany : (members.any fun s => (s.findings mode value).isEmpty) = true := by
      simpa [List.any_eq_true] using hbefore
    by_cases hafter : ∃ s ∈ members, s.findings mode (value.renameKeys discriminator new) = []
    · have hany' : (members.any fun s =>
          (s.findings mode (value.renameKeys discriminator new)).isEmpty) = true := by
        simpa [List.any_eq_true] using hafter
      rw [hany, hany', Bool.or_true, if_pos rfl]
      refine .of_true _ ?_
      rintro ⟨-, hall⟩
      obtain ⟨s, hs, hnil⟩ := hafter
      have hboth := List.sublist_nil.1 (hnil ▸ (h s hs).sublist)
      exact (h s hs).eq_iff.1 (hboth.trans hnil.symm) (hall s hs hboth)
    · have hany' : (members.any fun s =>
          (s.findings mode (value.renameKeys discriminator new)).isEmpty) = false := by
        simpa [List.any_eq_false] using hafter
      have hne : members.isEmpty = false := by
        obtain ⟨s, hs, -⟩ := hbefore
        exact List.isEmpty_eq_false_iff.2 (List.ne_nil_of_mem hs)
      rw [hany, hany', Bool.or_true, Bool.or_false, if_pos rfl, hne, if_neg Bool.false_ne_true]
      refine ⟨List.nil_sublist _, iff_of_false (List.cons_ne_nil _ _).symm ?_⟩
      rw [Classical.not_not]
      refine ⟨hbefore, fun t ht hnil => ?_⟩
      by_contra hdefers
      exact hafter ⟨t, ht, ((h t ht).eq_iff.2 hdefers).symm.trans hnil⟩
  · have hafter : ¬∃ s ∈ members, s.findings mode (value.renameKeys discriminator new) = [] := by
      rintro ⟨s, hs, hnil⟩
      exact hbefore ⟨s, hs, List.sublist_nil.1 (hnil ▸ (h s hs).sublist)⟩
    have hany : (members.any fun s => (s.findings mode value).isEmpty) = false := by
      simpa [List.any_eq_false] using hbefore
    have hany' : (members.any fun s =>
        (s.findings mode (value.renameKeys discriminator new)).isEmpty) = false := by
      simpa [List.any_eq_false] using hafter
    rw [hany, hany']
    exact .of_true _ fun hdefers => hbefore hdefers.1

include hnew

/-- What is found in a value is found in the renamed one as well, and nothing else is found there if
and only if nothing was let pass as a reference. -/
theorem findings_renameKeys (mode : Mode) (s : Schema) (hold : ¬s.Declares discriminator)
    (hdeclares : ¬s.Declares new) : ∀ value : Json, ¬value.HasKey new →
      WholeIff (s.findings mode value) (s.findings mode (value.renameKeys discriminator new))
        (¬Defers mode s value) := by
  induction s using Schema.induction with
  | primitive type _ =>
    intro value _
    rw [findings, findings, primitiveFindings_renameKeys]
    exact .of_true _ (by rintro ⟨⟩)
  | array element _ ih =>
    intro value hkey
    cases value with
    | array items =>
      rw [Json.renameKeys, Json.renameItems_eq]
      cases element with
      | none =>
        simp only [findings, elementFindings]
        exact .of_true _ (by rintro ⟨⟩)
      | some element =>
        simp only [findings, elementFindings_some, defers_array, not_exists, not_and, List.zipIdx_map,
          List.flatMap_map]
        refine (WholeIff.flatMap fun item hitem => (ih element rfl (mt .element hold)
          (mt .element hdeclares) item.1 ?_).map _).congr ?_
        · exact fun h => hkey (.item (List.fst_mem_of_mem_zipIdx hitem) h)
        · exact forall_mem_zipIdx items fun item => ¬Defers mode element item
    | object members => exact findings_reference fun h => hkey (.here h)
    | _ =>
      simp only [Json.renameKeys, findings]
      exact .of_true _ (by rintro ⟨⟩)
  | object properties ignored _ ih =>
    intro value hkey
    cases value with
    | object members =>
      rw [Json.renameKeys]
      simp only [findings, propertyFindings_eq, unknownFindings_renameMembers hnew, defers_object,
        not_exists, not_and]
      -- A declared property keeps its name: it is neither the old discriminator nor the new one.
      refine WholeIff.append_right _ (.flatMap fun p hp => ?_)
      rw [lookup_declared hp hold hdeclares]
      refine (check_of_findings fun v hv => ?_).map _
      apply ih p hp (mt (.property hp) hold) (mt (.property hp) hdeclares)
      intro h
      exact hkey (.member (Record.mem_of_lookup hv) h)
    | _ =>
      simp only [Json.renameKeys, findings]
      exact .of_true _ (by rintro ⟨⟩)
  | union members _ ih =>
    intro value hkey
    exact findings_union fun s hs =>
      ih s hs (mt (.member hs) hold) (mt (.member hs) hdeclares) value hkey
  | special tag _ =>
    intro value _
    rw [findings, findings, specialFindings_renameKeys hnew]
    exact .of_true _ (by rintro ⟨⟩)
  | any _ =>
    intro value _
    rw [findings, findings]
    exact .of_true _ (by rintro ⟨⟩)

/-! ## Errors and warnings -/

theorem warnings_findings_renameKeys (mode : Mode) (s : Schema) (hold : ¬s.Declares discriminator)
    (hdeclares : ¬s.Declares new) : ∀ value : Json,
      (s.findings mode (value.renameKeys discriminator new)).filter (fun f => !f.isError) =
        (s.findings mode value).filter fun f => !f.isError := by
  induction s using Schema.induction with
  | primitive type _ =>
    intro value
    rw [findings, findings, primitiveFindings_renameKeys]
  | array element _ ih =>
    intro value
    cases value with
    | array items =>
      rw [Json.renameKeys, Json.renameItems_eq]
      cases element with
      | none => simp only [findings, elementFindings]
      | some element =>
        simp only [findings, elementFindings_some, List.zipIdx_map, List.flatMap_map,
          List.filter_flatMap, List.filter_map]
        refine List.flatMap_congr fun item _ => ?_
        exact congrArg _ (ih element rfl (mt .element hold) (mt .element hdeclares) item.1)
    | object members =>
      simp only [Json.renameKeys, findings]
      split <;> split <;> rfl
    | _ => simp only [Json.renameKeys, findings]
  | object properties ignored _ ih =>
    intro value
    cases value with
    | object members =>
      rw [Json.renameKeys]
      simp only [findings, propertyFindings_eq, unknownFindings_renameMembers hnew, List.filter_append,
        List.filter_flatMap, List.filter_map]
      congr 1
      refine List.flatMap_congr fun p hp => ?_
      rw [lookup_declared hp hold hdeclares]
      cases members.lookup p.1 with
      | none => rfl
      | some v =>
        exact congrArg _ (ih p hp (mt (.property hp) hold) (mt (.property hp) hdeclares) v)
    | _ => simp only [Json.renameKeys, findings, Json.kind]
  | union members _ _ =>
    intro value
    rw [findings, findings]
    split <;> split <;> rfl
  | special tag _ =>
    intro value
    rw [findings, findings, specialFindings_renameKeys hnew]
  | any _ =>
    intro value
    rw [findings, findings]

section Issues

variable {s : Schema} (hold : ¬s.Declares discriminator) (hdeclares : ¬s.Declares new)
  (hkey : ¬value.HasKey new)

include hold hdeclares

theorem warnings_validate_renameKeys (mode : Mode) (base : String) (value : Json) :
    (s.validate mode base (some (value.renameKeys discriminator new))).filter Issue.isWarning =
      (s.validate mode base (some value)).filter Issue.isWarning := by
  have hwarnings := warnings_findings_renameKeys hnew mode s hold hdeclares value
  have hfilter : ∀ fs : List Finding, (fs.map (Finding.issue base)).filter Issue.isWarning =
      (fs.filter fun f => !f.isError).map (Finding.issue base) := by
    intro fs
    rw [List.filter_map]
    refine congrArg (List.map _) (List.filter_congr fun f _ => ?_)
    exact Issue.isWarning_eq_not_isError _
  rw [validate, validate, hfilter, hfilter, check, check, hwarnings]

include hkey

theorem validate_renameKeys (mode : Mode) (base : String) :
    WholeIff (s.validate mode base (some value))
      (s.validate mode base (some (value.renameKeys discriminator new))) (¬Defers mode s value) :=
  (findings_renameKeys hnew mode s hold hdeclares value hkey).map _

theorem errors_validate_renameKeys (mode : Mode) (base : String) :
    WholeIff ((s.validate mode base (some value)).filter Issue.isError)
      ((s.validate mode base (some (value.renameKeys discriminator new))).filter Issue.isError)
      (¬Defers mode s value) := by
  refine (validate_renameKeys hnew hold hdeclares hkey mode base).filter ?_
  simp only [← Issue.isWarning_eq_not_isError]
  exact (warnings_validate_renameKeys hnew hold hdeclares mode base value).symm

end Issues

end Findings

end Schema

end BlockCheck
