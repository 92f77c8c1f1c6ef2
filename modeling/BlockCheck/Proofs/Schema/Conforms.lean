import BlockCheck.Proofs.Lists
import BlockCheck.Validation
import Mathlib.Tactic.MkIffOfInductiveProp

/-!
# Values that conform

A relation of values to schemas that says nothing of findings. A value conforms if and only if
nothing is found, in both modes, and an absent value conforms to what is optional.
-/

namespace BlockCheck

namespace Json

inductive Falsy : Json → Prop
  | null : Falsy .null
  | no : Falsy (.bool false)
  | zero : Falsy (.int 0)
  | realZero {negative : Bool} {exponent : Int} : Falsy (.real (.finite negative 0 exponent))
  | blank : Falsy (.string "")

def HasTruthy (key : String) (value : Json) : Prop :=
  ∃ held, value.get? key = some held ∧ ¬held.Falsy

variable {value : Json} {key : String}

theorem truthy_iff : value.truthy = true ↔ ¬value.Falsy := by
  constructor
  · intro h hfalsy
    cases hfalsy <;> simp [truthy, Number.Binary64.isZero] at h
  · intro h
    cases value with
    | null => exact absurd .null h
    | bool b =>
      cases b
      · exact absurd .no h
      · rfl
    | int n =>
      rw [truthy, decide_eq_true_iff]
      rintro rfl
      exact h .zero
    | real x =>
      rw [truthy, Bool.not_eq_true', Bool.eq_false_iff]
      intro hzero
      unfold Number.Binary64.isZero at hzero
      split at hzero
      · cases of_decide_eq_true hzero
        exact h .realZero
      · cases hzero
    | string s =>
      rw [truthy, Bool.not_eq_true', String.isEmpty_eq_false_iff]
      rintro rfl
      exact h .blank
    | array items => rfl
    | object members => rfl

theorem truthyAt_iff : value.truthyAt key = true ↔ value.HasTruthy key := by
  unfold truthyAt HasTruthy
  cases value.get? key with
  | none => simp
  | some held => simp [truthy_iff]

theorem listAt_iff :
    value.listAt key = true ↔ ∃ items, value.get? key = some (.array items) := by
  unfold listAt
  split
  · rename_i items hget
    exact iff_of_true rfl ⟨items, hget⟩
  · rename_i hlist
    exact iff_of_false Bool.false_ne_true fun ⟨items, hget⟩ => hlist items hget

end Json

inductive Primitive.Types : Primitive → Json → Prop
  | string {s : String} : Types .string (.string s)
  | int {n : Int} : Types .number (.int n)
  | real {x : Number.Binary64} : Types .number (.real x)
  | bool {b : Bool} : Types .boolean (.bool b)
  | null : Types .null .null

namespace Schema

/-- What the platform's own types ask of a value. Only an object has fields, and a type that is not
listed asks nothing. -/
@[mk_iff]
structure MeetsRule (tag : String) (value : Json) : Prop where
  text : tag ∈ textTags → ∃ s, value = .string s
  product : tag = "Product" → value.HasTruthy "productID" ∨ value.HasTruthy "sku"
  listing : tag = "ProductListingPage" → ∃ items, value.get? "products" = some (.array items)
  details : tag = "ProductDetailsPage" → value.HasTruthy "product"

/-- The schema of an object says something of the key, or the key is reserved. -/
def Knows (properties : List (String × Schema)) (ignored : List String) (key : String) : Prop :=
  key ∈ Record.keys properties ∨ key ∈ ignored ∨ reservedStart.toList <+: key.toList

inductive Conforms (mode : Mode) : Schema → Option Json → Prop
  | absent {s : Schema} : s.optional = true → Conforms mode s none
  | any {optional : Bool} {value : Json} : Conforms mode (.any optional) (some value)
  | primitive {type : Primitive} {optional : Bool} {value : Json} :
      type.Types value → Conforms mode (.primitive type optional) (some value)
  | reference {element : Option Schema} {optional : Bool} {members : List (String × Json)} :
      discriminator ∈ Record.keys members →
      Conforms mode (.array element optional) (some (.object members))
  | array {element : Option Schema} {optional : Bool} {items : List Json} :
      (∀ s ∈ element, ∀ item ∈ items, Conforms mode s (some item)) →
      Conforms mode (.array element optional) (some (.array items))
  | object {properties : List (String × Schema)} {ignored : List String} {optional : Bool}
      {members : List (String × Json)} :
      (∀ p ∈ properties, Conforms mode p.2 (members.lookup p.1)) →
      (mode = .strict → ∀ key ∈ Record.keys members, Knows properties ignored key) →
      Conforms mode (.object properties ignored optional) (some (.object members))
  | anything {optional : Bool} {value : Json} : Conforms mode (.union [] optional) (some value)
  | member {members : List Schema} {optional : Bool} {value : Json} {s : Schema} :
      s ∈ members → Conforms mode s (some value) →
      Conforms mode (.union members optional) (some value)
  | special {tag : String} {optional : Bool} {value : Json} :
      MeetsRule tag value → Conforms mode (.special tag optional) (some value)

variable {mode : Mode} {optional : Bool} {value : Json} {members : List (String × Json)}

/-! ## What conforms, kind by kind -/

theorem conforms_none {s : Schema} : Conforms mode s none ↔ s.optional = true := by
  constructor
  · rintro ⟨h⟩
    exact h
  · exact .absent

theorem conforms_array {element : Option Schema} {items : List Json} :
    Conforms mode (.array element optional) (some (.array items)) ↔
      ∀ s ∈ element, ∀ item ∈ items, Conforms mode s (some item) := by
  constructor
  · rintro ⟨⟩
    assumption
  · exact .array

theorem conforms_array_object {element : Option Schema} :
    Conforms mode (.array element optional) (some (.object members)) ↔
      discriminator ∈ Record.keys members := by
  constructor
  · rintro ⟨⟩
    assumption
  · exact .reference

theorem conforms_object {properties : List (String × Schema)} {ignored : List String} :
    Conforms mode (.object properties ignored optional) (some (.object members)) ↔
      (∀ p ∈ properties, Conforms mode p.2 (members.lookup p.1)) ∧
        (mode = .strict → ∀ key ∈ Record.keys members, Knows properties ignored key) := by
  constructor
  · intro h
    cases h with
    | object hproperties hkeys => exact ⟨hproperties, hkeys⟩
  · rintro ⟨hproperties, hkeys⟩
    exact .object hproperties hkeys

theorem conforms_union {members : List Schema} :
    Conforms mode (.union members optional) (some value) ↔
      members = [] ∨ ∃ s ∈ members, Conforms mode s (some value) := by
  constructor
  · intro h
    cases h with
    | anything => exact Or.inl rfl
    | member hs h => exact Or.inr ⟨_, hs, h⟩
  · rintro (rfl | ⟨s, hs, h⟩)
    · exact .anything
    · exact .member hs h

/-! ## When nothing is found -/

theorem primitiveFindings_eq_nil_iff {type : Primitive} :
    primitiveFindings type value = [] ↔ type.Types value := by
  constructor
  · intro h
    unfold primitiveFindings at h
    split at h
    · exact .string
    · exact .int
    · exact .real
    · exact .bool
    · exact .null
    · cases h
  · rintro ⟨⟩ <;> rfl

theorem recordFindings_eq_nil_iff {tag : String} (htag : tag ∈ recordTags) :
    recordFindings tag value = [] ↔ MeetsRule tag value := by
  simp only [recordTags, List.mem_cons, List.not_mem_nil, or_false] at htag
  rw [meetsRule_iff]
  rcases htag with rfl | rfl | rfl
  · simp [recordFindings, textTags, ← Json.truthyAt_iff, Classical.or_iff_not_imp_left]
  · simp [recordFindings, textTags, ← Json.listAt_iff]
  · simp [recordFindings, textTags, ← Json.truthyAt_iff]

theorem MeetsRule.isObject {tag : String} (htag : tag ∈ recordTags) (h : MeetsRule tag value) :
    ∃ members, value = .object members := by
  have hget : ∃ key held, value.get? key = some held := by
    simp only [recordTags, List.mem_cons, List.not_mem_nil, or_false] at htag
    rcases htag with rfl | rfl | rfl
    · rcases h.product rfl with ⟨held, hget, -⟩ | ⟨held, hget, -⟩
      · exact ⟨_, held, hget⟩
      · exact ⟨_, held, hget⟩
    · obtain ⟨items, hget⟩ := h.listing rfl
      exact ⟨_, _, hget⟩
    · obtain ⟨held, hget, -⟩ := h.details rfl
      exact ⟨_, held, hget⟩
  obtain ⟨key, held, hget⟩ := hget
  unfold Json.get? at hget
  split at hget
  · exact ⟨_, rfl⟩
  · cases hget

theorem specialFindings_eq_nil_iff {tag : String} :
    specialFindings tag value = [] ↔ MeetsRule tag value := by
  unfold specialFindings
  split
  · rename_i htext
    have hrule : MeetsRule tag value ↔ ∃ s, value = .string s := by
      simp only [textTags, List.mem_cons, List.not_mem_nil, or_false] at htext
      rcases htext with rfl | rfl | rfl | rfl | rfl <;> simp [meetsRule_iff, textTags]
    rw [hrule]
    split <;> simp_all
  split
  · rename_i htag
    split
    · exact recordFindings_eq_nil_iff htag
    · exact recordFindings_eq_nil_iff htag
    · rename_i hobject _
      refine iff_of_false (List.cons_ne_nil _ _) fun h => ?_
      obtain ⟨members, heq⟩ := h.isObject htag
      exact hobject members heq
  · rename_i htext htag
    refine iff_of_true rfl ⟨fun h => absurd h htext, ?_, ?_, ?_⟩
    all_goals
      rintro rfl
      exact absurd (by decide) htag

theorem absentFindings_eq_nil_iff {s : Schema} : s.absentFindings = [] ↔ s.optional = true := by
  simp [absentFindings]

theorem elementFindings_eq_nil_iff {element : Option Schema} {items : List Json} :
    elementFindings mode element items = [] ↔
      ∀ s ∈ element, ∀ item ∈ items, findings mode s item = [] := by
  cases element with
  | none => simp [elementFindings]
  | some s =>
    rw [elementFindings_some, List.flatMap_eq_nil_iff]
    simp only [List.map_eq_nil_iff, Option.mem_some_iff, forall_eq']
    exact forall_mem_zipIdx items fun item => findings mode s item = []

theorem propertyFindings_eq_nil_iff {properties : List (String × Schema)} :
    propertyFindings mode properties members = [] ↔
      ∀ p ∈ properties, check mode p.2 (members.lookup p.1) = [] := by
  simp only [propertyFindings_eq, List.flatMap_eq_nil_iff, List.map_eq_nil_iff]

theorem isUnknownKey_eq_false_iff {properties : List (String × Schema)} {ignored : List String}
    {key : String} : isUnknownKey properties ignored key = false ↔ Knows properties ignored key := by
  unfold isUnknownKey Knows Text.startsWith
  rw [← Record.hasKey_iff, ← List.isPrefixOf_iff_prefix, ← List.contains_iff_mem]
  cases Record.hasKey key properties <;> cases ignored.contains key <;>
    cases reservedStart.toList.isPrefixOf key.toList <;> decide

theorem mem_unknownFindings_iff {properties : List (String × Schema)} {ignored : List String}
    {f : Finding} : f ∈ unknownFindings mode properties ignored members ↔
      mode = .strict ∧ ∃ key ∈ Record.keys members, ¬Knows properties ignored key ∧
        f = ⟨[.key key], .unknownProperty⟩ := by
  cases mode with
  | lenient => simp [unknownFindings]
  | strict =>
    simp [unknownFindings_strict, ← isUnknownKey_eq_false_iff, and_assoc, @eq_comm _ f]

theorem unknownFindings_eq_nil_iff {properties : List (String × Schema)} {ignored : List String} :
    unknownFindings mode properties ignored members = [] ↔
      (mode = .strict → ∀ key ∈ Record.keys members, Knows properties ignored key) := by
  cases mode with
  | lenient => simp [unknownFindings]
  | strict => simp [unknownFindings_strict, ← isUnknownKey_eq_false_iff]

/-! ## Findings and conformance -/

theorem check_eq_nil_iff_of_findings {s : Schema}
    (h : ∀ value, s.findings mode value = [] ↔ Conforms mode s (some value)) (value : Option Json) :
    s.check mode value = [] ↔ Conforms mode s value := by
  cases value with
  | none => rw [check, absentFindings_eq_nil_iff, conforms_none]
  | some value => exact h value

theorem findings_eq_nil_iff_conforms (mode : Mode) (s : Schema) :
    ∀ value, s.findings mode value = [] ↔ Conforms mode s (some value) := by
  induction s using Schema.induction with
  | primitive type _ =>
    intro value
    rw [findings, primitiveFindings_eq_nil_iff]
    constructor
    · exact .primitive
    · rintro ⟨⟩
      assumption
  | array element _ ih =>
    intro value
    unfold findings
    split
    · rw [elementFindings_eq_nil_iff, conforms_array]
      exact forall₂_congr fun s hs => forall₂_congr fun item _ => ih s hs item
    · rename_i members
      simp only [conforms_array_object, ite_eq_left_iff, reduceCtorEq, imp_false, Decidable.not_not]
      exact Record.isSome_lookup_iff
    · rename_i hitems hmembers
      refine iff_of_false (List.cons_ne_nil _ _) ?_
      rintro ⟨⟩
      · exact hmembers _ rfl
      · exact hitems _ rfl
  | object properties ignored _ ih =>
    intro value
    unfold findings
    split
    · rw [List.append_eq_nil_iff, propertyFindings_eq_nil_iff, unknownFindings_eq_nil_iff,
        conforms_object]
      refine and_congr_left' (forall₂_congr fun p hp => ?_)
      exact check_eq_nil_iff_of_findings (ih p hp) _
    · rename_i hmembers
      refine iff_of_false (List.cons_ne_nil _ _) ?_
      rintro ⟨⟩
      exact hmembers _ rfl
  | union members _ ih =>
    intro value
    rw [findings, conforms_union, anyAccepts_eq]
    simp only [ite_eq_left_iff, reduceCtorEq, imp_false, Decidable.not_not, Bool.or_eq_true,
      List.isEmpty_iff, List.any_eq_true]
    exact or_congr_right (exists_congr fun s => and_congr_right fun hs => ih s hs value)
  | special tag _ =>
    intro value
    rw [findings, specialFindings_eq_nil_iff]
    constructor
    · exact .special
    · rintro ⟨⟩
      assumption
  | any _ =>
    intro value
    exact iff_of_true (by rw [findings]) .any

/-- Checking a value finds nothing if and only if the value conforms. -/
theorem validate_eq_nil_iff_conforms (mode : Mode) (base : String) (s : Schema)
    (value : Option Json) : s.validate mode base value = [] ↔ Conforms mode s value := by
  rw [validate, List.map_eq_nil_iff]
  exact check_eq_nil_iff_of_findings (findings_eq_nil_iff_conforms mode s) value

end Schema

end BlockCheck
