import BlockCheck.Proofs.Schema.Conforms

/-!
# The two modes

A strict run finds what a lenient run finds, and more. What is more is not always a warning: a union
accepts a value only if some member finds nothing at all, so a key that a member does not declare can
leave the union without a member. The errors of the two modes are the same if and only if no union
that is reached in the value is accepted leniently only.
-/

namespace BlockCheck

namespace Finding

def isError (f : Finding) : Bool := f.problem.severity = .error

theorem filter_isError_map_under (step : Step) (fs : List Finding) :
    (fs.map (under step)).filter isError = (fs.filter isError).map (under step) := List.filter_map

theorem filter_isError_map_issue (base : String) (fs : List Finding) :
    (fs.map (issue base)).filter Issue.isError = (fs.filter isError).map (issue base) :=
  List.filter_map

end Finding

namespace Schema

/-- Some union that is reached in the value accepts what it is given only as long as unknown keys
are let be. -/
inductive Hinges : Schema → Json → Prop
  | union {members : List Schema} {optional : Bool} {value : Json} :
      Conforms .lenient (.union members optional) (some value) →
      ¬Conforms .strict (.union members optional) (some value) →
      Hinges (.union members optional) value
  | item {element : Schema} {optional : Bool} {items : List Json} {value : Json} :
      value ∈ items → Hinges element value → Hinges (.array (some element) optional) (.array items)
  | property {properties : List (String × Schema)} {ignored : List String} {optional : Bool}
      {members : List (String × Json)} {p : String × Schema} {value : Json} :
      p ∈ properties → members.lookup p.1 = some value → Hinges p.2 value →
      Hinges (.object properties ignored optional) (.object members)

variable {optional : Bool} {value : Json} {members : List (String × Json)}

theorem hinges_array {element : Schema} {items : List Json} :
    Hinges (.array (some element) optional) (.array items) ↔ ∃ v ∈ items, Hinges element v := by
  constructor
  · rintro ⟨⟩
    exact ⟨_, ‹_›, ‹_›⟩
  · rintro ⟨v, hv, h⟩
    exact .item hv h

theorem hinges_object {properties : List (String × Schema)} {ignored : List String} :
    Hinges (.object properties ignored optional) (.object members) ↔
      ∃ p ∈ properties, ∃ v ∈ members.lookup p.1, Hinges p.2 v := by
  constructor
  · intro h
    cases h with
    | property hp hv h => exact ⟨_, hp, _, hv, h⟩
  · rintro ⟨p, hp, v, hv, h⟩
    exact .property hp hv h

theorem hinges_union {members : List Schema} :
    Hinges (.union members optional) value ↔
      Conforms .lenient (.union members optional) (some value) ∧
        ¬Conforms .strict (.union members optional) (some value) := by
  constructor
  · intro h
    cases h with
    | union hlenient hstrict => exact ⟨hlenient, hstrict⟩
  · rintro ⟨hlenient, hstrict⟩
    exact .union hlenient hstrict

/-! ## What a strict run finds besides -/

theorem check_lenient_sublist {s : Schema}
    (h : ∀ value, (s.findings .lenient value).Sublist (s.findings .strict value))
    (value : Option Json) : (s.check .lenient value).Sublist (s.check .strict value) := by
  cases value with
  | none => exact .refl _
  | some value => exact h value

theorem findings_lenient_sublist (s : Schema) :
    ∀ value, (s.findings .lenient value).Sublist (s.findings .strict value) := by
  induction s using Schema.induction with
  | primitive type _ => simp [findings]
  | array element _ ih =>
    intro value
    unfold findings
    split
    · cases element with
      | none => simp [elementFindings]
      | some element =>
        simp only [elementFindings_some]
        exact List.Sublist.flatMap_right _ fun item _ => (ih element rfl item.1).map _
    · exact .refl _
    · exact .refl _
  | object properties ignored _ ih =>
    intro value
    unfold findings
    split
    · rename_i members
      simp only [propertyFindings_eq]
      refine List.Sublist.append ?_ (List.nil_sublist _)
      exact List.Sublist.flatMap_right _ fun p hp => (check_lenient_sublist (ih p hp) _).map _
    · exact .refl _
  | union members _ ih =>
    intro value
    -- A member that finds nothing strictly finds nothing leniently, so more is let pass.
    have haccepts : anyAccepts .strict members value = true →
        anyAccepts .lenient members value = true := by
      simp only [anyAccepts_eq, List.any_eq_true, List.isEmpty_iff]
      rintro ⟨s, hs, hnil⟩
      exact ⟨s, hs, List.sublist_nil.1 (hnil ▸ ih s hs value)⟩
    rw [findings, findings]
    cases hlenient : anyAccepts .lenient members value with
    | true => simp
    | false => simp [mt haccepts (Bool.eq_false_iff.1 hlenient)]
  | special tag _ => simp [findings]
  | any _ => simp [findings]

/-- A union has one finding at most, so the lenient run finds all of it or nothing. -/
theorem findings_union_eq {members : List Schema} {optional : Bool} {value : Json}
    (h : (Schema.union members optional).findings .lenient value ≠ []) :
    (Schema.union members optional).findings .lenient value =
      (Schema.union members optional).findings .strict value := by
  have hlength : ((Schema.union members optional).findings .strict value).length ≤ 1 := by
    rw [findings]
    split <;> simp
  exact (findings_lenient_sublist _ value).eq_of_length_le
    (Nat.le_trans hlength (List.length_pos_iff.2 h))

/-! ## When the errors are the same -/

theorem filter_isError_unknownFindings (mode : Mode) (properties : List (String × Schema))
    (ignored : List String) :
    (unknownFindings mode properties ignored members).filter Finding.isError = [] := by
  rw [List.filter_eq_nil_iff]
  intro f hf
  obtain ⟨-, key, -, -, rfl⟩ := mem_unknownFindings_iff.1 hf
  exact Bool.false_ne_true

theorem errors_check_of_findings {s : Schema}
    (h : ∀ value, WholeIff ((s.findings .lenient value).filter Finding.isError)
      ((s.findings .strict value).filter Finding.isError) (¬Hinges s value)) (value : Option Json) :
    WholeIff ((s.check .lenient value).filter Finding.isError)
      ((s.check .strict value).filter Finding.isError) (∀ v ∈ value, ¬Hinges s v) := by
  cases value with
  | none => exact .of_true _ (by rintro _ ⟨⟩)
  | some value => exact (h value).congr (by simp)

theorem errors_union (mode : Mode) (members : List Schema) (optional : Bool) (value : Json) :
    ((Schema.union members optional).findings mode value).filter Finding.isError =
      (Schema.union members optional).findings mode value := by
  rw [findings]
  split <;> rfl

theorem errors_findings (s : Schema) :
    ∀ value, WholeIff ((s.findings .lenient value).filter Finding.isError)
      ((s.findings .strict value).filter Finding.isError) (¬Hinges s value) := by
  induction s using Schema.induction with
  | primitive type _ =>
    intro value
    rw [findings, findings]
    exact .of_true _ (by rintro ⟨⟩)
  | array element _ ih =>
    intro value
    cases value with
    | array items =>
      cases element with
      | none =>
        simp only [findings, elementFindings]
        exact .of_true _ (by rintro ⟨⟩)
      | some element =>
        simp only [findings, elementFindings_some, List.filter_flatMap,
          Finding.filter_isError_map_under, hinges_array, not_exists, not_and]
        refine (WholeIff.flatMap fun item _ => (ih element rfl item.1).map _).congr ?_
        exact forall_mem_zipIdx items fun item => ¬Hinges element item
    | _ =>
      simp only [findings]
      exact .of_true _ (by rintro ⟨⟩)
  | object properties ignored _ ih =>
    intro value
    cases value with
    | object members =>
      -- What a strict run finds of an object itself are warnings, so only its properties matter.
      simp only [findings, propertyFindings_eq, List.filter_append, filter_isError_unknownFindings,
        List.append_nil, List.filter_flatMap, Finding.filter_isError_map_under, hinges_object,
        not_exists, not_and]
      exact .flatMap fun p hp => (errors_check_of_findings (ih p hp) _).map _
    | _ =>
      simp only [findings]
      exact .of_true _ (by rintro ⟨⟩)
  | union members optional _ =>
    intro value
    rw [errors_union, errors_union, hinges_union, ← findings_eq_nil_iff_conforms,
      ← findings_eq_nil_iff_conforms]
    refine ⟨findings_lenient_sublist _ value, fun heq h => h.2 (heq ▸ h.1), fun h => ?_⟩
    by_cases hlenient : (Schema.union members optional).findings .lenient value = []
    · rw [hlenient, Classical.not_not.1 fun hstrict => h ⟨hlenient, hstrict⟩]
    · exact findings_union_eq hlenient
  | special tag _ =>
    intro value
    rw [findings, findings]
    exact .of_true _ (by rintro ⟨⟩)
  | any _ =>
    intro value
    rw [findings, findings]
    exact .of_true _ (by rintro ⟨⟩)

/-- The errors of a lenient run are among those of a strict run, and they are all of them if and
only if nothing hinges on unknown keys. -/
theorem errors_validate (base : String) (s : Schema) (value : Option Json) :
    WholeIff ((s.validate .lenient base value).filter Issue.isError)
      ((s.validate .strict base value).filter Issue.isError) (∀ v ∈ value, ¬Hinges s v) := by
  rw [validate, validate, Finding.filter_isError_map_issue, Finding.filter_isError_map_issue]
  exact (errors_check_of_findings (errors_findings s) value).map _

end Schema

end BlockCheck
