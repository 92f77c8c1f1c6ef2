import BlockCheck.Proofs.Schema.Modes
import BlockCheck.Proofs.Schema.Origins

/-!
# What only a strict run finds

What a strict run finds besides is put between the findings of a lenient run, which keep their
order. It is an unknown property, or a union that has no member left because of one. Without a union
in the schema there is nothing else, and the lenient findings are the strict ones less the unknown
properties.
-/

namespace BlockCheck

namespace Problem

variable {problem : Problem}

theorem severity_of_unionMismatch (h : problem.code = .unionMismatch) : problem.severity = .error := by
  cases problem with
  | noUnionMember names => rfl
  | _ => cases h

theorem code_ne_unknownProperty (h : problem.severity = .error) : problem.code ≠ .unknownProperty := by
  cases problem with
  | unknownProperty => cases h
  | _ => exact IssueCode.noConfusion

end Problem

namespace Schema

variable {s : Schema} {members : List (String × Json)}

inductive HasUnion : Schema → Prop
  | here {members : List Schema} {optional : Bool} : HasUnion (.union members optional)
  | element {element : Schema} {optional : Bool} :
      HasUnion element → HasUnion (.array (some element) optional)
  | property {properties : List (String × Schema)} {ignored : List String} {optional : Bool}
      {p : String × Schema} : p ∈ properties → HasUnion p.2 → HasUnion (.object properties ignored optional)

/-! ## A lenient run finds errors only -/

theorem Finds.isError_of_lenient {value : Json} {f : Finding} (h : Finds .lenient s value f) :
    f.isError = true := by
  generalize hmode : Mode.lenient = mode at h
  induction h with
  | whole hproblem => cases hproblem <;> rfl
  | unidentified | lacking => rfl
  | item _ _ ih | inside _ _ _ ih => exact ih
  | unknown hstrict => cases hmode.trans hstrict

theorem isError_check_lenient {value : Option Json} {f : Finding} (hf : f ∈ s.check .lenient value) :
    f.isError = true := by
  obtain ⟨-, -, rfl⟩ | ⟨held, -, hf⟩ := mem_check_iff.1 hf
  · rfl
  · exact (finds_of_mem_findings .lenient s held f hf).isError_of_lenient

/-! ## What strictness puts in -/

/-- An unknown property or, if there is a union in the schema, a union without a fitting member. -/
def StrictOnly (s : Schema) (problem : Problem) : Prop :=
  problem = .unknownProperty ∨ s.HasUnion ∧ problem.code = .unionMismatch

theorem StrictOnly.mono {part : Schema} (h : part.HasUnion → s.HasUnion) {problem : Problem}
    (hproblem : part.StrictOnly problem) : s.StrictOnly problem :=
  hproblem.imp_right (And.imp_left h)

theorem addsOnly_under {part : Schema} (h : part.HasUnion → s.HasUnion) (step : Step)
    {fs gs : List Finding} (hpart : AddsOnly (fun f => part.StrictOnly f.problem) fs gs) :
    AddsOnly (fun f => s.StrictOnly f.problem) (fs.map (Finding.under step))
      (gs.map (Finding.under step)) :=
  hpart.map (Finding.under step) fun _ hf => hf.mono h

theorem addsOnly_unknownFindings (properties : List (String × Schema)) (ignored : List String) :
    AddsOnly (fun f => s.StrictOnly f.problem) (unknownFindings .lenient properties ignored members)
      (unknownFindings .strict properties ignored members) := by
  refine .of_forall fun f hf => ?_
  obtain ⟨-, key, -, -, rfl⟩ := mem_unknownFindings_iff.1 hf
  exact Or.inl rfl

theorem addsOnly_check
    (h : ∀ value, AddsOnly (fun f => s.StrictOnly f.problem) (s.findings .lenient value)
      (s.findings .strict value)) (value : Option Json) :
    AddsOnly (fun f => s.StrictOnly f.problem) (s.check .lenient value) (s.check .strict value) := by
  cases value with
  | none => exact .refl _
  | some value => exact h value

theorem addsOnly_findings (s : Schema) :
    ∀ value, AddsOnly (fun f => s.StrictOnly f.problem) (s.findings .lenient value)
      (s.findings .strict value) := by
  induction s using Schema.induction with
  | primitive type _ =>
    intro value
    rw [findings, findings]
    exact .refl _
  | array element _ ih =>
    intro value
    cases value with
    | array items =>
      cases element with
      | none =>
        rw [findings, findings, elementFindings, elementFindings]
        exact .nil
      | some element =>
        simp only [findings, elementFindings_some]
        exact .flatMap fun item _ => addsOnly_under .element _ (ih element rfl item.1)
    | _ =>
      simp only [findings]
      exact .refl _
  | object properties ignored _ ih =>
    intro value
    cases value with
    | object members =>
      simp only [findings, propertyFindings_eq]
      refine .append (.flatMap fun p hp => ?_) (addsOnly_unknownFindings properties ignored)
      exact addsOnly_under (.property hp) _ (addsOnly_check (ih p hp) _)
    | _ =>
      simp only [findings]
      exact .refl _
  | union members optional _ =>
    intro value
    -- The one finding that a union may have is put in, or was there before.
    by_cases hlenient : (Schema.union members optional).findings .lenient value = []
    · rw [hlenient]
      refine .of_forall fun f hf => Or.inr ⟨.here, ?_⟩
      rw [findings] at hf
      split at hf
      · cases hf
      · rw [List.mem_singleton.1 hf]
        rfl
    · rw [findings_union_eq hlenient]
      exact .refl _
  | special tag _ =>
    intro value
    rw [findings, findings]
    exact .refl _
  | any _ =>
    intro value
    rw [findings, findings]
    exact .refl _

/-! ## Issues -/

theorem addsOnly_validate (base : String) (s : Schema) (value : Option Json) :
    AddsOnly (fun issue => s.StrictOnly issue.problem) (s.validate .lenient base value)
      (s.validate .strict base value) :=
  (addsOnly_check (addsOnly_findings s) value).map (Finding.issue base) fun _ h => h

/-- A strict run keeps the issues of a lenient run in their order. What it has more of is a warning
about an unknown property or an error about a union, and where the schema has no union the lenient
issues are the strict ones less the unknown properties. -/
theorem validate_lenient_of_strict (base : String) (s : Schema) (value : Option Json) :
    (s.validate .lenient base value).Sublist (s.validate .strict base value) ∧
    (∀ issue, (s.validate .lenient base value).count issue <
        (s.validate .strict base value).count issue →
      (issue.problem.code = .unknownProperty ∧ issue.severity = .warning) ∨
        (issue.problem.code = .unionMismatch ∧ issue.severity = .error)) ∧
    (¬s.HasUnion → s.validate .lenient base value =
      (s.validate .strict base value).filter (fun issue => issue.problem.code ≠ .unknownProperty)) := by
  have hadds := addsOnly_validate base s value
  refine ⟨hadds.sublist, fun issue hlt => ?_, fun hunion => ?_⟩
  · rcases hadds.of_count_lt hlt with hunknown | ⟨-, hcode⟩
    · exact Or.inl (by simp [Issue.severity, hunknown, Problem.code, Problem.severity])
    · exact Or.inr ⟨hcode, Problem.severity_of_unionMismatch hcode⟩
  · refine hadds.eq_filter (fun issue hissue => ?_) (fun issue hissue => ?_)
    · rcases hissue with hunknown | ⟨hhas, -⟩
      · simp [hunknown, Problem.code]
      · exact absurd hhas hunion
    · obtain ⟨f, hf, rfl⟩ := List.mem_map.1 hissue
      have herror := isError_check_lenient hf
      exact decide_eq_true (Problem.code_ne_unknownProperty (of_decide_eq_true herror))

end Schema

end BlockCheck
