import BlockCheck.Proofs.Schema.Origins

/-!
# The codes of findings

A value is only ever found to have the wrong shape. What concerns a reference as a whole, such as a
block that cannot be read, is never a finding of a value.
-/

namespace BlockCheck.Schema

def valueCodes : List IssueCode :=
  [.typeMismatch, .missingProperty, .unionMismatch, .specialTypeMismatch, .unknownProperty]

def HasValueCode (f : Finding) : Prop := f.problem.code ∈ valueCodes

variable {mode : Mode} {s : Schema} {f : Finding}

theorem Finds.hasValueCode {value : Json} (h : Finds mode s value f) : HasValueCode f := by
  induction h with
  | whole hproblem => cases hproblem <;> simp [HasValueCode, Finding.here, Problem.code, valueCodes]
  | unidentified | lacking | unknown => simp [HasValueCode, Problem.code, valueCodes]
  | item _ _ ih | inside _ _ _ ih => exact ih

theorem hasValueCode_check {value : Option Json} (hf : f ∈ s.check mode value) : HasValueCode f := by
  obtain ⟨-, -, rfl⟩ | ⟨held, -, hf⟩ := mem_check_iff.1 hf
  · simp [HasValueCode, Finding.here, Problem.code, valueCodes]
  · exact (finds_of_mem_findings mode s held f hf).hasValueCode

/-- Whatever is wrong with a value, its issue has the code of a wrong shape. -/
theorem code_mem_of_mem_validate {base : String} {value : Option Json} {issue : Issue}
    (h : issue ∈ s.validate mode base value) : issue.problem.code ∈ valueCodes := by
  obtain ⟨f, hf, rfl⟩ := List.mem_map.1 h
  exact hasValueCode_check hf

end BlockCheck.Schema
