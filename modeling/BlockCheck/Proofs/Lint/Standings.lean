import BlockCheck.Proofs.Lint.UnusedComponents

/-!
# How components come out of a run

A component fails, or is only warned about, or is unused, or valid, and it is exactly one of these. What
keeps them apart is that nothing is said of a component as a whole but that it is unused, and that an
unused component has no occurrences.
-/

namespace BlockCheck

inductive Standing where
  | failing
  | warned
  | unused
  | valid
deriving DecidableEq, Repr

namespace Standing

/-- An error counts wherever it stands. A warning counts only where a component is used and has no error. -/
def holds : Standing → ComponentResult → Bool
  | failing, c => c.errorCount != 0
  | warned, c => c.errorCount == 0 && c.warningCount != 0 && !c.unused
  | unused, c => c.unused
  | valid, c => c.errorCount == 0 && c.warningCount == 0 && !c.unused

theorem length_eq_counts (standings : List Standing) :
    standings.length = standings.count failing + standings.count warned + standings.count unused +
      standings.count valid := by
  induction standings with
  | nil => rfl
  | cons s rest ih => cases s <;> simp [ih] <;> omega

end Standing

namespace ComponentResult

structure Consistent (c : ComponentResult) : Prop where
  issues : c.issues = if c.unused = true then [⟨"", .unused⟩] else []
  occurrences : c.unused = true → c.occurrences = []

def standing (c : ComponentResult) : Standing :=
  if c.unused then .unused
  else if c.errorCount ≠ 0 then .failing
  else if c.warningCount ≠ 0 then .warned
  else .valid

variable {c : ComponentResult}

namespace Consistent

variable (h : c.Consistent)

include h

/-- No error is about a component as a whole. -/
theorem errors_eq : c.errors = c.occurrences.flatMap (·.errors) := by
  have hown : c.issues.filter Issue.isError = [] := by
    rw [h.issues]
    split <;> decide
  rw [errors, hown, List.nil_append]

theorem warnings_eq (hunused : c.unused = false) : c.warnings = c.occurrences.flatMap (·.warnings) := by
  rw [warnings, h.issues, if_neg (by simp [hunused]), List.filter_nil, List.nil_append]

theorem errorCount_of_unused (hunused : c.unused = true) : c.errorCount = 0 := by
  rw [errorCount, h.errors_eq, h.occurrences hunused]
  rfl

theorem holds_iff (s : Standing) : s.holds c = true ↔ c.standing = s := by
  cases hunused : c.unused with
  | true =>
    have herrors := h.errorCount_of_unused hunused
    cases s <;> simp [Standing.holds, standing, hunused, herrors]
  | false =>
    by_cases herrors : c.errorCount = 0 <;> by_cases hwarnings : c.warningCount = 0 <;>
      cases s <;> simp [Standing.holds, standing, hunused, herrors, hwarnings]

end Consistent

end ComponentResult

theorem countP_holds {cs : List ComponentResult} (h : ∀ c ∈ cs, c.Consistent) (s : Standing) :
    cs.countP s.holds = (cs.map (·.standing)).count s := by
  rw [List.count, List.countP_map]
  refine List.countP_congr fun c hc => ?_
  rw [(h c hc).holds_iff]
  simp

theorem length_eq_countP {cs : List ComponentResult} (h : ∀ c ∈ cs, c.Consistent) :
    cs.length = cs.countP (Standing.holds .failing) + cs.countP (Standing.holds .warned) +
      cs.countP (Standing.holds .unused) + cs.countP (Standing.holds .valid) := by
  simp only [countP_holds h]
  rw [← List.length_map (·.standing), Standing.length_eq_counts]

namespace Lint

variable {disk : Disk} {cwd : String} {config : Config} {target : Option String} {lint : ComponentLint}

theorem exists_componentsAt (h : components disk cwd config target = some lint) :
    ∃ paths all, lint = componentsAt disk cwd config paths all := by
  unfold components at h
  cases target with
  | none => exact ⟨_, _, (Option.some.inj h).symm⟩
  | some target =>
    dsimp only at h
    split at h
    · exact ⟨_, _, (Option.some.inj h).symm⟩
    · cases h

theorem occurrences_of_mem_unusedIdentifiers {settings : Settings} {cs : List ComponentResult}
    {c : ComponentResult} (hc : c ∈ cs) (h : c.identifier ∈ unusedIdentifiers settings cs) :
    c.occurrences = [] := by
  by_contra hne
  refine (Usage.mem_unused_iff.1 h).2.1 (List.mem_map_of_mem (List.mem_filter.2 ⟨hc, ?_⟩))
  simp [hne]

theorem consistent_of_mem (hlint : components disk cwd config target = some lint) :
    ∀ c ∈ lint.components, c.Consistent := by
  obtain ⟨paths, all, rfl⟩ := exists_componentsAt hlint
  intro c hc
  obtain ⟨own, hown, rfl⟩ := List.mem_map.1 hc
  have hnew : own.issues = [] ∧ own.unused = false := by
    obtain ⟨path, -, rfl⟩ := List.mem_map.1 hown
    exact ⟨rfl, rfl⟩
  refine ⟨issues_markUnused hnew.1 hnew.2, fun hunused => ?_⟩
  rw [occurrences_markUnused]
  rw [unused_markUnused_iff hnew.2] at hunused
  cases all with
  | true => exact occurrences_of_mem_unusedIdentifiers hown hunused
  | false => cases hunused

end Lint

end BlockCheck
