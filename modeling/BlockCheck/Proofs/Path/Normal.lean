import BlockCheck.Proofs.Path.Spellings

/-!
# Absolute paths in normal form

Such a path is its mark and the steps to the place that it leads to, so there are no more than two for one
place.
-/

namespace BlockCheck

namespace Path

variable {path : String}

structure IsNormal (path : String) : Prop where
  absolute : isAbsolute path = true
  normal : normalize path = path

theorem isNormal_normalize (h : isAbsolute path = true) : IsNormal (normalize path) where
  absolute := isAbsolute_normalize.trans h
  normal := normalize_idem path

theorem IsNormal.steps_eq (h : IsNormal path) : steps path = (Disk.target path).reverse := by
  have hmark : (mark path).isEmpty = false := by simpa using isAbsolute_iff.1 h.absolute
  have hsteps := congrArg steps h.normal
  rw [steps_normalize, hmark] at hsteps
  exact hsteps.symm

theorem IsNormal.eq_ofSteps (h : IsNormal path) : path = ofSteps (mark path) (steps path) := by
  have htidy := congrArg tidy h.normal
  rw [tidy_eq, tidy_eq, mark_normalize, steps_normalize, ← normalize_eq, h.normal] at htidy
  exact htidy

/-! ## The directory that a path is written in -/

theorem isAbsolute_iff_cons : isAbsolute path = true ↔ ∃ rest, path.toList = '/' :: rest := by
  unfold isAbsolute Text.startsWith
  rw [List.isPrefixOf_iff_prefix]
  exact exists_congr fun rest => eq_comm

theorem isAbsolute_parent (h : isAbsolute path = true) : isAbsolute (parent path) = true := by
  obtain ⟨rest, hrest⟩ := isAbsolute_iff_cons.1 h
  have hhead : path.toList.reverse.dropWhile (· ≠ '/') = rest.reverse.dropWhile (· ≠ '/') ++ ['/'] := by
    rw [hrest, List.reverse_cons, List.dropWhile_append]
    split
    · rename_i hempty
      rw [List.isEmpty_iff.1 hempty]
      rfl
    · rfl
  rw [parent, hhead]
  generalize rest.reverse.dropWhile (· ≠ '/') = front
  split
  · simp [isAbsolute_iff_cons]
  · rename_i hall
    have hfront : front.dropWhile (· = '/') ≠ [] := by
      intro hnil
      rw [List.dropWhile_eq_nil_iff] at hnil
      exact hall (by simpa using hnil)
    rw [List.reverse_reverse, List.dropWhile_append, if_neg (by simpa using hfront)]
    simp [isAbsolute_iff_cons]

end Path

end BlockCheck
