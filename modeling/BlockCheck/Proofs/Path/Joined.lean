import BlockCheck.Proofs.Path.Below
import BlockCheck.Proofs.Path.Normal

/-!
# A text behind a path

A text can be written right behind a path, or it can be a path of its own that is seen from there. Both come to the
same if the path ends in a slash and the text does not begin with one. Otherwise the last step of the path and the first
one of the text become one step, or the text leads away from the path.
-/

namespace BlockCheck.Path

variable {base target rest : String}

theorem ne_empty_of_mem {path : String} {c : Char} (h : c ∈ path.toList) : path ≠ "" := by
  rintro rfl
  cases h

theorem isAbsolute_append_text (hne : target ≠ "") (rest : String) :
    isAbsolute (target ++ rest) = isAbsolute target := by
  unfold isAbsolute Text.startsWith
  rw [String.toList_append]
  cases hlist : target.toList with
  | nil => exact absurd (String.toList_eq_nil_iff.1 hlist) hne
  | cons c more => simp [List.isPrefixOf]

theorem exists_lead (base : String) : ∃ lead, ∀ path, isAbsolute path = false → append base path = lead ++ path := by
  by_cases hslash : (base.isEmpty || Text.endsWith base "/") = true
  · refine ⟨base, fun path hpath => ?_⟩
    rw [append, if_neg (by simp [hpath]), if_pos hslash]
  · refine ⟨base ++ "/", fun path hpath => ?_⟩
    rw [append, if_neg (by simp [hpath]), if_neg hslash]

theorem append_append_of_slash (hslash : Text.endsWith target "/" = true) (htarget : isAbsolute target = false)
    (hrest : isAbsolute rest = false) : append (append base target) rest = append base (target ++ rest) := by
  have hne : target ≠ "" := by
    rintro rfl
    cases hslash
  have hlonger : isAbsolute (target ++ rest) = false := (isAbsolute_append_text hne rest).trans htarget
  obtain ⟨lead, hlead⟩ := exists_lead base
  have hsuffix : Text.endsWith (lead ++ target) "/" = true := by
    unfold Text.endsWith at hslash ⊢
    rw [List.isSuffixOf_iff_suffix] at hslash ⊢
    rw [String.toList_append]
    exact hslash.trans (List.suffix_append _ _)
  rw [hlead target htarget, hlead _ hlonger, append, if_neg (by simp [hrest]), if_pos (by simp [hsuffix]),
    String.append_assoc]

theorem normalize_append_empty (path : String) : normalize (append path "") = normalize path := by
  apply normalize_congr
  · exact mark_append rfl path
  · exact (steps_append rfl path).trans (List.append_nil _)

/-! ## The step in between -/

theorem steps_of_noSlash {c : List Char} (hc : IsStep c) : steps (String.ofList c) = [c] := by
  rw [steps, components, String.toList_ofList, Text.splitOn_of_not_mem hc.noSlash]
  exact filter_of_isStep (by simpa using hc)

/-- The step that a text begins with, and those that follow. What stands in front of the text becomes a part of the
first one. -/
theorem exists_steps_cons (hne : rest ≠ "") (hrest : isAbsolute rest = false) (hdot : ['.'] ∉ components rest) :
    ∃ first more, IsStep first ∧ steps rest = first :: more ∧
      ∀ last, IsStep (last ++ first) → steps (String.ofList (last ++ rest.toList)) = (last ++ first) :: more := by
  by_cases hslash : '/' ∈ rest.toList
  · obtain ⟨first, behind, hlist, hnoSlash⟩ := List.eq_append_cons_of_mem hslash
    have hfirst : IsStep first := by
      refine ⟨?_, ?_, hnoSlash⟩
      · rintro rfl
        have habsolute : isAbsolute rest = true := isAbsolute_iff_cons.2 ⟨behind, hlist⟩
        simp [hrest] at habsolute
      · rintro rfl
        rw [components, hlist, Text.splitOn_append_cons, Text.splitOn_of_not_mem hnoSlash] at hdot
        exact hdot List.mem_cons_self
    have hsteps (last : List Char) (hlast : IsStep (last ++ first)) :
        steps (String.ofList (last ++ rest.toList)) = (last ++ first) :: steps (String.ofList behind) := by
      rw [hlist, ← List.append_assoc, steps_append_slash, steps_of_noSlash hlast, List.singleton_append]
    refine ⟨first, _, hfirst, ?_, hsteps⟩
    simpa using hsteps [] hfirst
  · have hfirst : IsStep rest.toList := by
      refine ⟨by simpa using hne, fun heq => hdot ?_, hslash⟩
      rw [components, heq]
      exact List.mem_singleton_self _
    exact ⟨rest.toList, [], hfirst, by simpa using steps_of_noSlash hfirst, fun _ => steps_of_noSlash⟩

theorem isStep_joined {last first : List Char} (hlast : last ≠ []) (hnoSlash : '/' ∉ last) (hfirst : IsStep first) :
    IsStep (last ++ first) ∧ last ++ first ≠ ['.', '.'] := by
  have hlong : 2 ≤ (last ++ first).length := by
    have := List.length_pos_of_ne_nil hlast
    have := List.length_pos_of_ne_nil hfirst.ne_nil
    rw [List.length_append]
    omega
  refine ⟨⟨?_, ?_, by simpa using ⟨hnoSlash, hfirst.noSlash⟩⟩, ?_⟩
  · intro heq
    simp [heq] at hlong
  · intro heq
    simp [heq] at hlong
  · intro heq
    cases last with
    | nil => exact hlast rfl
    | cons c more =>
      cases more with
      | nil => exact hfirst.ne_dot (List.cons.inj heq).2
      | cons d more =>
        have hnil := (List.cons.inj (List.cons.inj heq).2).2
        exact hfirst.ne_nil (List.append_eq_nil_iff.1 hnil).2

/-- The last step of a path that does not end in a slash and the first one of a text behind it become one. -/
theorem exists_joined_step (htarget : '/' ∈ target.toList) (hslash : Text.endsWith target "/" = false)
    (hne : rest ≠ "") (hrest : isAbsolute rest = false) (hdot : ['.'] ∉ components rest) :
    ∃ front last first more, last ≠ [] ∧ IsStep (last ++ first) ∧ last ++ first ≠ ['.', '.'] ∧
      steps rest = first :: more ∧ steps (target ++ rest) = front ++ (last ++ first) :: more := by
  obtain ⟨first, more, hfirst, hsteps, hbehind⟩ := exists_steps_cons hne hrest hdot
  obtain ⟨before, last, hlist, hnoSlash⟩ := exists_last_slash htarget
  have hlast : last ≠ [] := by
    rintro rfl
    simp [endsWith_slash hlist] at hslash
  obtain ⟨hstep, hdown⟩ := isStep_joined hlast hnoSlash hfirst
  refine ⟨steps (String.ofList before), last, first, more, hlast, hstep, hdown, hsteps, ?_⟩
  rw [← hbehind last hstep, ← steps_append_slash, ← String.ofList_toList (s := target ++ rest),
    String.toList_append, hlist]
  simp

/-! ## When both come to the same -/

theorem normalize_append_append_ne (htarget : isAbsolute target = false) (hmem : '/' ∈ target.toList)
    (hslash : Text.endsWith target "/" = false) (hne : rest ≠ "") (hrest : isAbsolute rest = false)
    (hdot : ['.'] ∉ components rest) (hdots : ['.', '.'] ∉ components rest) :
    normalize (append (append base target) rest) ≠ normalize (append base (target ++ rest)) := by
  obtain ⟨front, last, first, more, hlast, hstep, hdown, hsteps, hjoined⟩ :=
    exists_joined_step hmem hslash hne hrest hdot
  have htarget' : isAbsolute (target ++ rest) = false :=
    (isAbsolute_append_text (ne_empty_of_mem hmem) rest).trans htarget
  have hdownRest : ['.', '.'] ∉ first :: more := fun h => hdots (List.mem_of_mem_filter (hsteps ▸ h))
  have hall : ∀ c ∈ first :: more, IsStep c := by
    rw [← hsteps]
    exact fun _ => isStep_of_mem_steps
  have hdownJoined : ['.', '.'] ∉ (last ++ first) :: more :=
    List.not_mem_cons_of_ne_of_not_mem hdown.symm (List.not_mem_of_not_mem_cons hdownRest)
  have hallJoined : ∀ c ∈ (last ++ first) :: more, IsStep c :=
    List.forall_mem_cons.2 ⟨hstep, (List.forall_mem_cons.1 hall).2⟩
  intro heq
  have hboth := congrArg steps heq
  rw [steps_normalize, steps_normalize, mark_append hrest, mark_append htarget, mark_append htarget',
    steps_append hrest, steps_append htarget', hsteps, hjoined, ← List.append_assoc (steps base),
    reduce_append _ _ hall hdownRest, reduce_append _ _ hallJoined hdownJoined] at hboth
  have hfirst : first = last ++ first := by
    rw [← List.singleton_append, ← List.append_assoc, ← List.singleton_append (l := more),
      ← List.append_assoc] at hboth
    exact List.singleton_inj.1 (List.append_inj' (List.append_cancel_right hboth) rfl).2
  exact hlast (List.self_eq_append_left.1 hfirst)

theorem steps_append_text (htarget : isAbsolute target = false) (hne : target ≠ "") (hrest : isAbsolute rest = true) :
    steps (append base (target ++ rest)) = steps (append base target) ++ steps rest := by
  obtain ⟨behind, hlist⟩ := isAbsolute_iff_cons.1 hrest
  have hbehind : steps rest = steps (String.ofList behind) := by
    rw [← String.ofList_toList (s := rest), hlist]
    exact steps_append_slash [] behind
  have htext : steps (target ++ rest) = steps target ++ steps rest := by
    rw [← String.ofList_toList (s := target ++ rest), String.toList_append, hlist, steps_append_slash, hbehind,
      String.ofList_toList]
  rw [steps_append htarget, steps_append ((isAbsolute_append_text hne rest).trans htarget), htext,
    List.append_assoc]

theorem normalize_append_append (htarget : isAbsolute target = false)
    (h : rest = "" ∨ Text.endsWith target "/" = true ∧ isAbsolute rest = false) :
    normalize (append (append base target) rest) = normalize (append base (target ++ rest)) := by
  rcases h with rfl | ⟨hslash, hrest⟩
  · rw [normalize_append_empty, String.append_empty]
  · rw [append_append_of_slash hslash htarget hrest]

theorem eq_empty_or_of_normalize_append_append (htarget : isAbsolute target = false) (hmem : '/' ∈ target.toList)
    (hdot : ['.'] ∉ components rest) (hdots : ['.', '.'] ∉ components rest)
    (h : normalize (append (append base target) rest) = normalize (append base (target ++ rest))) :
    rest = "" ∨ Text.endsWith target "/" = true ∧ isAbsolute rest = false ∨
      isAbsolute rest = true ∧ steps (normalize (append base target)) = [] := by
  by_cases hempty : rest = ""
  · exact Or.inl hempty
  by_cases hrest : isAbsolute rest = true
  · -- The steps in front of the rest are on one side only.
    refine Or.inr (Or.inr ⟨hrest, ?_⟩)
    have hne : target ≠ "" := ne_empty_of_mem hmem
    have hlonger : isAbsolute (target ++ rest) = false := (isAbsolute_append_text hne rest).trans htarget
    have hdown : ['.', '.'] ∉ steps rest := fun hin => hdots (List.mem_of_mem_filter hin)
    have hall : ∀ c ∈ steps rest, IsStep c := fun _ => isStep_of_mem_steps
    have hsteps := congrArg steps h
    rw [append_of_isAbsolute hrest, steps_normalize, reduce_of_isStep _ hall hdown, steps_normalize,
      steps_append_text htarget hne hrest, reduce_append _ _ hall hdown, mark_append hlonger] at hsteps
    rw [steps_normalize, mark_append htarget]
    exact List.self_eq_append_left.1 hsteps
  · have hrelative : isAbsolute rest = false := by simpa using hrest
    refine Or.inr (Or.inl ⟨?_, hrelative⟩)
    by_contra hslash
    exact normalize_append_append_ne htarget hmem (by simpa using hslash) hempty hrelative hdot hdots h

theorem append_normalize_of_ne_root (hslash : normalize base ≠ "/") (hslashes : normalize base ≠ "//")
    (htarget : isAbsolute target = false) : append (normalize base) target = normalize base ++ "/" ++ target := by
  obtain ⟨before, d, hd, hlist⟩ := exists_last_of_tidy (tidy_normalize base) hslash hslashes
  have hne : normalize base ≠ "" := by
    intro hempty
    simp [hempty] at hlist
  rw [append, if_neg (by simp [htarget]), if_neg (by simp [endsWith_slash hlist, hd, hne])]

end BlockCheck.Path
