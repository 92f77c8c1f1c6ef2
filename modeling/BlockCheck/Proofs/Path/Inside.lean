import BlockCheck.Proofs.Path.Spellings

/-!
# Files directly inside a directory

A name behind a directory in normal form: the directory is what the path is written in, and the name is
what is read off it.
-/

namespace BlockCheck.Path

variable {name base : String} {m before : List Char} {d : Char} {cs : List (List Char)}

/-! ## How a directory ends -/

theorem IsMark.eq_slash {c : Char} (h : IsMark m) (hc : c ∈ m) : c = '/' := by
  rcases h with rfl | rfl | rfl
  · exact absurd hc List.not_mem_nil
  · simpa using hc
  · simpa using hc

theorem toList_ofSteps_nil (hm : m ≠ []) : (ofSteps m []).toList = m := by
  rw [toList_ofSteps (Or.inl hm) (List.forall_mem_nil _), joinComponents, List.intercalate_nil, List.append_nil]

theorem exists_last_of_ofSteps (h : ∀ c ∈ cs, IsStep c) (hcs : m = [] ∨ cs ≠ []) :
    ∃ before d, d ≠ '/' ∧ (ofSteps m cs).toList = before ++ [d] := by
  rcases List.eq_nil_or_concat cs with rfl | ⟨front, c, rfl⟩
  · rw [hcs.resolve_right fun hne => hne rfl]
    exact ⟨[], '.', by decide, rfl⟩
  · rw [List.concat_eq_append] at h ⊢
    have hc := h c (by simp)
    obtain ⟨init, d, rfl⟩ := (List.eq_nil_or_concat c).resolve_left hc.ne_nil
    refine ⟨m ++ (front.flatMap (· ++ ['/']) ++ init), d, ?_, ?_⟩
    · rintro rfl
      exact hc.noSlash (by simp)
    · rw [toList_ofSteps (Or.inr (by simp)) h, joinComponents_concat]
      simp

theorem endsWith_slash (h : base.toList = before ++ [d]) : Text.endsWith base "/" = decide (d = '/') := by
  rw [Bool.eq_iff_iff, Text.endsWith, List.isSuffixOf_iff_suffix, decide_eq_true_iff, h]
  constructor
  · rintro ⟨more, hmore⟩
    obtain ⟨-, hd⟩ := List.append_inj' hmore rfl
    exact (List.singleton_inj.1 hd).symm
  · rintro rfl
    exact List.suffix_append _ _

/-! ## A name behind it -/

theorem append_name_of_slash (hbase : base.toList = before ++ ['/']) (hname : IsName name) :
    append base name = base ++ name := by
  rw [append, if_neg (by simp [hname.isAbsolute]), if_pos (by simp [endsWith_slash hbase])]

theorem append_name_of_ne (hd : d ≠ '/') (hbase : base.toList = before ++ [d]) (hname : IsName name) :
    append base name = base ++ "/" ++ name := by
  have hne : base ≠ "" := by
    rintro rfl
    simp at hbase
  rw [append, if_neg (by simp [hname.isAbsolute]), if_neg (by simp [endsWith_slash hbase, hd, hne])]

theorem exists_front_append (hmark : IsMark m) (h : ∀ c ∈ cs, IsStep c) (hname : IsName name) :
    ∃ front, IsFront front ∧ (append (ofSteps m cs) name).toList = front ++ name.toList ∧
      ((∀ c ∈ front, c = '/') ∧ (ofSteps m cs).toList = front ∨
        ∃ before d, d ≠ '/' ∧ front = before ++ [d] ++ ['/'] ∧ (ofSteps m cs).toList = before ++ [d]) := by
  by_cases hcs : m = [] ∨ cs ≠ []
  · obtain ⟨before, d, hd, hlist⟩ := exists_last_of_ofSteps h hcs
    refine ⟨before ++ [d] ++ ['/'], Or.inr ⟨_, rfl⟩, ?_, Or.inr ⟨before, d, hd, rfl, hlist⟩⟩
    rw [append_name_of_ne hd hlist hname, String.toList_append, String.toList_append, hlist]
    rfl
  · -- Only a root ends in a slash, and no other one is put in between.
    obtain ⟨hm, hnil⟩ := not_or.1 hcs
    rw [not_not.1 hnil]
    obtain ⟨init, c, rfl⟩ := (List.eq_nil_or_concat m).resolve_left hm
    rw [List.concat_eq_append] at hmark hm ⊢
    obtain rfl : c = '/' := hmark.eq_slash (by simp)
    have hlist := toList_ofSteps_nil hm
    refine ⟨init ++ ['/'], Or.inr ⟨init, rfl⟩, ?_, Or.inl ⟨fun c => hmark.eq_slash, hlist⟩⟩
    rw [append_name_of_slash hlist hname, String.toList_append, hlist]

theorem parent_append (hname : IsName name) (path : String) :
    parent (append (normalize path) name) = normalize path := by
  rw [normalize_eq]
  obtain ⟨front, hfront, hlist, hcases⟩ :=
    exists_front_append (isMark_mark path) (fun _ => isStep_of_mem_reduce) hname
  rw [parent, reverse_dropWhile_name hname hfront hlist]
  rcases hcases with ⟨hall, hdirectory⟩ | ⟨before, d, hd, rfl, hdirectory⟩
  · rw [if_pos (by simpa using hall), ← hdirectory, String.ofList_toList]
  · rw [if_neg (by simp [hd]), ← String.ofList_toList (s := ofSteps _ _), hdirectory]
    simp [hd]

theorem fileName_append_normalize (hname : IsName name) (path : String) :
    fileName (append (normalize path) name) = name := by
  rw [normalize_eq]
  obtain ⟨front, hfront, hlist, -⟩ :=
    exists_front_append (isMark_mark path) (fun _ => isStep_of_mem_reduce) hname
  rw [← String.ofList_toList (s := append _ _), hlist]
  exact fileName_append hname.noSlash hfront

/-! ## Absolute directories -/

theorem joinComponents_append_singleton (hcs : cs ≠ []) (c : List Char) :
    joinComponents (cs ++ [c]) = joinComponents cs ++ '/' :: c := by
  obtain ⟨front, last, rfl⟩ := (List.eq_nil_or_concat cs).resolve_left hcs
  rw [List.concat_eq_append, joinComponents_concat, joinComponents_concat]
  simp

theorem append_ofSteps_name (hm : m ≠ []) (hmark : IsMark m) (h : ∀ c ∈ cs, IsStep c) (hname : IsName name) :
    append (ofSteps m cs) name = ofSteps m (cs ++ [name.toList]) := by
  have hall : ∀ c ∈ cs ++ [name.toList], IsStep c := by
    intro c hc
    rcases List.mem_append.1 hc with hc | hc
    · exact h c hc
    · exact List.mem_singleton.1 hc ▸ hname.isStep
  rw [← String.toList_inj, toList_ofSteps (Or.inl hm) hall]
  by_cases hcs : cs = []
  · subst hcs
    obtain ⟨init, c, rfl⟩ := (List.eq_nil_or_concat m).resolve_left hm
    rw [List.concat_eq_append] at hmark hm ⊢
    obtain rfl : c = '/' := hmark.eq_slash (by simp)
    rw [append_name_of_slash (toList_ofSteps_nil hm) hname, String.toList_append, toList_ofSteps_nil hm]
    simp [joinComponents]
  · obtain ⟨before, d, hd, hlist⟩ := exists_last_of_ofSteps (m := m) h (Or.inr hcs)
    rw [append_name_of_ne hd hlist hname, String.toList_append, String.toList_append,
      toList_ofSteps (Or.inl hm) h, joinComponents_append_singleton hcs]
    simp

theorem normalize_append_name (hbase : isAbsolute base = true) (hname : IsName name) :
    normalize (append base name) = append (normalize base) name := by
  have hdots : ['.', '.'] ∉ [name.toList] := by simpa using hname.ne_dots.symm
  rw [normalize_eq, normalize_eq, mark_append hname.isAbsolute, steps_append_name hname,
    reduce_append _ _ (by simpa using hname.isStep) hdots,
    append_ofSteps_name (isAbsolute_iff.1 hbase) (isMark_mark base) (fun _ => isStep_of_mem_reduce) hname]

theorem exists_last_of_tidy (htidy : tidy base = base) (hslash : base ≠ "/") (hslashes : base ≠ "//") :
    ∃ before d, d ≠ '/' ∧ base.toList = before ++ [d] := by
  rw [tidy_eq] at htidy
  rw [← htidy]
  refine exists_last_of_ofSteps (fun _ => isStep_of_mem_steps) ?_
  by_contra hcs
  obtain ⟨hm, hnil⟩ := not_or.1 hcs
  rw [not_not.1 hnil] at htidy
  rcases isMark_mark base with hmark | hmark | hmark
  · exact hm hmark
  · exact hslash (by rw [← htidy, hmark]; rfl)
  · exact hslashes (by rw [← htidy, hmark]; rfl)

end BlockCheck.Path
