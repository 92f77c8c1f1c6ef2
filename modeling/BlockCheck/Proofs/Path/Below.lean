import BlockCheck.Proofs.Path.Inside

/-!
# Paths below a directory

A path lies below a directory if its normal form goes on with steps down where that of the directory ends.
The way to it is these steps, and with them behind the directory it is the same path again.
-/

namespace BlockCheck.Path

variable {directory path other root cwd : String} {c : List Char}
  {cs way done rest more : List (List Char)}

structure LiesBelow (directory path : String) (rest : List (List Char)) : Prop where
  mark_eq : mark path = mark directory
  steps_eq : steps (normalize path) = steps (normalize directory) ++ rest
  down : ['.', '.'] ∉ rest

namespace LiesBelow

theorem refl (directory : String) : LiesBelow directory directory [] where
  mark_eq := rfl
  steps_eq := (List.append_nil _).symm
  down := List.not_mem_nil

theorem isStep (h : LiesBelow directory path rest) (hc : c ∈ rest) : IsStep c :=
  isStep_of_mem_steps (h.steps_eq ▸ List.mem_append_right _ hc)

theorem normalize (h : LiesBelow directory path rest) :
    LiesBelow directory (Path.normalize path) rest where
  mark_eq := (mark_normalize path).trans h.mark_eq
  steps_eq := (normalize_idem path).symm ▸ h.steps_eq
  down := h.down

theorem append (h : LiesBelow directory path rest) (hother : isAbsolute other = false)
    (hdown : ['.', '.'] ∉ steps other) : LiesBelow directory (append path other) (rest ++ steps other) where
  mark_eq := (mark_append hother path).trans h.mark_eq
  steps_eq := by
    rw [steps_normalize, steps_append hother, reduce_append _ _ (fun _ => isStep_of_mem_steps) hdown,
      mark_append hother, ← steps_normalize, h.steps_eq, List.append_assoc]
  down hmem := (List.mem_append.1 hmem).elim h.down hdown

end LiesBelow

theorem normalize_eq_ofSteps (path : String) :
    normalize path = ofSteps (mark path) (steps (normalize path)) := by
  rw [steps_normalize, ← normalize_eq]

theorem tidy_normalize (path : String) : tidy (normalize path) = normalize path := by
  rw [tidy_eq, mark_normalize, ← normalize_eq_ofSteps]

theorem eq_of_steps_normalize {a b : String} (hmark : mark a = mark b)
    (hsteps : steps (normalize a) = steps (normalize b)) : normalize a = normalize b := by
  rw [normalize_eq_ofSteps a, normalize_eq_ofSteps b, hmark, hsteps]

theorem ofSteps_append_ending {m : List Char} {ending : String} (h : ∀ d ∈ cs ++ [c], IsStep d)
    (hnew : ∀ d ∈ cs ++ [c ++ ending.toList], IsStep d) :
    ofSteps m (cs ++ [c]) ++ ending = ofSteps m (cs ++ [c ++ ending.toList]) := by
  rw [← String.toList_inj, String.toList_append, toList_ofSteps (Or.inr (by simp)) h,
    toList_ofSteps (Or.inr (by simp)) hnew, joinComponents_concat, joinComponents_concat]
  simp

theorem LiesBelow.ending {ending : String} (h : LiesBelow directory path (more ++ [c]))
    (hending : IsEnding ending.toList) :
    LiesBelow directory (Path.normalize path ++ ending) (more ++ [c ++ ending.toList]) := by
  have hsteps : steps (Path.normalize path) = steps (Path.normalize directory) ++ more ++ [c] := by
    rw [h.steps_eq, List.append_assoc]
  have hold : ∀ d ∈ steps (Path.normalize directory) ++ more ++ [c], IsStep d :=
    hsteps ▸ fun _ => isStep_of_mem_steps
  have hnew : ∀ d ∈ steps (Path.normalize directory) ++ more ++ [c ++ ending.toList], IsStep d := by
    obtain ⟨hfront, hc⟩ := List.forall_mem_append.1 hold
    exact List.forall_mem_append.2 ⟨hfront, by simpa using hending.isStep (hc c (by simp)).noSlash⟩
  have hpath : Path.normalize path ++ ending =
      ofSteps (mark path) (steps (Path.normalize directory) ++ more ++ [c ++ ending.toList]) := by
    rw [normalize_eq_ofSteps, hsteps, ofSteps_append_ending hold hnew]
  refine ⟨?_, ?_, fun hmem => ?_⟩
  · rw [hpath, mark_ofSteps (isMark_mark path) hnew, h.mark_eq]
  · rw [normalize_append_ending path hending, hpath, steps_ofSteps (isMark_mark path) hnew, List.append_assoc]
  · rcases List.mem_append.1 hmem with hmore | hlast
    · exact h.down (List.mem_append_left _ hmore)
    · exact hending.ne_dots 2 (List.mem_singleton.1 hlast).symm

theorem LiesBelow.normalize_append_join (h : LiesBelow directory path rest) (hne : rest ≠ []) :
    Path.normalize (Path.append directory (Text.join "/" (rest.map String.ofList))) = Path.normalize path := by
  have hrest : ∀ c ∈ rest, IsStep c := fun _ => h.isStep
  have hrelative := isAbsolute_join hne hrest
  have hsteps : steps (Text.join "/" (rest.map String.ofList)) = rest := by
    rw [join_eq_ofSteps hne hrest, steps_ofSteps (Or.inl rfl) hrest]
  have hjoin := (LiesBelow.refl directory).append hrelative (hsteps.symm ▸ h.down)
  rw [hsteps, List.nil_append] at hjoin
  exact eq_of_steps_normalize (hjoin.mark_eq.trans h.mark_eq.symm) (hjoin.steps_eq.trans h.steps_eq.symm)

/-! ## Seen from a directory -/

theorem advance_up_cons (h : c ≠ ['.', '.']) (absolute : Bool) (done : List (List Char)) :
    advance absolute (c :: done) ['.', '.'] = done := by
  unfold advance
  rw [if_neg (by decide), if_neg (by decide)]
  exact if_neg h

theorem foldl_advance_step (hway : ∀ d ∈ way, IsStep d) (c : List Char) (done : List (List Char)) :
    (advance false way c).reverse.foldl (advance true) done =
      advance true (way.reverse.foldl (advance true) done) c := by
  have hpushed (way : List (List Char)) : (c :: way).reverse.foldl (advance true) done =
      advance true (way.reverse.foldl (advance true) done) c := by
    rw [List.reverse_cons, List.foldl_append, List.foldl_cons, List.foldl_nil]
  by_cases hskipped : c = [] ∨ c = ['.']
  · rw [advance_of_skipped _ _ hskipped, advance_of_skipped _ _ hskipped]
  by_cases hup : c = ['.', '.']
  · subst hup
    cases way with
    | nil => exact hpushed []
    | cons last before =>
      by_cases hlast : last = ['.', '.']
      · subst hlast
        exact hpushed _
      · -- The last step is taken back, whatever stands in front of it.
        have hstep := hway last List.mem_cons_self
        rw [advance_up_cons hlast, List.reverse_cons, List.foldl_append, List.foldl_cons, List.foldl_nil,
          advance_down true _ (not_or.2 ⟨hstep.ne_nil, hstep.ne_dot⟩) hlast, advance_up_cons hlast]
  · rw [advance_down _ _ hskipped hup]
    exact hpushed way

theorem foldl_advance_foldl (hway : ∀ d ∈ way, IsStep d) (hcs : ∀ d ∈ cs, IsStep d) (done : List (List Char)) :
    (cs.foldl (advance false) way).reverse.foldl (advance true) done =
      cs.foldl (advance true) (way.reverse.foldl (advance true) done) := by
  induction cs generalizing way with
  | nil => rfl
  | cons c rest ih =>
    obtain ⟨hc, hrest⟩ := List.forall_mem_cons.1 hcs
    have hlonger : ∀ d ∈ advance false way c, IsStep d := fun d hd =>
      (List.mem_cons.1 (advance_subset false way c hd)).elim (fun heq => heq ▸ hc) (hway d)
    rw [List.foldl_cons, List.foldl_cons, ih hlonger hrest, foldl_advance_step hway]

/-- Behind an absolute directory it makes no difference whether the rest is brought into normal form. -/
theorem normalize_append_normalize (hcwd : isAbsolute cwd = true) (path : String) :
    normalize (append cwd (normalize path)) = normalize (append cwd path) := by
  by_cases hpath : isAbsolute path = true
  · rw [append_of_isAbsolute hpath, append_of_isAbsolute (isAbsolute_normalize.trans hpath), normalize_idem]
  have hrelative : isAbsolute path = false := by simpa using hpath
  have hrelative' : isAbsolute (normalize path) = false := isAbsolute_normalize.trans hrelative
  have hmark : mark path = [] := not_not.1 fun hmark => hpath (isAbsolute_iff.2 hmark)
  have hcwd' : (mark cwd).isEmpty = false := by simpa using isAbsolute_iff.1 hcwd
  apply eq_of_steps_normalize
  · rw [mark_append hrelative, mark_append hrelative']
  · have hway : ((steps path).foldl (advance false) []).reverse.foldl (advance true)
        ((steps cwd).foldl (advance true) []) =
          (steps path).foldl (advance true) ((steps cwd).foldl (advance true) []) :=
      foldl_advance_foldl (List.forall_mem_nil _) (fun _ => isStep_of_mem_steps) _
    rw [steps_normalize, steps_normalize, mark_append hrelative, mark_append hrelative', hcwd',
      steps_append hrelative, steps_append hrelative', steps_normalize, hmark]
    unfold reduce
    rw [List.foldl_append, List.foldl_append]
    exact congrArg List.reverse hway

theorem absoluteComponents_eq (hcwd : isAbsolute cwd = true) (path : String) :
    absoluteComponents cwd path = steps (normalize (append cwd path)) := by
  have hmark : mark (append cwd path) ≠ [] := isAbsolute_iff.1 (isAbsolute_append hcwd)
  have hsteps : ∀ c ∈ steps (normalize (append cwd path)), IsStep c := fun _ => isStep_of_mem_steps
  rw [absoluteComponents, normalize_eq_ofSteps, components_ofSteps hmark (isMark_mark _) hsteps,
    steps_ofSteps (isMark_mark _) hsteps]

theorem isStep_of_mem_absoluteComponents (hcwd : isAbsolute cwd = true)
    (h : c ∈ absoluteComponents cwd path) : IsStep c := by
  rw [absoluteComponents_eq hcwd] at h
  exact isStep_of_mem_steps h

theorem dots_not_mem_absoluteComponents (hcwd : isAbsolute cwd = true) (path : String) :
    ['.', '.'] ∉ absoluteComponents cwd path := by
  have hmark : (mark (append cwd path)).isEmpty = false := by
    simpa using isAbsolute_iff.1 (isAbsolute_append hcwd)
  rw [absoluteComponents_eq hcwd, steps_normalize, hmark, reduce, List.mem_reverse]
  exact dots_not_mem_foldl_advance List.not_mem_nil _

theorem LiesBelow.absoluteComponents_eq (h : LiesBelow root path rest) (hcwd : isAbsolute cwd = true) :
    absoluteComponents cwd path = absoluteComponents cwd root ++ rest := by
  have hrest : ∀ c ∈ rest, IsStep c := fun _ => h.isStep
  rw [Path.absoluteComponents_eq hcwd, Path.absoluteComponents_eq hcwd, ← normalize_append_normalize hcwd path,
    ← normalize_append_normalize hcwd root]
  by_cases hroot : isAbsolute root = true
  · have hpath : isAbsolute path = true := (isAbsolute_eq_of_mark h.mark_eq).trans hroot
    rw [append_of_isAbsolute (isAbsolute_normalize.trans hroot),
      append_of_isAbsolute (isAbsolute_normalize.trans hpath), normalize_idem, normalize_idem, h.steps_eq]
  · have hrelative : isAbsolute root = false := by simpa using hroot
    have hpath : isAbsolute path = false := (isAbsolute_eq_of_mark h.mark_eq).trans hrelative
    rw [← isAbsolute_normalize] at hrelative hpath
    rw [steps_normalize, steps_normalize, mark_append hrelative, mark_append hpath, steps_append hrelative,
      steps_append hpath, h.steps_eq, ← List.append_assoc, reduce_append _ _ hrest h.down]

theorem dropCommon_append (cs rest : List (List Char)) : dropCommon cs (cs ++ rest) = ([], rest) := by
  induction cs with
  | nil => rfl
  | cons c more ih => rw [List.cons_append, dropCommon, if_pos rfl, ih]

theorem relative_eq_join (h : absoluteComponents cwd path = absoluteComponents cwd root ++ rest)
    (hne : rest ≠ []) : relative cwd root path = Text.join "/" (rest.map String.ofList) := by
  rw [relative, h, dropCommon_append]
  dsimp only
  rw [List.map_nil, List.nil_append, if_neg (by simpa using hne), ← toList_join, String.ofList_toList]

theorem absoluteComponents_append_join (hcwd : isAbsolute cwd = true)
    (h : absoluteComponents cwd path = absoluteComponents cwd root ++ rest) (hne : rest ≠ []) :
    absoluteComponents cwd (normalize (append root (Text.join "/" (rest.map String.ofList)))) =
      absoluteComponents cwd path := by
  have hrest : ∀ c ∈ rest, IsStep c := fun c hc =>
    isStep_of_mem_absoluteComponents hcwd (h ▸ List.mem_append_right _ hc)
  have hdown : ['.', '.'] ∉ rest := fun hmem =>
    dots_not_mem_absoluteComponents hcwd path (h ▸ List.mem_append_right _ hmem)
  have hsteps : steps (Text.join "/" (rest.map String.ofList)) = rest := by
    rw [join_eq_ofSteps hne hrest, steps_ofSteps (Or.inl rfl) hrest]
  have hbelow := (LiesBelow.refl root).append (isAbsolute_join hne hrest) (hsteps.symm ▸ hdown)
  rw [hsteps, List.nil_append] at hbelow
  rw [hbelow.normalize.absoluteComponents_eq hcwd, h]

end BlockCheck.Path
