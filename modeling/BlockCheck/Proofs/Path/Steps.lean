import BlockCheck.Path
import Mathlib.Data.List.Basic

/-!
# The steps of a path

A path is known by the slashes at its front and by its steps, the components that are neither empty
nor a dot. To tidy a path, to go on from one path with another and to bring a path into normal form
are operations on these two. The path from a directory on, appended to the directory, is the path
again.
-/

namespace BlockCheck.Path

variable {root path : String} {m c : List Char} {cs done : List (List Char)}

def mark (path : String) : List Char := rootMark path.toList

def steps (path : String) : List (List Char) :=
  (components path).filter (fun c => c ≠ [] ∧ c ≠ ['.'])

def ofSteps (mark : List Char) (steps : List (List Char)) : String :=
  let body := mark ++ joinComponents steps
  if body.isEmpty then "." else String.ofList body

def IsMark (m : List Char) : Prop := m = [] ∨ m = ['/'] ∨ m = ['/', '/']

structure IsStep (c : List Char) : Prop where
  ne_nil : c ≠ []
  ne_dot : c ≠ ['.']
  noSlash : '/' ∉ c

theorem tidy_eq (path : String) : tidy path = ofSteps (mark path) (steps path) := rfl

theorem parts_eq (path : String) :
    parts path = (if (mark path).isEmpty then [] else [String.ofList (mark path)]) ++
      (steps path).map String.ofList := rfl

/-! ## Splitting and joining -/

theorem not_mem_of_mem_splitOn {s : List Char} (h : c ∈ Text.splitOn '/' s) : '/' ∉ c := by
  induction s generalizing c with
  | nil =>
    rw [List.mem_singleton.1 h]
    exact List.not_mem_nil
  | cons d rest ih =>
    rw [Text.splitOn] at h
    split at h
    · rcases List.mem_cons.1 h with rfl | h
      · exact List.not_mem_nil
      · exact ih h
    · rename_i hd
      split at h
      · rw [List.mem_singleton.1 h]
        simpa using Ne.symm hd
      · rename_i part parts hsplit
        rw [hsplit] at ih
        rcases List.mem_cons.1 h with rfl | h
        · have hpart : '/' ∉ part := ih List.mem_cons_self
          simp [Ne.symm hd, hpart]
        · exact ih (List.mem_cons_of_mem _ h)

theorem splitOn_joinComponents (hne : cs ≠ []) (h : ∀ c ∈ cs, '/' ∉ c) :
    Text.splitOn '/' (joinComponents cs) = cs := by
  induction cs with
  | nil => exact absurd rfl hne
  | cons c rest ih =>
    obtain ⟨hc, hrest⟩ := List.forall_mem_cons.1 h
    cases rest with
    | nil => simpa [joinComponents] using Text.splitOn_of_not_mem hc
    | cons d more =>
      have hjoin : joinComponents (c :: d :: more) = c ++ '/' :: joinComponents (d :: more) := by
        simp [joinComponents, List.intercalate]
      rw [hjoin, Text.splitOn_append_cons, Text.splitOn_of_not_mem hc,
        ih (List.cons_ne_nil _ _) hrest]
      rfl

theorem isStep_of_mem_steps (h : c ∈ steps path) : IsStep c := by
  obtain ⟨hmem, hkept⟩ := List.mem_filter.1 h
  obtain ⟨hnil, hdot⟩ := of_decide_eq_true hkept
  exact ⟨hnil, hdot, not_mem_of_mem_splitOn hmem⟩

theorem isMark_mark (path : String) : IsMark (mark path) := by
  unfold mark rootMark IsMark
  split <;> simp

theorem filter_of_isStep (h : ∀ c ∈ cs, IsStep c) :
    cs.filter (fun c => c ≠ [] ∧ c ≠ ['.']) = cs := by
  rw [List.filter_eq_self]
  intro c hc
  exact decide_eq_true ⟨(h c hc).ne_nil, (h c hc).ne_dot⟩

theorem joinComponents_eq_nil_iff (h : ∀ c ∈ cs, IsStep c) : joinComponents cs = [] ↔ cs = [] := by
  cases cs with
  | nil => exact iff_of_true rfl rfl
  | cons c rest =>
    refine iff_of_false (fun hjoin => ?_) (List.cons_ne_nil _ _)
    have hc : c ≠ [] := (h c List.mem_cons_self).ne_nil
    cases rest with
    | nil => exact hc (by simpa [joinComponents] using hjoin)
    | cons d more => simp [joinComponents, List.intercalate] at hjoin

theorem head?_joinComponents (h : ∀ c ∈ cs, IsStep c) : (joinComponents cs).head? ≠ some '/' := by
  cases cs with
  | nil => simp [joinComponents]
  | cons c rest =>
    have hc := h c List.mem_cons_self
    cases c with
    | nil => exact absurd rfl hc.ne_nil
    | cons d more =>
      have hd : d ≠ '/' := fun heq => hc.noSlash (heq ▸ List.mem_cons_self)
      cases rest with
      | nil => simpa [joinComponents] using hd
      | cons _ _ => simpa [joinComponents, List.intercalate] using hd

theorem toList_ofSteps (hm : m ≠ [] ∨ cs ≠ []) (h : ∀ c ∈ cs, IsStep c) :
    (ofSteps m cs).toList = m ++ joinComponents cs := by
  have hbody : (m ++ joinComponents cs).isEmpty = false := by
    rw [List.isEmpty_eq_false_iff]
    intro hnil
    obtain ⟨hmark, hjoin⟩ := List.append_eq_nil_iff.1 hnil
    exact hm.elim (fun hm => hm hmark) (fun hcs => hcs ((joinComponents_eq_nil_iff h).1 hjoin))
  simp [ofSteps, hbody]

theorem mark_ofSteps (hm : IsMark m) (h : ∀ c ∈ cs, IsStep c) : mark (ofSteps m cs) = m := by
  by_cases hboth : m ≠ [] ∨ cs ≠ []
  · rw [mark, toList_ofSteps hboth h]
    have hhead := head?_joinComponents h
    generalize joinComponents cs = body at hhead
    rcases hm with rfl | rfl | rfl
    all_goals
      cases body with
      | nil => rfl
      | cons d rest =>
        have hd : d ≠ '/' := by simpa using hhead
        simp [rootMark, hd]
  · obtain ⟨hm, hcs⟩ := not_or.1 hboth
    rw [not_not.1 hm, not_not.1 hcs]
    rfl

theorem steps_ofSteps (hm : IsMark m) (h : ∀ c ∈ cs, IsStep c) : steps (ofSteps m cs) = cs := by
  by_cases hboth : m ≠ [] ∨ cs ≠ []
  · have hbody : (Text.splitOn '/' (joinComponents cs)).filter (fun c => c ≠ [] ∧ c ≠ ['.']) = cs := by
      by_cases hcs : cs = []
      · rw [hcs]
        rfl
      · rw [splitOn_joinComponents hcs fun c hc => (h c hc).noSlash, filter_of_isStep h]
    rw [steps, components, toList_ofSteps hboth h]
    rcases hm with rfl | rfl | rfl
    · exact hbody
    · simpa [Text.splitOn] using hbody
    · simpa [Text.splitOn] using hbody
  · obtain ⟨hm, hcs⟩ := not_or.1 hboth
    rw [not_not.1 hm, not_not.1 hcs]
    rfl

@[simp] theorem mark_tidy (path : String) : mark (tidy path) = mark path :=
  mark_ofSteps (isMark_mark path) fun _ => isStep_of_mem_steps

@[simp] theorem steps_tidy (path : String) : steps (tidy path) = steps path :=
  steps_ofSteps (isMark_mark path) fun _ => isStep_of_mem_steps

@[simp] theorem tidy_tidy (path : String) : tidy (tidy path) = tidy path := by
  rw [tidy_eq (tidy path), mark_tidy, steps_tidy, ← tidy_eq]

/-! ## Going on from a path -/

theorem rootMark_slash_ne_nil (rest : List Char) : rootMark ('/' :: rest) ≠ [] := by
  unfold rootMark
  split <;> simp_all

theorem isAbsolute_iff : isAbsolute path = true ↔ mark path ≠ [] := by
  unfold isAbsolute Text.startsWith mark
  generalize path.toList = s
  cases s with
  | nil => decide
  | cons c rest =>
    by_cases hc : c = '/'
    · exact hc ▸ iff_of_true rfl (rootMark_slash_ne_nil rest)
    · refine iff_of_false ?_ ?_
      · simpa [List.isPrefixOf] using Ne.symm hc
      · simp [rootMark, hc]

theorem isAbsolute_eq_of_mark {a b : String} (h : mark a = mark b) : isAbsolute a = isAbsolute b := by
  rw [Bool.eq_iff_iff, isAbsolute_iff, isAbsolute_iff, h]

theorem append_of_isAbsolute (h : isAbsolute path = true) (base : String) : append base path = path := by
  rw [append, if_pos h]

theorem steps_append (h : isAbsolute path = false) (base : String) :
    steps (append base path) = steps base ++ steps path := by
  rw [append, if_neg (by simp [h])]
  split
  · rename_i hslash
    rcases Bool.or_eq_true _ _ ▸ hslash with hempty | hend
    · rw [String.isEmpty_iff.1 hempty]
      simp [steps, components, Text.splitOn]
    · obtain ⟨front, hfront⟩ := List.isSuffixOf_iff_suffix.1 hend
      have hbase : base.toList = front ++ '/' :: [] := hfront.symm
      rw [steps, steps, steps, components, components, components, String.toList_append, hbase,
        List.append_assoc, List.singleton_append, Text.splitOn_append_cons, Text.splitOn_append_cons]
      simp [Text.splitOn]
  · rw [steps, steps, steps, components, components, components]
    simp [Text.splitOn_append_cons]

/-- The mark is settled by what stands before the first character other than a slash. -/
theorem rootMark_append_cons {d : Char} (hd : d ≠ '/') (front back : List Char) :
    rootMark (front ++ d :: back) = rootMark front := by
  rcases front with _ | ⟨a, _ | ⟨b, _ | ⟨c, more⟩⟩⟩
  · simp [rootMark, hd]
  · by_cases ha : a = '/' <;> simp [rootMark, ha, hd]
  · by_cases ha : a = '/' <;> by_cases hb : b = '/' <;> simp [rootMark, ha, hb, hd]
  · by_cases ha : a = '/' <;> by_cases hb : b = '/' <;> by_cases hc : c = '/' <;>
      simp [rootMark, ha, hb, hc]

theorem mark_append (h : isAbsolute path = false) (base : String) :
    mark (append base path) = mark base := by
  have hpath : mark path = [] := not_not.1 fun hmark => by simp [isAbsolute_iff.2 hmark] at h
  rw [append, if_neg (by simp [h])]
  split
  · rename_i hslash
    by_cases hempty : base = ""
    · rw [hempty, String.empty_append, hpath]
      rfl
    unfold mark at hpath ⊢
    rw [String.toList_append]
    cases hlist : path.toList with
    | nil => rw [List.append_nil]
    | cons d rest =>
      have hd : d ≠ '/' := by
        rintro rfl
        exact rootMark_slash_ne_nil rest (hlist ▸ hpath)
      exact rootMark_append_cons hd _ _
  · rename_i hslash
    obtain ⟨hempty, hend⟩ : base ≠ "" ∧ ¬Text.endsWith base "/" = true := by simpa using hslash
    have hbase : base.toList ≠ [] := by simpa using hempty
    obtain ⟨init, last, hlist⟩ := List.eq_nil_or_concat base.toList |>.resolve_left hbase
    have hlast : last ≠ '/' := by
      rintro rfl
      refine hend (List.isSuffixOf_iff_suffix.2 ?_)
      rw [hlist]
      exact ⟨init, by simp⟩
    unfold mark
    rw [String.toList_append, String.toList_append, hlist, List.concat_eq_append, List.append_assoc,
      List.append_assoc]
    exact (rootMark_append_cons hlast _ _).trans (rootMark_append_cons hlast _ _).symm

/-! ## The normal form -/

theorem advance_of_skipped (absolute : Bool) (done : List (List Char)) (h : c = [] ∨ c = ['.']) :
    advance absolute done c = done := by
  unfold advance
  rw [if_pos h]

theorem advance_down (absolute : Bool) (done : List (List Char)) (h : ¬(c = [] ∨ c = ['.']))
    (hdown : c ≠ ['.', '.']) : advance absolute done c = c :: done := by
  unfold advance
  rw [if_neg h, if_pos hdown]

theorem advance_up (h : ['.', '.'] ∉ done) : advance true done ['.', '.'] = done.drop 1 := by
  unfold advance
  cases done with
  | nil => rfl
  | cons last before =>
    obtain ⟨hlast, -⟩ := List.ne_and_not_mem_of_not_mem_cons h
    simp [hlast.symm]

theorem foldl_advance_filter (absolute : Bool) (cs done : List (List Char)) :
    (cs.filter (fun c => c ≠ [] ∧ c ≠ ['.'])).foldl (advance absolute) done =
      cs.foldl (advance absolute) done := by
  induction cs generalizing done with
  | nil => rfl
  | cons c rest ih =>
    rw [List.filter_cons, List.foldl_cons]
    split
    · rw [List.foldl_cons, ih]
    · rename_i hskipped
      rw [ih, advance_of_skipped]
      simpa [or_iff_not_imp_left] using hskipped

theorem normalize_eq (path : String) :
    normalize path = ofSteps (mark path) (reduce (!(mark path).isEmpty) (steps path)) := by
  unfold reduce steps
  rw [foldl_advance_filter]
  rfl

theorem advance_subset (absolute : Bool) (done : List (List Char)) (c : List Char) :
    advance absolute done c ⊆ c :: done := by
  unfold advance
  split
  · exact List.subset_cons_self c done
  split
  · exact List.Subset.refl _
  split
  · split
    · exact List.nil_subset _
    · exact List.Subset.refl _
  · split
    · exact List.Subset.refl _
    · exact fun _ h => List.mem_cons_of_mem _ (List.mem_cons_of_mem _ h)

theorem foldl_advance_subset (absolute : Bool) (cs done : List (List Char)) :
    cs.foldl (advance absolute) done ⊆ cs ++ done := by
  induction cs generalizing done with
  | nil => exact List.Subset.refl _
  | cons c rest ih =>
    intro d hd
    have hmem := ih (advance absolute done c) hd
    rw [List.mem_append] at hmem
    rw [List.cons_append, List.mem_cons, List.mem_append]
    rcases hmem with hrest | hdone
    · exact Or.inr (Or.inl hrest)
    · exact (List.mem_cons.1 (advance_subset _ _ _ hdone)).imp_right Or.inr

theorem isStep_of_mem_foldl_advance {absolute : Bool}
    (h : c ∈ (steps path).foldl (advance absolute) []) : IsStep c :=
  isStep_of_mem_steps (by simpa using foldl_advance_subset _ _ _ h)

theorem isStep_of_mem_reduce {absolute : Bool} (h : c ∈ reduce absolute (steps path)) : IsStep c :=
  isStep_of_mem_foldl_advance (List.mem_reverse.1 h)

@[simp] theorem mark_normalize (path : String) : mark (normalize path) = mark path := by
  rw [normalize_eq]
  exact mark_ofSteps (isMark_mark path) fun _ => isStep_of_mem_reduce

@[simp] theorem steps_normalize (path : String) :
    steps (normalize path) = reduce (!(mark path).isEmpty) (steps path) := by
  rw [normalize_eq]
  exact steps_ofSteps (isMark_mark path) fun _ => isStep_of_mem_reduce

theorem normalize_congr {a b : String} (hmark : mark a = mark b) (hsteps : steps a = steps b) :
    normalize a = normalize b := by
  rw [normalize_eq, normalize_eq, hmark, hsteps]

theorem foldl_advance_of_isStep (absolute : Bool) (h : ∀ c ∈ cs, IsStep c) (hdots : ['.', '.'] ∉ cs) :
    cs.foldl (advance absolute) done = cs.reverse ++ done := by
  induction cs generalizing done with
  | nil => rfl
  | cons c rest ih =>
    obtain ⟨hc, hrest⟩ := List.forall_mem_cons.1 h
    obtain ⟨hne, hdots⟩ := List.ne_and_not_mem_of_not_mem_cons hdots
    rw [List.foldl_cons, advance_down absolute done (not_or.2 ⟨hc.ne_nil, hc.ne_dot⟩) hne.symm,
      ih hrest hdots, List.reverse_cons, List.append_assoc, List.singleton_append]

theorem reduce_append (absolute : Bool) (front : List (List Char)) (h : ∀ c ∈ cs, IsStep c)
    (hdots : ['.', '.'] ∉ cs) : reduce absolute (front ++ cs) = reduce absolute front ++ cs := by
  rw [reduce, List.foldl_append, foldl_advance_of_isStep absolute h hdots, List.reverse_append,
    List.reverse_reverse, reduce]

theorem reduce_of_isStep (absolute : Bool) (h : ∀ c ∈ cs, IsStep c) (hdots : ['.', '.'] ∉ cs) :
    reduce absolute cs = cs := by
  simpa [reduce] using reduce_append absolute [] h hdots

theorem isAbsolute_append {base : String} (h : isAbsolute base = true) :
    isAbsolute (append base path) = true := by
  by_cases hpath : isAbsolute path = true
  · rwa [append_of_isAbsolute hpath]
  · rwa [isAbsolute_eq_of_mark (mark_append (by simpa using hpath) base)]

theorem isAbsolute_below {base : String} (h : isAbsolute base = true) :
    isAbsolute (below base path) = true := by
  unfold below
  rw [isAbsolute_eq_of_mark (mark_tidy _)]
  exact isAbsolute_append h

theorem isAbsolute_resolve (cwd path : String) : isAbsolute (resolve cwd path) = true := by
  simp [isAbsolute, resolve, Text.startsWith]

theorem isAbsolute_normalize : isAbsolute (normalize path) = isAbsolute path :=
  isAbsolute_eq_of_mark (mark_normalize path)

/-! ## From a directory on -/

theorem toList_join (cs : List (List Char)) :
    (Text.join "/" (cs.map String.ofList)).toList = joinComponents cs := by
  unfold Text.join joinComponents
  rw [String.toList_intercalate, List.map_map]
  simp [Function.comp_def]

theorem join_eq_ofSteps (hne : cs ≠ []) (h : ∀ c ∈ cs, IsStep c) :
    Text.join "/" (cs.map String.ofList) = ofSteps [] cs := by
  rw [← String.toList_inj, toList_join, toList_ofSteps (Or.inr hne) h]
  rfl

theorem isAbsolute_join (hne : cs ≠ []) (h : ∀ c ∈ cs, IsStep c) :
    isAbsolute (Text.join "/" (cs.map String.ofList)) = false := by
  rw [← Bool.not_eq_true, isAbsolute_iff, not_not, join_eq_ofSteps hne h]
  exact mark_ofSteps (Or.inl rfl) h

theorem below_join (hne : cs ≠ []) (h : ∀ c ∈ cs, IsStep c) (base : String) :
    below base (Text.join "/" (cs.map String.ofList)) = ofSteps (mark base) (steps base ++ cs) := by
  have hrelative := isAbsolute_join hne h
  rw [below, tidy_eq, mark_append hrelative, steps_append hrelative, join_eq_ofSteps hne h,
    steps_ofSteps (Or.inl rfl) h]

theorem steps_below_join (hne : cs ≠ []) (h : ∀ c ∈ cs, IsStep c) (base : String) :
    steps (below base (Text.join "/" (cs.map String.ofList))) = steps base ++ cs := by
  rw [below_join hne h, steps_ofSteps (isMark_mark base)]
  exact fun c hc => (List.mem_append.1 hc).elim isStep_of_mem_steps (h c)

theorem exists_steps_of_parts {rest : List String} (hroot : isAbsolute root = true)
    (hpath : isAbsolute path = true) (h : parts path = parts root ++ rest) :
    mark path = mark root ∧ ∃ more, steps path = steps root ++ more ∧ rest = more.map String.ofList := by
  rw [isAbsolute_iff] at hroot hpath
  rw [parts_eq, parts_eq, if_neg (by simpa using hpath), if_neg (by simpa using hroot),
    List.singleton_append, List.singleton_append, List.cons_append, List.cons.injEq] at h
  obtain ⟨hmark, hsteps⟩ := h
  obtain ⟨front, more, heq, hfront, hmore⟩ := List.map_eq_append_iff.1 hsteps
  rw [List.map_injective_iff.2 (fun _ _ h => String.ofList_injective h) hfront] at heq
  exact ⟨String.ofList_injective hmark, more, heq, hmore.symm⟩

/-- A path below a directory is told from the directory on, any other as it is. -/
theorem within_cases (hroot : isAbsolute root = true) (hpath : isAbsolute path = true) :
    within root path = path ∨ ∃ rest, mark path = mark root ∧ steps path = steps root ++ rest ∧
      within root path = ofSteps [] rest := by
  simp only [within]
  split
  · rename_i hbelow
    obtain ⟨rest, hrest⟩ := List.isPrefixOf_iff_prefix.1 hbelow.2
    obtain ⟨hmark, more, hsteps, rfl⟩ := exists_steps_of_parts hroot hpath hrest.symm
    refine Or.inr ⟨more, hmark, hsteps, ?_⟩
    have hmore : ∀ c ∈ more, IsStep c := by
      intro c hc
      exact isStep_of_mem_steps (hsteps ▸ List.mem_append_right _ hc)
    rw [← hrest, List.drop_left]
    cases more with
    | nil => rfl
    | cons c rest => exact join_eq_ofSteps (List.cons_ne_nil _ _) hmore
  · exact Or.inl rfl

theorem normalize_append_within (hroot : isAbsolute root = true) (hpath : isAbsolute path = true) :
    normalize (append root (within root path)) = normalize path := by
  rcases within_cases hroot hpath with heq | ⟨rest, hmark, hsteps, heq⟩
  · rw [heq, append_of_isAbsolute hpath]
  · have hrest : ∀ c ∈ rest, IsStep c := by
      intro c hc
      exact isStep_of_mem_steps (hsteps ▸ List.mem_append_right _ hc)
    have hrelative : isAbsolute (ofSteps [] rest) = false := by
      rw [← Bool.not_eq_true, isAbsolute_iff, not_not]
      exact mark_ofSteps (Or.inl rfl) hrest
    rw [heq]
    apply normalize_congr
    · rw [mark_append hrelative, hmark]
    · rw [steps_append hrelative, steps_ofSteps (Or.inl rfl) hrest, hsteps]

end BlockCheck.Path
