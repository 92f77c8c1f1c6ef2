import BlockCheck.Proofs.Disk.Entries
import Mathlib.Data.List.TakeWhile

/-!
# Spellings of a path

A path can be written in many ways, and its normal form is one of them, for relative paths as well. What is
named as seen from the directory of a file does not depend on how the file is written.
-/

namespace BlockCheck.Path

variable {path name : String} {absolute : Bool} {m c front ending : List Char} {cs done : List (List Char)}

/-! ## Steps that are taken once more -/

/-- What steps can leave, the last one first: steps up come before all others, and only in a relative path. -/
inductive Reduced (absolute : Bool) : List (List Char) → Prop
  | nil : Reduced absolute []
  | down {c : List Char} {done : List (List Char)} : c ≠ ['.', '.'] → Reduced absolute done →
      Reduced absolute (c :: done)
  | up {done : List (List Char)} : absolute = false → (∀ c ∈ done, c = ['.', '.']) →
      Reduced absolute (['.', '.'] :: done)

theorem Reduced.of_up (h : absolute = false) (hdone : ∀ c ∈ done, c = ['.', '.']) : Reduced absolute done := by
  cases done with
  | nil => exact .nil
  | cons c rest =>
    obtain ⟨rfl, hrest⟩ := List.forall_mem_cons.1 hdone
    exact .up h hrest

theorem Reduced.tail (h : Reduced absolute (c :: done)) : Reduced absolute done := by
  cases h with
  | down _ h => exact h
  | up h hdone => exact .of_up h hdone

theorem advance_up_front (hdone : ∀ c ∈ done, c = ['.', '.']) :
    advance false done ['.', '.'] = ['.', '.'] :: done := by
  cases done with
  | nil => rfl
  | cons c rest =>
    obtain ⟨rfl, -⟩ := List.forall_mem_cons.1 hdone
    rfl

theorem Reduced.advance (h : Reduced absolute done) (c : List Char) :
    Reduced absolute (advance absolute done c) := by
  unfold Path.advance
  split
  · exact h
  split
  · exact .down ‹_› h
  obtain rfl : c = ['.', '.'] := not_not.1 ‹_›
  cases h with
  | nil =>
    cases absolute
    · exact .up rfl (List.forall_mem_nil _)
    · exact .nil
  | down hc hdone =>
    dsimp only
    rw [if_neg hc]
    exact hdone
  | up habsolute hdone => exact .up habsolute (List.forall_mem_cons.2 ⟨rfl, hdone⟩)

theorem Reduced.foldl (h : Reduced absolute done) (cs : List (List Char)) :
    Reduced absolute (cs.foldl (Path.advance absolute) done) := by
  induction cs generalizing done with
  | nil => exact h
  | cons c rest ih => exact ih (h.advance c)

theorem Reduced.foldl_reverse (h : Reduced absolute done) (hsteps : ∀ c ∈ done, IsStep c) :
    done.reverse.foldl (Path.advance absolute) [] = done := by
  induction done with
  | nil => rfl
  | cons c rest ih =>
    obtain ⟨hc, hrest⟩ := List.forall_mem_cons.1 hsteps
    rw [List.reverse_cons, List.foldl_append, ih h.tail hrest, List.foldl_cons, List.foldl_nil]
    cases h with
    | down hdown _ => exact advance_down absolute rest (not_or.2 ⟨hc.ne_nil, hc.ne_dot⟩) hdown
    | up habsolute hdone => exact habsolute ▸ advance_up_front hdone

theorem reduce_reduce_append (hsteps : ∀ c ∈ cs, IsStep c) (ds : List (List Char)) :
    reduce absolute (reduce absolute cs ++ ds) = reduce absolute (cs ++ ds) := by
  have hreduced : Reduced absolute (cs.foldl (advance absolute) []) := Reduced.nil.foldl cs
  have hleft : ∀ c ∈ cs.foldl (advance absolute) [], IsStep c := fun c hc =>
    hsteps c (by simpa using foldl_advance_subset absolute cs [] hc)
  rw [reduce, reduce, reduce, List.foldl_append, hreduced.foldl_reverse hleft, List.foldl_append]

theorem normalize_idem (path : String) : normalize (normalize path) = normalize path := by
  have hreduce : reduce (!(mark path).isEmpty) (reduce (!(mark path).isEmpty) (steps path) ++ []) =
      reduce (!(mark path).isEmpty) (steps path ++ []) :=
    reduce_reduce_append (fun _ => isStep_of_mem_steps) []
  rw [List.append_nil, List.append_nil] at hreduce
  rw [normalize_eq (normalize path), mark_normalize, steps_normalize, hreduce, ← normalize_eq]

/-! ## Endings -/

/-- What can be written behind a name without making it another kind of step. -/
structure IsEnding (ending : List Char) : Prop where
  noSlash : '/' ∉ ending
  last : ∃ d ∈ ending.getLast?, d ≠ '.'

theorem IsEnding.ne_dots (h : IsEnding ending) (n : Nat) : c ++ ending ≠ List.replicate n '.' := by
  obtain ⟨d, hd, hne⟩ := h.last
  intro heq
  have hlast : d ∈ (c ++ ending).getLast? := by
    rw [List.getLast?_append, hd]
    exact rfl
  exact hne (List.eq_of_mem_replicate (heq ▸ List.mem_of_mem_getLast? hlast))

theorem IsEnding.isStep (h : IsEnding ending) (hc : '/' ∉ c) : IsStep (c ++ ending) where
  ne_nil := h.ne_dots 0
  ne_dot := h.ne_dots 1
  noSlash := by simpa using ⟨hc, h.noSlash⟩

theorem normalize_ofSteps (hm : IsMark m) (h : ∀ c ∈ cs, IsStep c) :
    normalize (ofSteps m cs) = ofSteps m (reduce (!m.isEmpty) cs) := by
  rw [normalize_eq, mark_ofSteps hm h, steps_ofSteps hm h]

/-- A normal form is written as directories with a slash behind each and a last step, which may be missing. -/
theorem exists_last_of_normalize (path : String) :
    ∃ (before : List (List Char)) (c : List Char), (∀ d ∈ before, IsStep d) ∧
      Reduced (!(mark path).isEmpty) before.reverse ∧ '/' ∉ c ∧
        (normalize path).toList = mark path ++ (before.flatMap (· ++ ['/']) ++ c) := by
  have hsteps : ∀ c ∈ reduce (!(mark path).isEmpty) (steps path), IsStep c := fun _ => isStep_of_mem_reduce
  have hreduced : Reduced (!(mark path).isEmpty) (reduce (!(mark path).isEmpty) (steps path)).reverse := by
    rw [reduce, List.reverse_reverse]
    exact Reduced.nil.foldl _
  rw [normalize_eq]
  generalize reduce (!(mark path).isEmpty) (steps path) = cs at hsteps hreduced
  rcases List.eq_nil_or_concat cs with rfl | ⟨before, c, rfl⟩
  · by_cases hmark : mark path = []
    · refine ⟨[], ['.'], List.forall_mem_nil _, .nil, by decide, ?_⟩
      rw [hmark]
      rfl
    · refine ⟨[], [], List.forall_mem_nil _, .nil, List.not_mem_nil, ?_⟩
      rw [toList_ofSteps (Or.inl hmark) hsteps]
      rfl
  · rw [List.concat_eq_append] at hsteps hreduced ⊢
    refine ⟨before, c, fun d hd => hsteps d (by simp [hd]), ?_, (hsteps c (by simp)).noSlash, ?_⟩
    · rw [List.reverse_append] at hreduced
      exact hreduced.tail
    · rw [toList_ofSteps (Or.inr (by simp)) hsteps, joinComponents_concat]

theorem normalize_append_ending (path : String) {ending : String} (hending : IsEnding ending.toList) :
    normalize (normalize path ++ ending) = normalize path ++ ending := by
  obtain ⟨before, c, hbefore, hreduced, hc, hpath⟩ := exists_last_of_normalize path
  have hlast : ∀ d ∈ [c ++ ending.toList], IsStep d := by simpa using hending.isStep hc
  have hall : ∀ d ∈ before ++ [c ++ ending.toList], IsStep d := by
    intro d hd
    exact (List.mem_append.1 hd).elim (hbefore d) (hlast d)
  have hlonger : normalize path ++ ending = ofSteps (mark path) (before ++ [c ++ ending.toList]) := by
    rw [← String.toList_inj, String.toList_append, hpath, toList_ofSteps (Or.inr (by simp)) hall,
      joinComponents_concat, List.append_assoc, List.append_assoc]
  have hkept : reduce (!(mark path).isEmpty) before = before := by
    rw [reduce, ← List.reverse_reverse before, hreduced.foldl_reverse (by simpa using hbefore),
      List.reverse_reverse]
  rw [hlonger, normalize_ofSteps (isMark_mark path) hall, reduce_append _ _ hlast ?_, hkept]
  simpa using (hending.ne_dots 2).symm

/-! ## The directory of a file -/

theorem steps_append_slash (s t : List Char) :
    steps (String.ofList (s ++ '/' :: t)) = steps (String.ofList s) ++ steps (String.ofList t) := by
  simp [steps, components, Text.splitOn_append_cons]

theorem steps_append_slashes {slashes : List Char} (s : List Char) (h : ∀ c ∈ slashes, c = '/') :
    steps (String.ofList (s ++ slashes)) = steps (String.ofList s) := by
  induction slashes generalizing s with
  | nil => rw [List.append_nil]
  | cons c rest ih =>
    obtain ⟨rfl, hrest⟩ := List.forall_mem_cons.1 h
    rw [steps_append_slash, ← List.nil_append rest, ih [] hrest]
    exact List.append_nil _

def IsFront (front : List Char) : Prop := front = [] ∨ ∃ before, front = before ++ ['/']

theorem exists_last_slash {s : List Char} (h : '/' ∈ s) : ∃ before last, s = before ++ '/' :: last ∧ '/' ∉ last := by
  obtain ⟨after, init, hreverse, hafter⟩ := List.eq_append_cons_of_mem (List.mem_reverse.2 h)
  refine ⟨init.reverse, after.reverse, ?_, mt List.mem_reverse.1 hafter⟩
  rw [← List.reverse_reverse s, hreverse]
  simp

theorem LeadsTo.exists_front (h : LeadsTo path name) :
    ∃ front, IsFront front ∧ path.toList = front ++ name.toList := by
  obtain ⟨before, hbefore⟩ := h
  rw [components] at hbefore
  by_cases hslash : '/' ∈ path.toList
  · obtain ⟨init, last, hpath, hlast⟩ := exists_last_slash hslash
    rw [hpath, Text.splitOn_append_cons, Text.splitOn_of_not_mem hlast] at hbefore
    obtain ⟨-, hname⟩ := List.append_inj' hbefore rfl
    refine ⟨init ++ ['/'], Or.inr ⟨_, rfl⟩, ?_⟩
    rw [hpath, List.singleton_inj.1 hname, List.append_assoc, List.singleton_append]
  · rw [Text.splitOn_of_not_mem hslash, ← List.nil_append [path.toList]] at hbefore
    obtain ⟨-, hname⟩ := List.append_inj' hbefore rfl
    exact ⟨[], Or.inl rfl, by rw [List.singleton_inj.1 hname, List.nil_append]⟩

theorem reverse_dropWhile_name (hname : IsName name) (hfront : IsFront front)
    (hpath : path.toList = front ++ name.toList) :
    (path.toList.reverse.dropWhile (· ≠ '/')).reverse = front := by
  have hall : ∀ c ∈ name.toList.reverse, decide (c ≠ '/') = true := by
    intro c hc
    exact decide_eq_true fun heq => hname.noSlash (heq ▸ List.mem_reverse.1 hc)
  rw [hpath, List.reverse_append, List.dropWhile_append_of_pos hall]
  rcases hfront with rfl | ⟨before, rfl⟩ <;> simp

theorem parent_eq (hname : IsName name) (hfront : IsFront front) (hpath : path.toList = front ++ name.toList) :
    mark (parent path) = rootMark front ∧ steps (parent path) = steps (String.ofList front) := by
  rw [parent, reverse_dropWhile_name hname hfront hpath]
  split
  · exact ⟨by rw [mark, String.toList_ofList], rfl⟩
  rename_i hother
  -- The last character that is no slash settles where the slashes at the end begin.
  cases hrest : front.reverse.dropWhile (· = '/') with
  | nil =>
    refine absurd ?_ hother
    rw [List.dropWhile_eq_nil_iff] at hrest
    simpa using hrest
  | cons d more =>
    have hd : d ≠ '/' := by
      have hhead := List.head?_dropWhile_not (fun c => decide (c = '/')) front.reverse
      rw [hrest] at hhead
      simpa using hhead
    have hslashes : ∀ c ∈ (front.reverse.takeWhile (· = '/')).reverse, c = '/' := by
      intro c hc
      simpa using List.mem_takeWhile_imp (List.mem_reverse.1 hc)
    have hsplit : front = (d :: more).reverse ++ (front.reverse.takeWhile (· = '/')).reverse := by
      rw [← List.reverse_append, ← hrest, List.takeWhile_append_dropWhile, List.reverse_reverse]
    generalize (front.reverse.takeWhile (· = '/')).reverse = slashes at hslashes hsplit
    refine ⟨?_, ?_⟩
    · rw [hsplit, mark, String.toList_ofList, List.reverse_cons, List.append_assoc, List.singleton_append,
        rootMark_append_cons hd, rootMark_append_cons hd]
    · rw [hsplit, steps_append_slashes _ hslashes]

theorem mark_parent (hname : IsName name) (hfront : IsFront front)
    (hpath : path.toList = front ++ name.toList) : mark (parent path) = mark path := by
  rw [(parent_eq hname hfront hpath).1, mark, hpath]
  cases hlist : name.toList with
  | nil => exact absurd hlist hname.ne_empty
  | cons d rest =>
    have hd : d ≠ '/' := fun heq => hname.noSlash (by simp [hlist, heq])
    rw [rootMark_append_cons hd]

theorem steps_parent (hname : IsName name) (hfront : IsFront front)
    (hpath : path.toList = front ++ name.toList) :
    steps path = steps (parent path) ++ [name.toList] := by
  rw [(parent_eq hname hfront hpath).2, ← hname.steps, ← String.ofList_toList (s := path), hpath]
  rcases hfront with rfl | ⟨before, rfl⟩
  · rw [List.nil_append, String.ofList_toList]
    rfl
  · rw [List.append_assoc, List.singleton_append, steps_append_slash, steps_append_slash,
      String.ofList_toList]
    simp [steps, components, Text.splitOn]

theorem exists_front_of_normalize (hname : IsName name) (h : steps path = cs ++ [name.toList]) :
    ∃ front, IsFront front ∧ (normalize path).toList = front ++ name.toList := by
  have hreduce : reduce (!(mark path).isEmpty) (steps path) =
      reduce (!(mark path).isEmpty) cs ++ [name.toList] := by
    rw [h]
    exact reduce_append _ _ (by simpa using hname.isStep) (by simpa using hname.ne_dots.symm)
  have hsteps : ∀ c ∈ reduce (!(mark path).isEmpty) cs ++ [name.toList], IsStep c :=
    hreduce ▸ fun _ => isStep_of_mem_reduce
  refine ⟨mark path ++ (reduce (!(mark path).isEmpty) cs).flatMap (· ++ ['/']), ?_, ?_⟩
  · rcases List.eq_nil_or_concat (reduce (!(mark path).isEmpty) cs) with hnil | ⟨more, last, hconcat⟩
    · rw [hnil, List.flatMap_nil, List.append_nil]
      exact rootMark_eq path.toList
    · exact Or.inr ⟨mark path ++ (more.flatMap (· ++ ['/']) ++ last), by simp [hconcat]⟩
  · rw [normalize_eq, hreduce, toList_ofSteps (Or.inr (by simp)) hsteps, joinComponents_concat,
      List.append_assoc]

theorem normalize_append_parent (hname : IsName name) (h : LeadsTo path name) (other : String) :
    normalize (append (parent (normalize path)) other) = normalize (append (parent path) other) := by
  by_cases hother : isAbsolute other = true
  · rw [append_of_isAbsolute hother, append_of_isAbsolute hother]
  have hrelative : isAbsolute other = false := by simpa using hother
  obtain ⟨front, hfront, hpath⟩ := h.exists_front
  have hsteps := steps_parent hname hfront hpath
  obtain ⟨front', hfront', hnormal⟩ := exists_front_of_normalize hname hsteps
  have hparent : steps (parent (normalize path)) = reduce (!(mark path).isEmpty) (steps (parent path)) := by
    have hlonger := steps_parent hname hfront' hnormal
    rw [steps_normalize, hsteps, reduce_append _ _ (by simpa using hname.isStep)
      (by simpa using hname.ne_dots.symm)] at hlonger
    exact (List.append_cancel_right hlonger).symm
  rw [normalize_eq, normalize_eq (append (parent path) other), mark_append hrelative, mark_append hrelative,
    mark_parent hname hfront' hnormal, mark_parent hname hfront hpath, mark_normalize,
    steps_append hrelative, steps_append hrelative, hparent, reduce_reduce_append]
  exact fun _ => isStep_of_mem_steps

end BlockCheck.Path
