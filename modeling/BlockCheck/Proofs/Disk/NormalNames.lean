import BlockCheck.Proofs.Path.Below

/-!
# Files under the normal forms of their names

A way that leads somewhere still leads there when steps up are taken back, since each directory that it passed
through is there. So what is a file under a name is one under the normal form of the name.
-/

namespace BlockCheck

namespace Disk

variable {disk : Disk} {absolute : Bool} {c : List Char} {cs way done place : List (List Char)} {path cwd : String}

theorem exists_of_follow_append {before after : List (List Char)}
    (h : disk.follow done (before ++ after) = .ok place) :
    ∃ mid, disk.follow done before = .ok mid ∧ disk.follow mid after = .ok place := by
  rw [follow_append] at h
  cases hbefore : disk.follow done before with
  | error throughFile => rw [hbefore] at h; cases h
  | ok mid =>
    rw [hbefore] at h
    exact ⟨mid, rfl, h⟩

theorem eq_of_follow_up (h : disk.follow done [['.', '.']] = .ok place) : place = done.drop 1 := by
  rw [follow, if_neg (by decide)] at h
  split at h
  · cases h
  · rw [if_pos rfl, follow] at h
    exact (Except.ok.inj h).symm

theorem eq_of_follow_down (hc : Path.IsStep c) (hdown : c ≠ ['.', '.']) (h : disk.follow done [c] = .ok place) :
    place = c :: done := by
  rw [follow, if_neg (not_or.2 ⟨hc.ne_nil, hc.ne_dot⟩)] at h
  split at h
  · cases h
  · rw [follow] at h
    exact (Except.ok.inj h).symm

theorem follow_advance (habsolute : absolute = true → done = []) (hway : ∀ d ∈ way, Path.IsStep d)
    (h : disk.follow done (way.reverse ++ [c]) = .ok place) :
    disk.follow done (Path.advance absolute way c).reverse = .ok place := by
  obtain ⟨mid, hmid, hstep⟩ := exists_of_follow_append h
  have hpushed (hadvance : Path.advance absolute way c = c :: way) :
      disk.follow done (Path.advance absolute way c).reverse = .ok place := by
    rwa [hadvance, List.reverse_cons]
  by_cases hskipped : c = [] ∨ c = ['.']
  · rw [follow, if_pos hskipped, follow] at hstep
    rwa [Path.advance_of_skipped _ _ hskipped, hmid]
  by_cases hup : c = ['.', '.']
  · subst hup
    obtain rfl := eq_of_follow_up hstep
    cases way with
    | nil =>
      cases absolute with
      | false => exact hpushed rfl
      | true =>
        obtain rfl := habsolute rfl
        cases hmid
        rfl
    | cons last before =>
      by_cases hlast : last = ['.', '.']
      · subst hlast
        exact hpushed rfl
      · rw [List.reverse_cons] at hmid
        obtain ⟨inner, hinner, hdown⟩ := exists_of_follow_append hmid
        obtain rfl := eq_of_follow_down (hway last List.mem_cons_self) hlast hdown
        rw [Path.advance_up_cons hlast, hinner, List.drop_succ_cons, List.drop_zero]
  · exact hpushed (Path.advance_down _ _ hskipped hup)

theorem follow_foldl_advance (habsolute : absolute = true → done = []) (hway : ∀ d ∈ way, Path.IsStep d)
    (hcs : ∀ d ∈ cs, Path.IsStep d) (h : disk.follow done (way.reverse ++ cs) = .ok place) :
    disk.follow done (cs.foldl (Path.advance absolute) way).reverse = .ok place := by
  induction cs generalizing way with
  | nil => rwa [List.append_nil] at h
  | cons c rest ih =>
    obtain ⟨hc, hrest⟩ := List.forall_mem_cons.1 hcs
    have hlonger : ∀ d ∈ Path.advance absolute way c, Path.IsStep d := fun d hd =>
      (List.mem_cons.1 (Path.advance_subset absolute way c hd)).elim (fun heq => heq ▸ hc) (hway d)
    rw [← List.singleton_append, ← List.append_assoc] at h
    obtain ⟨mid, hmid, hbehind⟩ := exists_of_follow_append h
    refine ih hlonger hrest ?_
    rw [follow_append, follow_advance habsolute hway hmid]
    exact hbehind

theorem follow_reduce (habsolute : absolute = true → done = [])
    (h : disk.follow done (Path.steps path) = .ok place) :
    disk.follow done (Path.reduce absolute (Path.steps path)) = .ok place :=
  follow_foldl_advance habsolute nofun (fun _ => Path.isStep_of_mem_steps) h

theorem follow_append_normalize (h : disk.follow [] (Path.steps (Path.append cwd path)) = .ok place) :
    disk.follow [] (Path.steps (Path.append cwd (Path.normalize path))) = .ok place := by
  by_cases hpath : Path.isAbsolute path = true
  · rw [Path.append_of_isAbsolute hpath] at h
    rw [Path.append_of_isAbsolute (Path.isAbsolute_normalize.trans hpath), Path.steps_normalize]
    exact follow_reduce (fun _ => rfl) h
  · have hrelative : Path.isAbsolute path = false := by simpa using hpath
    have hmark : Path.mark path = [] := not_not.1 fun hmark => hpath (Path.isAbsolute_iff.2 hmark)
    rw [Path.steps_append hrelative] at h
    obtain ⟨mid, hmid, hbehind⟩ := exists_of_follow_append h
    rw [Path.steps_append (Path.isAbsolute_normalize.trans hrelative), Path.steps_normalize, hmark, follow_append,
      hmid]
    exact follow_reduce nofun hbehind

theorem isFile_of_follow {a b : String}
    (h : ∀ place, disk.follow [] (Path.steps a) = .ok place → disk.follow [] (Path.steps b) = .ok place)
    (hfile : disk.isFile a = true) : disk.isFile b = true := by
  unfold isFile locate at hfile ⊢
  rw [follow_steps] at hfile ⊢
  cases hfollow : disk.follow [] (Path.steps a) with
  | error throughFile => simp [hfollow, Except.map] at hfile
  | ok place => rwa [hfollow, ← h place hfollow] at hfile

end Disk

namespace Files

/-- A file is found under the normal form of its name as well. -/
def Settled (files : Files) : Prop :=
  ∀ path, files.isFile path = true → files.isFile (Path.normalize path) = true

theorem settled_ofTexts (texts : List (String × String)) : (ofTexts texts).Settled := by
  intro path hpath
  unfold ofTexts at hpath ⊢
  dsimp only at hpath ⊢
  rwa [Path.normalize_idem]

theorem settled_toFiles (disk : Disk) (cwd : String) : (disk.toFiles cwd).Settled := by
  have hseen (path : String) : (disk.toFiles cwd).isFile path = disk.isFile (Path.append cwd path) := rfl
  intro path hpath
  rw [hseen] at hpath ⊢
  exact Disk.isFile_of_follow (fun place => Disk.follow_append_normalize) hpath

end Files

end BlockCheck
