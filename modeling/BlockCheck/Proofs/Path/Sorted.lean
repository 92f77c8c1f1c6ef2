import BlockCheck.Path

/-!
# Paths in order

The order of paths is total, and two paths stand at the same place in it only if they have the same
components. So one path more, wherever it is found, does not move the others.
-/

namespace BlockCheck.Path

theorem inOrder_total (as bs : List String) : (inOrder as bs || inOrder bs as) = true := by
  induction as generalizing bs with
  | nil => rfl
  | cons a as ih =>
    cases bs with
    | nil => rfl
    | cons b bs =>
      by_cases hab : a = b
      · rw [inOrder, inOrder, if_pos hab, if_pos hab.symm, ih]
      · rw [inOrder, inOrder, if_neg hab, if_neg (Ne.symm hab)]
        simpa using String.le_total a b

theorem inOrder_antisymm {as bs : List String} (h : inOrder as bs = true) (h' : inOrder bs as = true) :
    as = bs := by
  induction as generalizing bs with
  | nil =>
    cases bs with
    | nil => rfl
    | cons b bs => cases h'
  | cons a as ih =>
    cases bs with
    | nil => cases h
    | cons b bs =>
      by_cases hab : a = b
      · rw [inOrder, if_pos hab] at h
        rw [inOrder, if_pos hab.symm] at h'
        rw [hab, ih h h']
      · rw [inOrder, if_neg hab, decide_eq_true_iff] at h
        rw [inOrder, if_neg (Ne.symm hab), decide_eq_true_iff] at h'
        exact absurd (String.le_antisymm h h') hab

theorem inOrder_trans {as bs cs : List String} (h : inOrder as bs = true) (h' : inOrder bs cs = true) :
    inOrder as cs = true := by
  induction as generalizing bs cs with
  | nil => rfl
  | cons a as ih =>
    cases bs with
    | nil => cases h
    | cons b bs =>
      cases cs with
      | nil => cases h'
      | cons c cs =>
        rw [inOrder] at h h' ⊢
        by_cases hab : a = b
        · subst hab
          rw [if_pos rfl] at h
          by_cases hac : a = c
          · rw [if_pos hac] at h' ⊢
            exact ih h h'
          · rwa [if_neg hac] at h' ⊢
        · rw [if_neg hab, decide_eq_true_iff] at h
          by_cases hbc : b = c
          · subst hbc
            rw [if_neg hab]
            exact decide_eq_true h
          · rw [if_neg hbc, decide_eq_true_iff] at h'
            have hac : a ≠ c := fun heq => hab (String.le_antisymm h (heq ▸ h'))
            rw [if_neg hac]
            exact decide_eq_true (String.le_trans h h')

def NotAfter (a b : String) : Prop := inOrder (parts a) (parts b) = true

instance : DecidableRel NotAfter := fun _ _ => inferInstanceAs (Decidable (_ = true))

theorem inOrder_parts_trans (a b c : String) (h : inOrder (parts a) (parts b) = true)
    (h' : inOrder (parts b) (parts c) = true) : inOrder (parts a) (parts c) = true :=
  inOrder_trans h h'

theorem pairwise_sorted (paths : List String) : (sorted paths).Pairwise NotAfter :=
  List.pairwise_mergeSort inOrder_parts_trans (fun _ _ => inOrder_total _ _) paths

theorem sorted_perm (paths : List String) : (sorted paths).Perm paths := List.mergeSort_perm _ _

theorem sorted_of_pairwise {paths : List String} (h : paths.Pairwise NotAfter) : sorted paths = paths :=
  List.mergeSort_of_pairwise h

theorem sorted_congr {paths paths' : List String} (h : paths.Perm paths')
    (hparts : ∀ a ∈ paths, ∀ b ∈ paths, parts a = parts b → a = b) : sorted paths = sorted paths' := by
  refine List.Perm.eq_of_pairwise (fun a b ha hb hab hba => ?_) (pairwise_sorted _) (pairwise_sorted _)
    ((sorted_perm _).trans (h.trans (sorted_perm _).symm))
  rw [(sorted_perm _).mem_iff] at ha hb
  exact hparts a ha b (h.mem_iff.2 hb) (inOrder_antisymm hab hba)

theorem exists_sorted_cons (path : String) (paths : List String) : ∃ before after,
    sorted (path :: paths) = before ++ path :: after ∧ sorted paths = before ++ after := by
  obtain ⟨before, after, hmore, hpaths, -⟩ :=
    List.mergeSort_cons inOrder_parts_trans (fun _ _ => inOrder_total _ _) path paths
  exact ⟨before, after, hmore, hpaths⟩

end BlockCheck.Path
