import BlockCheck.Proofs.Disk.Places

/-!
# Writing to a disk

The empty disk is sound. To make directories, to write a file and to remove one keeps a disk sound.
-/

namespace BlockCheck.Disk

variable {disk written : Disk} {path found : String} {bytes : List UInt8}
  {cs done place : List (List Char)}

/-- A place whose way goes down through directories. -/
structure Reached (disk : Disk) (place : List (List Char)) : Prop where
  names : ∀ c ∈ place, Path.IsStep c
  direct : ['.', '.'] ∉ place
  inside : place ≠ [] → ∀ outer ∈ place.tail.tails, disk.hasDirectory (pathOf outer) = true

theorem Reached.nil (disk : Disk) : Reached disk [] where
  names := nofun
  direct := List.not_mem_nil
  inside h := absurd rfl h

theorem Reached.up (h : Reached disk done) : Reached disk (done.drop 1) where
  names c hc := h.names c (List.mem_of_mem_drop hc)
  direct hmem := h.direct (List.mem_of_mem_drop hmem)
  inside hne outer houter := by
    rw [List.drop_one] at hne houter
    have hdone : done ≠ [] := by
      rintro rfl
      exact hne rfl
    refine h.inside hdone outer ?_
    rw [List.mem_tails] at houter ⊢
    exact houter.trans (List.tail_suffix _)

theorem Reached.down {c : List Char} (h : Reached disk done) (hc : Path.IsStep c)
    (hdown : c ≠ ['.', '.']) (hdirectory : disk.hasDirectory (pathOf done) = true) :
    Reached disk (c :: done) where
  names := List.forall_mem_cons.2 ⟨hc, h.names⟩
  direct := List.not_mem_cons_of_ne_of_not_mem (Ne.symm hdown) h.direct
  inside _ outer houter := by
    rw [List.tail_cons, List.mem_tails] at houter
    by_cases heq : outer = done
    · exact heq ▸ hdirectory
    · have hne : done ≠ [] := by
        rintro rfl
        exact heq (List.suffix_nil.1 houter)
      refine h.inside hne outer ((List.mem_tails _ _).2 ?_)
      obtain ⟨d, rest, rfl⟩ := List.exists_cons_of_ne_nil hne
      exact (List.suffix_cons_iff.1 houter).resolve_left heq

theorem Reached.follow (h : Reached disk done) (hcs : ∀ c ∈ cs, '/' ∉ c)
    (hfollow : disk.follow done cs = .ok place) : Reached disk place := by
  induction cs generalizing done with
  | nil =>
    cases hfollow
    exact h
  | cons c rest ih =>
    obtain ⟨hc, hrest⟩ := List.forall_mem_cons.1 hcs
    rw [Disk.follow] at hfollow
    split at hfollow
    · exact ih h hrest hfollow
    rename_i hkept
    obtain ⟨hnil, hdot⟩ := not_or.1 hkept
    split at hfollow
    · cases hfollow
    rename_i hdirectory
    split at hfollow
    · exact ih h.up hrest hfollow
    · rename_i hdown
      exact ih (h.down ⟨hnil, hdot, hc⟩ hdown (by simpa using hdirectory)) hrest hfollow

theorem exists_reached_of_locate (h : disk.locate path = .ok found) :
    ∃ place, Reached disk place ∧ found = pathOf place := by
  obtain ⟨place, hfollow, rfl⟩ := exists_of_locate_iff.1 h
  refine ⟨place, (Reached.nil disk).follow ?_ hfollow, rfl⟩
  exact fun _ => Path.not_mem_of_mem_splitOn

theorem Reached.placeOf_pathOf (h : Reached disk place) : placeOf (pathOf place) = place := by
  rw [placeOf, pathOf_eq, Path.steps_ofSteps (Or.inr (Or.inl rfl)), List.reverse_reverse]
  exact fun c hc => h.names c (List.mem_reverse.1 hc)

/-! ## Operations -/

theorem sound_empty : empty.Sound := by
  constructor <;> exact nofun

namespace Sound

theorem addDirectory (h : disk.Sound) (hfree : disk.hasFile path = false) :
    (disk.addDirectory path).Sound := by
  have hgrows : ∀ p, disk.hasDirectory p = true → (disk.addDirectory path).hasDirectory p = true := by
    intro p hp
    unfold Disk.addDirectory
    split
    · exact hp
    · simp_all [hasDirectory]
  have hfiles : (disk.addDirectory path).files = disk.files := by
    unfold Disk.addDirectory
    split <;> rfl
  constructor
  · exact hfiles ▸ h.written
  · exact hfiles ▸ h.direct
  · rw [hfiles]
    exact fun key hkey outer houter => hgrows _ (h.inside key hkey outer houter)
  · rw [hfiles]
    intro key hkey
    have hne : key ≠ path := by
      rintro rfl
      rw [hasFile, Record.hasKey_iff.2 hkey] at hfree
      cases hfree
    have hapart := h.apart key hkey
    unfold Disk.addDirectory
    split
    · exact hapart
    · simp_all [hasDirectory]

theorem makeDirectory (h : disk.Sound) (hmake : disk.makeDirectory path = .ok written) :
    written.Sound := by
  unfold Disk.makeDirectory at hmake
  split at hmake
  · cases hmake
  split at hmake
  · cases hmake
    exact h
  split at hmake
  · cases hmake
  · rename_i hfree
    cases hmake
    exact h.addDirectory (by simpa using hfree)

theorem makeDirectories {n : Nat} (h : disk.Sound) (hmake : disk.makeDirectories n path = .ok written) :
    written.Sound := by
  induction n generalizing path written with
  | zero => exact h.makeDirectory hmake
  | succ n ih =>
    rw [Disk.makeDirectories] at hmake
    split at hmake
    · split at hmake
      · cases hmake
      · cases houter : disk.makeDirectories n (Path.directory path) with
        | error fault =>
          rw [houter] at hmake
          cases hmake
        | ok outer =>
          rw [houter] at hmake
          exact (ih houter).makeDirectory hmake
    · exact h.makeDirectory hmake

theorem writeFile (h : disk.Sound) (hwrite : disk.writeFile path bytes = .ok written) :
    written.Sound := by
  unfold Disk.writeFile at hwrite
  split at hwrite
  · cases hwrite
  rename_i found hlocate
  split at hwrite
  · cases hwrite
  rename_i hfree
  split at hwrite
  · rename_i hparent
    cases hwrite
    obtain ⟨place, hplace, rfl⟩ := exists_reached_of_locate hlocate
    have hne : place ≠ [] := by
      rintro rfl
      exact hfree hparent
    -- The new key is a place that was reached; of the other keys nothing has changed.
    constructor
    · intro key hkey
      rcases (Record.mem_keys_insert _ _ _ _).1 hkey with rfl | hkey
      · rw [hplace.placeOf_pathOf]
      · exact h.written key hkey
    · intro key hkey
      rcases (Record.mem_keys_insert _ _ _ _).1 hkey with rfl | hkey
      · rw [hplace.placeOf_pathOf]
        exact hplace.direct
      · exact h.direct key hkey
    · intro key hkey
      rcases (Record.mem_keys_insert _ _ _ _).1 hkey with rfl | hkey
      · rw [hplace.placeOf_pathOf]
        exact hplace.inside hne
      · exact h.inside key hkey
    · intro key hkey
      rcases (Record.mem_keys_insert _ _ _ _).1 hkey with rfl | hkey
      · exact Bool.not_eq_true _ ▸ hfree
      · exact h.apart key hkey
  · cases hwrite

theorem remove (h : disk.Sound) (hremove : disk.remove path = .ok written) : written.Sound := by
  unfold Disk.remove at hremove
  split at hremove
  · cases hremove
  split at hremove
  · cases hremove
  split at hremove
  · rename_i found _ _ _
    cases hremove
    have hkept : ∀ key ∈ Record.keys (Record.without found disk.files), key ∈ Record.keys disk.files := by
      intro key hkey
      exact (List.filter_sublist.map Prod.fst).subset hkey
    constructor
    · exact fun key hkey => h.written key (hkept key hkey)
    · exact fun key hkey => h.direct key (hkept key hkey)
    · exact fun key hkey => h.inside key (hkept key hkey)
    · exact fun key hkey => h.apart key (hkept key hkey)
  · cases hremove

theorem save (h : disk.Sound) (hsave : disk.save path bytes = .ok written) : written.Sound := by
  unfold Disk.save at hsave
  dsimp only at hsave
  cases hmade : disk.makeDirectories (Path.parts (Path.directory path)).length (Path.directory path) with
  | error fault =>
    rw [hmade] at hsave
    cases hsave
  | ok made =>
    rw [hmade] at hsave
    exact (h.makeDirectories hmade).writeFile hsave

end Sound

end BlockCheck.Disk
