import Mathlib.Data.List.Count
import Mathlib.Data.List.Flatten
import Mathlib.Data.List.Forall2

/-!
# Parts of lists

Lists that differ in some elements only: one is the other with something left out, or with something
put in. Each relation is kept by the operations that findings are put together with.
-/

namespace BlockCheck

theorem forall_mem_zipIdx {α : Type} (l : List α) (P : α → Prop) :
    (∀ item ∈ l.zipIdx, P item.1) ↔ ∀ a ∈ l, P a := by
  rw [← List.forall_mem_map, List.zipIdx_map_fst]

theorem filter_eq_singleton {α β : Type} [DecidableEq β] {l : List α} {f : α → β}
    (h : (l.map f).Nodup) {a : α} (ha : a ∈ l) : l.filter (fun b => f b = f a) = [a] := by
  induction l with
  | nil => cases ha
  | cons b rest ih =>
    rw [List.map_cons, List.nodup_cons] at h
    obtain ⟨hfresh, hrest⟩ := h
    rcases List.mem_cons.1 ha with rfl | ha
    · have hnone : rest.filter (fun c => f c = f a) = [] := by
        rw [List.filter_eq_nil_iff]
        intro c hc heq
        exact hfresh (of_decide_eq_true heq ▸ List.mem_map_of_mem hc)
      rw [List.filter_cons_of_pos (by simp), hnone]
    · have hne : f b ≠ f a := fun heq => hfresh (heq ▸ List.mem_map_of_mem ha)
      rw [List.filter_cons_of_neg (by simpa using hne), ih hrest ha]

theorem nodup_eraseDups {α : Type} [BEq α] [LawfulBEq α] (l : List α) : l.eraseDups.Nodup := by
  induction hn : l.length using Nat.strongRecOn generalizing l with
  | _ n ih =>
    cases l with
    | nil => simp
    | cons a rest =>
      rw [List.eraseDups_cons, List.nodup_cons]
      refine ⟨by simp, ih _ ?_ _ rfl⟩
      rw [← hn, List.length_cons]
      exact Nat.lt_succ_of_le (List.length_filter_le _ _)

/-! ## Lists side by side -/

section Forall₂

variable {α β γ : Type} {R : β → γ → Prop}

theorem forall₂_map_zipIdx {l : List α} {f : α → β} {g : α × Nat → γ}
    (h : ∀ item ∈ l.zipIdx, R (f item.1) (g item)) : List.Forall₂ R (l.map f) (l.zipIdx.map g) := by
  have hl : l.map f = l.zipIdx.map (fun item => f item.1) := by
    rw [show l.zipIdx.map (fun item => f item.1) = (l.zipIdx.map Prod.fst).map f from
      List.map_map.symm, List.zipIdx_map_fst]
  rw [hl, List.forall₂_map_left_iff, List.forall₂_map_right_iff, List.forall₂_same]
  exact h

theorem forall₂_flatMap {l : List α} {f : α → List β} {g : α → List γ}
    (h : ∀ a ∈ l, List.Forall₂ R (f a) (g a)) : List.Forall₂ R (l.flatMap f) (l.flatMap g) := by
  induction l with
  | nil => exact .nil
  | cons a rest ih =>
    obtain ⟨ha, hrest⟩ := List.forall_mem_cons.1 h
    exact List.rel_append ha (ih hrest)

theorem forall₂_of_mapM {f : β → Option γ} {l : List β} {l' : List γ} (h : l.mapM f = some l') :
    List.Forall₂ (fun b c => f b = some c) l l' := by
  induction l generalizing l' with
  | nil =>
    cases h
    exact .nil
  | cons b rest ih =>
    rw [List.mapM_cons] at h
    obtain ⟨c, hc, h⟩ := Option.bind_eq_some_iff.1 h
    obtain ⟨cs, hcs, h⟩ := Option.bind_eq_some_iff.1 h
    cases h
    exact .cons hc (ih hcs)

theorem exists_of_mem_right {l : List β} {l' : List γ} (h : List.Forall₂ R l l') {c : γ}
    (hc : c ∈ l') : ∃ b, R b c := by
  induction h with
  | nil => cases hc
  | cons hhead _ ih =>
    rcases List.mem_cons.1 hc with rfl | hc
    · exact ⟨_, hhead⟩
    · exact ih hc

end Forall₂

/-! ## Lists with something left out -/

/-- The first list is part of the second one, and it is all of it if and only if `P`. -/
structure WholeIff {α : Type} (xs ys : List α) (P : Prop) : Prop where
  sublist : xs.Sublist ys
  eq_iff : xs = ys ↔ P

namespace WholeIff

variable {α β : Type} {xs ys : List α} {P Q : Prop}

theorem of_true (xs : List α) (h : P) : WholeIff xs xs P := ⟨.refl xs, iff_of_true rfl h⟩

theorem congr (h : WholeIff xs ys P) (hiff : P ↔ Q) : WholeIff xs ys Q :=
  ⟨h.sublist, h.eq_iff.trans hiff⟩

theorem map (f : α → β) (h : WholeIff xs ys P) : WholeIff (xs.map f) (ys.map f) P := by
  refine ⟨h.sublist.map f, ?_⟩
  rw [← h.eq_iff]
  constructor
  · intro heq
    have hlength : xs.length = ys.length := by simpa using congrArg List.length heq
    exact h.sublist.eq_of_length hlength
  · rintro rfl
    rfl

theorem append_left (zs : List α) (h : WholeIff xs ys P) : WholeIff (zs ++ xs) (zs ++ ys) P :=
  ⟨h.sublist.append_left zs, List.append_right_inj zs |>.trans h.eq_iff⟩

theorem append_right (zs : List α) (h : WholeIff xs ys P) : WholeIff (xs ++ zs) (ys ++ zs) P :=
  ⟨h.sublist.append_right zs, List.append_left_inj zs |>.trans h.eq_iff⟩

theorem flatMap {l : List β} {f g : β → List α} {P : β → Prop}
    (h : ∀ b ∈ l, WholeIff (f b) (g b) (P b)) :
    WholeIff (l.flatMap f) (l.flatMap g) (∀ b ∈ l, P b) := by
  refine ⟨List.Sublist.flatMap_right l fun b hb => (h b hb).sublist, ?_⟩
  induction l with
  | nil => simp
  | cons b rest ih =>
    obtain ⟨hfirst, hrest⟩ := List.forall_mem_cons.1 h
    rw [List.flatMap_cons, List.flatMap_cons, List.forall_mem_cons, ← ih hrest, ← hfirst.eq_iff]
    constructor
    · intro heq
      have hlength : (f b).length + (rest.flatMap f).length =
          (g b).length + (rest.flatMap g).length := by
        simpa only [List.length_append] using congrArg List.length heq
      have hfirstLe : (f b).length ≤ (g b).length := hfirst.sublist.length_le
      have hrestLe : (rest.flatMap f).length ≤ (rest.flatMap g).length :=
        (List.Sublist.flatMap_right rest fun b hb => (hrest b hb).sublist).length_le
      exact List.append_inj heq (by omega)
    · rintro ⟨hfirst, hrest⟩
      rw [hfirst, hrest]

theorem filter {p : α → Bool} (h : WholeIff xs ys P)
    (hrest : xs.filter (fun a => !p a) = ys.filter (fun a => !p a)) :
    WholeIff (xs.filter p) (ys.filter p) P := by
  refine ⟨h.sublist.filter p, ?_⟩
  rw [← h.eq_iff]
  constructor
  · intro hpicked
    have hx := List.length_eq_length_filter_add (l := xs) p
    have hy := List.length_eq_length_filter_add (l := ys) p
    rw [hpicked, hrest] at hx
    exact h.sublist.eq_of_length (hx.trans hy.symm)
  · rintro rfl
    rfl

theorem eq_nil_iff (h : WholeIff xs ys P) : (xs = [] ↔ ys = []) ↔ (xs = [] → P) := by
  rw [← h.eq_iff]
  constructor
  · intro hnil hxs
    rw [hxs, hnil.1 hxs]
  · intro hwhole
    refine ⟨fun hxs => ?_, fun hys => List.sublist_nil.1 (hys ▸ h.sublist)⟩
    rw [← hwhole hxs, hxs]

end WholeIff

/-! ## Lists with something put in -/

/-- The second list is the first one with elements put in that satisfy `P`. -/
inductive AddsOnly {α : Type} (P : α → Prop) : List α → List α → Prop
  | nil : AddsOnly P [] []
  | keep (a : α) {xs ys : List α} : AddsOnly P xs ys → AddsOnly P (a :: xs) (a :: ys)
  | add {a : α} {xs ys : List α} : P a → AddsOnly P xs ys → AddsOnly P xs (a :: ys)

namespace AddsOnly

variable {α β : Type} {P : α → Prop} {xs ys : List α}

theorem refl (xs : List α) : AddsOnly P xs xs := by
  induction xs with
  | nil => exact .nil
  | cons a rest ih => exact .keep a ih

theorem of_forall (h : ∀ a ∈ ys, P a) : AddsOnly P [] ys := by
  induction ys with
  | nil => exact .nil
  | cons a rest ih =>
    obtain ⟨ha, hrest⟩ := List.forall_mem_cons.1 h
    exact .add ha (ih hrest)

theorem append {xs' ys' : List α} (h : AddsOnly P xs ys) (h' : AddsOnly P xs' ys') :
    AddsOnly P (xs ++ xs') (ys ++ ys') := by
  induction h with
  | nil => exact h'
  | keep a _ ih => exact .keep a ih
  | add ha _ ih => exact .add ha ih

theorem map {Q : β → Prop} (f : α → β) (hf : ∀ a, P a → Q (f a)) (h : AddsOnly P xs ys) :
    AddsOnly Q (xs.map f) (ys.map f) := by
  induction h with
  | nil => exact .nil
  | keep a _ ih => exact .keep (f a) ih
  | add ha _ ih => exact .add (hf _ ha) ih

theorem flatMap {l : List β} {f g : β → List α} (h : ∀ b ∈ l, AddsOnly P (f b) (g b)) :
    AddsOnly P (l.flatMap f) (l.flatMap g) := by
  induction l with
  | nil => exact .nil
  | cons b rest ih =>
    obtain ⟨hb, hrest⟩ := List.forall_mem_cons.1 h
    exact hb.append (ih hrest)

theorem sublist (h : AddsOnly P xs ys) : xs.Sublist ys := by
  induction h with
  | nil => exact .slnil
  | keep a _ ih => exact ih.cons_cons a
  | add _ _ ih => exact ih.cons _

theorem of_count_lt [DecidableEq α] (h : AddsOnly P xs ys) {a : α}
    (hlt : xs.count a < ys.count a) : P a := by
  induction h with
  | nil => exact absurd hlt (Nat.lt_irrefl _)
  | keep b _ ih =>
    rw [List.count_cons, List.count_cons] at hlt
    exact ih (Nat.lt_of_add_lt_add_right hlt)
  | @add b xs ys hb _ ih =>
    by_cases heq : b = a
    · exact heq ▸ hb
    · rw [List.count_cons_of_ne heq] at hlt
      exact ih hlt

theorem eq_filter {p : α → Bool} (h : AddsOnly P xs ys) (hp : ∀ a, P a → p a = false)
    (hxs : ∀ a ∈ xs, p a = true) : xs = ys.filter p := by
  induction h with
  | nil => rfl
  | keep a _ ih =>
    obtain ⟨ha, hrest⟩ := List.forall_mem_cons.1 hxs
    rw [List.filter_cons_of_pos ha, ← ih hrest]
  | add ha _ ih =>
    rw [List.filter_cons_of_neg (by simp [hp _ ha]), ← ih hxs]

end AddsOnly

end BlockCheck
