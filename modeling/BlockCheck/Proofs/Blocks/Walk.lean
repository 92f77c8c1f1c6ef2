import BlockCheck.Proofs.Blocks.Reach
import BlockCheck.Proofs.Scan.Locations

/-!
# Walks over references

A walk follows references into the documents of blocks. It closes when it comes to a block that it
went through before, or to one that is in progress. A walk that closes can be found wherever a block
in progress or a cycle is reached.
-/

namespace BlockCheck.Document

open Relation

variable {around : Surroundings} {text content name : String} {inProgress : List String}
  {r last : Scan.Reference} {walk : List Scan.Reference}

/-- The first reference stands in the text, and each other one in the block that the one before it
names. -/
inductive IsWalk (around : Surroundings) : String → List Scan.Reference → Prop
  | single {text : String} {r : Scan.Reference} : r ∈ blockReferences around text →
      IsWalk around text [r]
  | cons {text content : String} {r : Scan.Reference} {walk : List Scan.Reference} :
      r ∈ blockReferences around text → around.blocks.read r.identifier = some (.ok content) →
      IsWalk around content walk → IsWalk around text (r :: walk)

def names (walk : List Scan.Reference) : List String := walk.map (·.identifier)

/-- The walk goes through distinct blocks that are not in progress, up to its last reference, which
names one of them or one in progress. -/
def Closes (inProgress : List String) (walk : List Scan.Reference) : Prop :=
  ∃ before last, walk = before ++ [last] ∧ (names before).Nodup ∧
    (∀ name ∈ names before, name ∉ inProgress) ∧
    (last.identifier ∈ names before ∨ last.identifier ∈ inProgress)

/-- Which of two walks comes first: they part at two references of one text. -/
inductive Precedes (around : Surroundings) :
    String → List Scan.Reference → List Scan.Reference → Prop
  | here {text : String} {r r' : Scan.Reference} {walk walk' : List Scan.Reference} :
      [r, r'].Sublist (blockReferences around text) → Precedes around text (r :: walk) (r' :: walk')
  | inside {text content : String} {r : Scan.Reference} {walk walk' : List Scan.Reference} :
      around.blocks.read r.identifier = some (.ok content) → Precedes around content walk walk' →
      Precedes around text (r :: walk) (r :: walk')

theorem isWalk_cons_iff :
    IsWalk around text (r :: walk) ↔ r ∈ blockReferences around text ∧
      (walk = [] ∨ ∃ content, around.blocks.read r.identifier = some (.ok content) ∧
        IsWalk around content walk) := by
  constructor
  · intro h
    cases h with
    | single hr => exact ⟨hr, Or.inl rfl⟩
    | cons hr hread hwalk => exact ⟨hr, Or.inr ⟨_, hread, hwalk⟩⟩
  · rintro ⟨hr, rfl | ⟨content, hread, hwalk⟩⟩
    · exact .single hr
    · exact .cons hr hread hwalk

theorem IsWalk.ne_nil (h : IsWalk around text walk) : walk ≠ [] := by
  cases h <;> exact List.cons_ne_nil _ _

theorem closes_singleton : Closes inProgress [r] ↔ r.identifier ∈ inProgress := by
  constructor
  · rintro ⟨before, last, hwalk, -, -, hlast⟩
    obtain ⟨rfl, hr⟩ := List.append_eq_singleton_iff.1 hwalk.symm |>.resolve_right (by simp)
    cases hr
    exact hlast.resolve_left (by simp [names])
  · intro h
    exact ⟨[], r, rfl, by simp [names], by simp [names], Or.inr h⟩

theorem closes_cons (hwalk : walk ≠ []) :
    Closes inProgress (r :: walk) ↔
      r.identifier ∉ inProgress ∧ Closes (r.identifier :: inProgress) walk := by
  constructor
  · rintro ⟨before, last, heq, hnodup, hfree, hlast⟩
    cases before with
    | nil => exact absurd (List.cons.inj heq).2 hwalk
    | cons r' before =>
      obtain ⟨rfl, rfl⟩ := List.cons.inj heq
      obtain ⟨hnew, hnodup⟩ : r.identifier ∉ names before ∧ (names before).Nodup :=
        List.nodup_cons.1 hnodup
      obtain ⟨hr, hfree⟩ := List.forall_mem_cons.1 hfree
      refine ⟨hr, before, last, rfl, hnodup, fun name hname => ?_, ?_⟩
      · rw [List.mem_cons, not_or]
        exact ⟨fun heq => hnew (heq ▸ hname), hfree name hname⟩
      · simp only [names, List.map_cons, List.mem_cons] at hlast ⊢
        tauto
  · rintro ⟨hr, before, last, rfl, hnodup, hfree, hlast⟩
    simp only [List.mem_cons, not_or] at hfree hlast
    refine ⟨r :: before, last, rfl, ?_, ?_, ?_⟩
    · exact List.nodup_cons.2 ⟨fun hmem => (hfree _ hmem).1 rfl, hnodup⟩
    · exact List.forall_mem_cons.2 ⟨hr, fun name hname => (hfree name hname).2⟩
    · simp only [names, List.map_cons, List.mem_cons] at hlast ⊢
      tauto

/-! ## The order of walks -/

theorem nodup_blockReferences (around : Surroundings) (text : String) :
    (blockReferences around text).Nodup := by
  unfold blockReferences references
  cases hparse : Json.parse text with
  | error reason => exact List.nodup_nil
  | ok document =>
    have hlocations := Scan.nodup_locations around.naming around.key (Json.distinctKeys_of_parse hparse)
    exact hlocations.of_map.filter _

theorem Precedes.ne {walk walk' : List Scan.Reference} (h : Precedes around text walk walk') :
    walk ≠ walk' := by
  induction h with
  | @here text r r' walk walk' hsub =>
    intro heq
    have hpair : [r, r'].Nodup := (nodup_blockReferences around text).sublist hsub
    exact (List.nodup_cons.1 hpair).1 (List.mem_singleton.2 (List.cons.inj heq).1)
  | inside _ _ ih => exact fun heq => ih (List.cons.inj heq).2

/-! ## Walks and what they reach -/

theorem reaches_of_isWalk (h : IsWalk around text walk) (hr : r ∈ walk) :
    Reaches around [] text r.identifier := by
  induction h with
  | single hmem =>
    rw [List.mem_singleton.1 hr]
    exact ⟨_, ⟨_, hmem, rfl⟩, .refl⟩
  | @cons text content first walk hmem hread _ ih =>
    rcases List.mem_cons.1 hr with rfl | hr
    · exact ⟨_, ⟨_, hmem, rfl⟩, .refl⟩
    · obtain ⟨second, hsecond, hrest⟩ := ih hr
      exact ⟨first.identifier, ⟨first, hmem, rfl⟩,
        .head ⟨List.not_mem_nil, content, hread, hsecond⟩ hrest⟩

theorem exists_isWalk_of_reaches (h : Reaches around [] text name) :
    ∃ before last, IsWalk around text (before ++ [last]) ∧ last.identifier = name := by
  obtain ⟨first, hfirst, hrest⟩ := h
  induction hrest using ReflTransGen.head_induction_on generalizing text with
  | refl =>
    obtain ⟨r, hr, rfl⟩ := hfirst
    exact ⟨[], r, .single hr, rfl⟩
  | head hstep _ ih =>
    obtain ⟨-, content, hread, hsecond⟩ := hstep
    obtain ⟨r, hr, rfl⟩ := hfirst
    obtain ⟨before, last, hwalk, hlast⟩ := ih hsecond
    exact ⟨r :: before, last, .cons hr hread hwalk, hlast⟩

theorem IsWalk.append {before : List Scan.Reference} (h : IsWalk around text (before ++ [last]))
    (hread : around.blocks.read last.identifier = some (.ok content))
    (hwalk : IsWalk around content walk) : IsWalk around text (before ++ last :: walk) := by
  induction before generalizing text with
  | nil => exact .cons (isWalk_cons_iff.1 h).1 hread hwalk
  | cons r before ih =>
    obtain ⟨hr, hnil | ⟨inner, hinner, hrest⟩⟩ := isWalk_cons_iff.1 h
    · simp at hnil
    · exact .cons hr hinner (ih hrest)

def OnCycle (around : Surroundings) (name : String) : Prop :=
  TransGen (Expands around []) name name

theorem transGen_of_isWalk_cons (h : IsWalk around text (r :: walk)) (hlast : last ∈ walk) :
    TransGen (Expands around []) r.identifier last.identifier := by
  obtain ⟨-, rfl | ⟨content, hread, hwalk⟩⟩ := isWalk_cons_iff.1 h
  · cases hlast
  · obtain ⟨first, hfirst, hrest⟩ := reaches_of_isWalk hwalk hlast
    exact .head' ⟨List.not_mem_nil, content, hread, hfirst⟩ hrest

theorem IsWalk.drop {before : List Scan.Reference} (h : IsWalk around text (before ++ walk))
    (hwalk : walk ≠ []) : ∃ content, IsWalk around content walk := by
  induction before generalizing text with
  | nil => exact ⟨text, h⟩
  | cons r before ih =>
    obtain ⟨-, hnil | ⟨content, -, hrest⟩⟩ := isWalk_cons_iff.1 h
    · exact absurd (List.append_eq_nil_iff.1 hnil).2 hwalk
    · exact ih hrest

/-! ## When a walk closes -/

/-- A walk that meets a block twice, or one in progress, closes there for the first time. -/
theorem exists_closes_of_isWalk (h : IsWalk around text walk)
    (hmeets : ¬(names walk).Nodup ∨ ∃ name ∈ names walk, name ∈ inProgress) :
    ∃ start, IsWalk around text start ∧ Closes inProgress start := by
  induction h generalizing inProgress with
  | @single text r hr =>
    refine ⟨[r], .single hr, closes_singleton.2 ?_⟩
    simpa [names] using hmeets
  | @cons text content r walk hr hread hwalk ih =>
    by_cases hfree : r.identifier ∈ inProgress
    · exact ⟨[r], .single hr, closes_singleton.2 hfree⟩
    have hrest : ¬(names walk).Nodup ∨ ∃ name ∈ names walk, name ∈ r.identifier :: inProgress := by
      simp only [names, List.map_cons, List.nodup_cons, List.mem_cons] at hmeets ⊢
      rcases hmeets with htwice | ⟨name, rfl | hname, hprogress⟩
      · by_cases hmem : r.identifier ∈ walk.map (·.identifier)
        · exact Or.inr ⟨_, hmem, Or.inl rfl⟩
        · exact Or.inl fun hnodup => htwice ⟨hmem, hnodup⟩
      · exact absurd hprogress hfree
      · exact Or.inr ⟨name, hname, Or.inr hprogress⟩
    obtain ⟨start, hstart, hcloses⟩ := ih hrest
    exact ⟨r :: start, .cons hr hread hstart, (closes_cons hstart.ne_nil).2 ⟨hfree, hcloses⟩⟩

theorem exists_closes_iff :
    (∃ walk, IsWalk around text walk ∧ Closes inProgress walk) ↔
      ∃ name, Reaches around [] text name ∧ (name ∈ inProgress ∨ OnCycle around name) := by
  constructor
  · rintro ⟨_, hwalk, before, last, rfl, -, -, hlast⟩
    refine ⟨last.identifier, reaches_of_isWalk hwalk (by simp), hlast.symm.imp_right fun hmem => ?_⟩
    obtain ⟨r, hr, heq⟩ := List.mem_map.1 hmem
    obtain ⟨front, back, rfl⟩ := List.append_of_mem hr
    rw [List.append_assoc, List.cons_append] at hwalk
    obtain ⟨content, hcycle⟩ := hwalk.drop (List.cons_ne_nil _ _)
    rw [OnCycle]
    nth_rewrite 1 [← heq]
    exact transGen_of_isWalk_cons hcycle (by simp)
  · rintro ⟨name, hreach, hname⟩
    obtain ⟨before, last, hwalk, rfl⟩ := exists_isWalk_of_reaches hreach
    rcases hname with hprogress | hcycle
    · exact exists_closes_of_isWalk hwalk (Or.inr ⟨last.identifier, by simp [names], hprogress⟩)
    · -- Going on from the last block leads back to it, so the longer walk meets it twice.
      obtain ⟨first, ⟨-, content, hread, hfirst⟩, hrest⟩ := TransGen.head'_iff.1 hcycle
      obtain ⟨before', last', hround, heq⟩ := exists_isWalk_of_reaches ⟨first, hfirst, hrest⟩
      refine exists_closes_of_isWalk (hwalk.append hread hround) (Or.inl fun hnodup => ?_)
      simp [names, List.nodup_append, heq] at hnodup

end BlockCheck.Document
