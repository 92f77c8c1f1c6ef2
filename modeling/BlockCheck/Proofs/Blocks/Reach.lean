import BlockCheck.Document
import Mathlib.Logic.Relation

/-!
# The blocks that a document reaches

A document uses the blocks that it refers to and, where these are not in progress already, the
blocks that their documents refer to, and so on. Expanding keeps a block from being expanded inside
itself. Nothing is lost by it: whatever is reached through a block is also reached by a way that
never comes back to that block.
-/

namespace BlockCheck.Document

open Relation

variable {around : Surroundings} {file text content name : String} {inProgress : List String}

/-- The references of a text, in its order. A text that is not JSON has none. -/
def references (around : Surroundings) (text : String) : List Scan.Reference :=
  match Json.parse text with
  | .error _ => []
  | .ok document => Scan.references around.naming around.key document

def blockReferences (around : Surroundings) (text : String) : List Scan.Reference :=
  (references around text).filter (·.kind = .savedBlock)

def Mentions (around : Surroundings) (text name : String) : Prop :=
  ∃ r ∈ blockReferences around text, r.identifier = name

/-- The block `a` is not in progress, can be read, and mentions the block `b`. -/
def Expands (around : Surroundings) (inProgress : List String) (a b : String) : Prop :=
  a ∉ inProgress ∧ ∃ content, around.blocks.read a = some (.ok content) ∧ Mentions around content b

/-- A walk over blocks from the text, which goes on behind no block in progress. -/
def Reaches (around : Surroundings) (inProgress : List String) (text name : String) : Prop :=
  ∃ first, Mentions around text first ∧ ReflTransGen (Expands around inProgress) first name

/-! ## What checking comes to -/

def checkReference (around : Surroundings) (file : String) (inProgress : List String)
    (r : Scan.Reference) : Outcome :=
  if r.kind = .savedBlock then checkBlock around file inProgress r else checkComponent around file r

theorem check_eq_concat (around : Surroundings) (file : String) (inProgress : List String)
    (text : String) :
    check around file inProgress text = match Json.parse text with
      | .error reason => .ofProblem file "" "" (.unreadable reason)
      | .ok _ => .concat ((references around text).map (checkReference around file inProgress)) := by
  rw [check, references]
  cases Json.parse text with
  | error reason => rfl
  | ok document =>
    refine congrArg Outcome.concat (List.map_congr_left fun r _ => ?_)
    unfold checkReference
    cases r.kind <;> rfl

theorem flatMap_checkReference {α : Type} {f : Outcome → List α}
    (h : ∀ r, f (checkComponent around file r) = []) :
    (references around text).flatMap (fun r => f (checkReference around file inProgress r)) =
      (blockReferences around text).flatMap fun r => f (checkBlock around file inProgress r) := by
  unfold blockReferences
  induction references around text with
  | nil => rfl
  | cons r rest ih =>
    rw [List.flatMap_cons, ih, checkReference]
    by_cases hkind : r.kind = .savedBlock
    · rw [if_pos hkind, List.filter_cons_of_pos (by simpa using hkind), List.flatMap_cons]
    · rw [if_neg hkind, List.filter_cons_of_neg (by simpa using hkind), h, List.nil_append]

theorem usedBlocks_checkBlock (around : Surroundings) (file : String) (inProgress : List String)
    (r : Scan.Reference) :
    (checkBlock around file inProgress r).usedBlocks = r.identifier ::
      if r.identifier ∈ inProgress then []
      else match around.blocks.read r.identifier with
        | some (.ok content) => (check around file (r.identifier :: inProgress) content).usedBlocks
        | _ => [] := by
  by_cases hfree : r.identifier ∈ inProgress
  · simp [checkBlock_of_mem around file hfree, hfree]
  · rcases hread : around.blocks.read r.identifier with _ | fault | content
    · simp [checkBlock_of_none around file hfree hread, hfree]
    · simp [checkBlock_of_error around file hfree hread, hfree]
    · simp [checkBlock_of_ok around file hfree hread, hfree]

theorem usedBlocks_check (around : Surroundings) (file : String) (inProgress : List String)
    (text : String) :
    (check around file inProgress text).usedBlocks =
      (blockReferences around text).flatMap fun r =>
        (checkBlock around file inProgress r).usedBlocks := by
  rw [check_eq_concat]
  cases hparse : Json.parse text with
  | error reason => simp [blockReferences, references, hparse]
  | ok document =>
    rw [Outcome.usedBlocks_concat, List.flatMap_map]
    exact flatMap_checkReference (usedBlocks_checkComponent around file)

theorem mem_usedBlocks_check :
    name ∈ (check around file inProgress text).usedBlocks ↔
      ∃ first, Mentions around text first ∧ (name = first ∨ first ∉ inProgress ∧
        ∃ content, around.blocks.read first = some (.ok content) ∧
          name ∈ (check around file (first :: inProgress) content).usedBlocks) := by
  rw [usedBlocks_check, List.mem_flatMap]
  constructor
  · rintro ⟨r, hr, hname⟩
    refine ⟨r.identifier, ⟨r, hr, rfl⟩, ?_⟩
    rw [usedBlocks_checkBlock, List.mem_cons] at hname
    refine hname.imp_right fun hname => ?_
    split at hname
    · cases hname
    · rename_i hfree
      split at hname
      · exact ⟨hfree, _, ‹_›, hname⟩
      · cases hname
  · rintro ⟨_, ⟨r, hr, rfl⟩, hname⟩
    refine ⟨r, hr, ?_⟩
    rw [usedBlocks_checkBlock, List.mem_cons]
    refine hname.imp_right ?_
    rintro ⟨hfree, content, hread, hname⟩
    rwa [if_neg hfree, hread]

/-! ## Walks that do not come back -/

/-- A walk away from `a` can be cut so that it leaves `a` only once. -/
theorem exists_last_exit {α : Type} {step : α → α → Prop} {a b : α} (h : ReflTransGen step a b)
    (hne : a ≠ b) : ∃ c, step a c ∧ ReflTransGen (fun x y => x ≠ a ∧ step x y) c b := by
  -- Either the way from `x` avoids `a`, or it has a last exit from `a`.
  have key : ∀ x, ReflTransGen step x b →
      ReflTransGen (fun x y => x ≠ a ∧ step x y) x b ∨
        ∃ c, step a c ∧ ReflTransGen (fun x y => x ≠ a ∧ step x y) c b := by
    intro x hx
    induction hx using ReflTransGen.head_induction_on with
    | refl => exact Or.inl .refl
    | @head x y hstep _ ih =>
      rcases ih with hfree | hexit
      · by_cases hxa : x = a
        · exact Or.inr ⟨y, hxa ▸ hstep, hfree⟩
        · exact Or.inl (.head ⟨hxa, hstep⟩ hfree)
      · exact Or.inr hexit
  rcases key a h with hfree | hexit
  · rcases hfree.cases_head with heq | ⟨c, hstep, -⟩
    · exact absurd heq hne
    · exact absurd rfl hstep.1
  · exact hexit

theorem expands_cons_iff {a b : String} :
    Expands around (name :: inProgress) a b ↔ a ≠ name ∧ Expands around inProgress a b := by
  simp only [Expands, List.mem_cons, not_or, and_assoc]

/-- Behind its first block a walk need not come back to it. -/
theorem reaches_iff :
    Reaches around inProgress text name ↔
      ∃ first, Mentions around text first ∧ (name = first ∨ first ∉ inProgress ∧
        ∃ content, around.blocks.read first = some (.ok content) ∧
          Reaches around (first :: inProgress) content name) := by
  constructor
  · rintro ⟨first, hfirst, hwalk⟩
    refine ⟨first, hfirst, ?_⟩
    by_cases hne : first = name
    · exact Or.inl hne.symm
    -- The rest of the walk avoids `first`, so it is a walk while `first` is in progress.
    obtain ⟨second, ⟨hfree, content, hread, hsecond⟩, hrest⟩ := exists_last_exit hwalk hne
    refine Or.inr ⟨hfree, content, hread, second, hsecond, ?_⟩
    exact ReflTransGen.mono (fun a b h => expands_cons_iff.2 h) _ _ hrest
  · rintro ⟨first, hfirst, rfl | ⟨hfree, content, hread, second, hsecond, hrest⟩⟩
    · exact ⟨name, hfirst, .refl⟩
    · refine ⟨first, hfirst, .head ⟨hfree, content, hread, hsecond⟩ ?_⟩
      exact ReflTransGen.mono (fun a b h => (expands_cons_iff.1 h).2) _ _ hrest

/-- The texts that are looked through: the text itself and those of the blocks that it reaches and
that are not in progress. -/
def Visits (around : Surroundings) (inProgress : List String) (text content : String) : Prop :=
  content = text ∨ ∃ name, Reaches around inProgress text name ∧ name ∉ inProgress ∧
    around.blocks.read name = some (.ok content)

theorem visits_iff :
    Visits around inProgress text content ↔
      content = text ∨ ∃ first, Mentions around text first ∧ first ∉ inProgress ∧
        ∃ inner, around.blocks.read first = some (.ok inner) ∧
          Visits around (first :: inProgress) inner content := by
  refine or_congr_right ?_
  constructor
  · rintro ⟨name, hreach, hfree, hread⟩
    obtain ⟨first, hfirst, rfl | ⟨hfirstFree, inner, hinner, hrest⟩⟩ := reaches_iff.1 hreach
    · exact ⟨name, hfirst, hfree, content, hread, Or.inl rfl⟩
    refine ⟨first, hfirst, hfirstFree, inner, hinner, ?_⟩
    by_cases hne : name = first
    · subst hne
      cases hread.symm.trans hinner
      exact Or.inl rfl
    · exact Or.inr ⟨name, hrest, List.not_mem_cons_of_ne_of_not_mem hne hfree, hread⟩
  · rintro ⟨first, hfirst, hfree, inner, hinner, rfl | ⟨name, hrest, hnew, hread⟩⟩
    · exact ⟨first, ⟨first, hfirst, .refl⟩, hfree, hinner⟩
    · refine ⟨name, ?_, fun hmem => hnew (List.mem_cons_of_mem _ hmem), hread⟩
      exact reaches_iff.2 ⟨first, hfirst, Or.inr ⟨hfree, inner, hinner, hrest⟩⟩

theorem forall_visits_iff {P : String → Prop} :
    (∀ content, Visits around inProgress text content → P content) ↔
      P text ∧ ∀ r ∈ references around text, r.kind = .savedBlock → r.identifier ∉ inProgress →
        ∀ inner, around.blocks.read r.identifier = some (.ok inner) →
          ∀ content, Visits around (r.identifier :: inProgress) inner content → P content := by
  constructor
  · intro h
    refine ⟨h text (visits_iff.2 (Or.inl rfl)), ?_⟩
    intro r hr hkind hfree inner hread content hvisits
    have hmentions : Mentions around text r.identifier :=
      ⟨r, List.mem_filter.2 ⟨hr, by simpa using hkind⟩, rfl⟩
    exact h content (visits_iff.2 (Or.inr ⟨_, hmentions, hfree, inner, hread, hvisits⟩))
  · rintro ⟨htext, hinner⟩ content hvisits
    obtain rfl | ⟨_, ⟨r, hr, rfl⟩, hfree, inner, hread, hvisits⟩ := visits_iff.1 hvisits
    · exact htext
    · obtain ⟨hr, hkind⟩ := List.mem_filter.1 hr
      exact hinner r hr (by simpa using hkind) hfree inner hread content hvisits

end BlockCheck.Document
