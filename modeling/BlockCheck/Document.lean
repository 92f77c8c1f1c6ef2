import BlockCheck.BlockStore
import BlockCheck.Json.Parser
import BlockCheck.Scan
import BlockCheck.Validation

/-!
# Checking a document

Every reference of a document is checked: one to a component against the component's props, one
to a saved block by checking the block's own document in its place. The blocks that are being
expanded are kept, so that a block that comes back to itself is reported and not expanded again.
-/

namespace BlockCheck

/-- What a document is checked against. -/
structure Surroundings where
  naming : Naming
  key : String
  mode : Mode
  locate : String → Option String
  /-- The props that a source file describes. -/
  props : String → Option Schema
  blocks : BlockStore

/-- The issues at one reference. In an expanded block its path starts with the way to the block. -/
structure Report where
  file : String
  path : String
  identifier : String
  issues : List Issue

structure Unresolved where
  file : String
  path : String
  identifier : String

/-- What came of checking a document and the blocks that it pulls in. -/
structure Outcome where
  reports : List Report
  unresolved : List Unresolved
  usedBlocks : List String
  /-- The source files whose props were asked for. -/
  sources : List String

/-- The path of something inside a block, as seen from the document that refers to the block. -/
def chainPath (outer inner : String) : String :=
  if inner.isEmpty then outer else outer ++ " -> " ++ inner

namespace Report

def inside (outer : String) (report : Report) : Report :=
  { report with path := chainPath outer report.path }

def errors (report : Report) : List Issue := report.issues.filter Issue.isError

def warnings (report : Report) : List Issue := report.issues.filter Issue.isWarning

end Report

namespace Outcome

def empty : Outcome := ⟨[], [], [], []⟩

def append (a b : Outcome) : Outcome where
  reports := a.reports ++ b.reports
  unresolved := a.unresolved ++ b.unresolved
  usedBlocks := a.usedBlocks ++ b.usedBlocks
  sources := a.sources ++ b.sources

instance : Append Outcome := ⟨append⟩

def concat (outcomes : List Outcome) : Outcome := outcomes.foldr append empty

def inside (outer : String) (outcome : Outcome) : Outcome where
  reports := outcome.reports.map (Report.inside outer)
  unresolved := outcome.unresolved.map fun u => { u with path := chainPath outer u.path }
  usedBlocks := outcome.usedBlocks
  sources := outcome.sources

def ofProblem (file path identifier : String) (problem : Problem) : Outcome :=
  { empty with reports := [⟨file, path, identifier, [⟨"", problem⟩]⟩] }

def ofUse (name : String) : Outcome := { empty with usedBlocks := [name] }

def errorCount (outcome : Outcome) : Nat := (outcome.reports.flatMap Report.errors).length

def warningCount (outcome : Outcome) : Nat := (outcome.reports.flatMap Report.warnings).length

@[simp] theorem reports_append (a b : Outcome) : (a ++ b).reports = a.reports ++ b.reports := rfl

@[simp] theorem usedBlocks_append (a b : Outcome) :
    (a ++ b).usedBlocks = a.usedBlocks ++ b.usedBlocks := rfl

@[simp] theorem reports_concat (outcomes : List Outcome) :
    (concat outcomes).reports = outcomes.flatMap (·.reports) := by
  induction outcomes with
  | nil => rfl
  | cons o rest ih => exact congrArg (o.reports ++ ·) ih

@[simp] theorem unresolved_concat (outcomes : List Outcome) :
    (concat outcomes).unresolved = outcomes.flatMap (·.unresolved) := by
  induction outcomes with
  | nil => rfl
  | cons o rest ih => exact congrArg (o.unresolved ++ ·) ih

@[simp] theorem usedBlocks_concat (outcomes : List Outcome) :
    (concat outcomes).usedBlocks = outcomes.flatMap (·.usedBlocks) := by
  induction outcomes with
  | nil => rfl
  | cons o rest ih => exact congrArg (o.usedBlocks ++ ·) ih

@[simp] theorem reports_inside (outer : String) (outcome : Outcome) :
    (outcome.inside outer).reports = outcome.reports.map (Report.inside outer) := rfl

@[simp] theorem usedBlocks_inside (outer : String) (outcome : Outcome) :
    (outcome.inside outer).usedBlocks = outcome.usedBlocks := rfl

@[simp] theorem reports_ofUse (name : String) : (ofUse name).reports = [] := rfl

@[simp] theorem usedBlocks_ofUse (name : String) : (ofUse name).usedBlocks = [name] := rfl

@[simp] theorem reports_ofProblem (file path identifier : String) (problem : Problem) :
    (ofProblem file path identifier problem).reports =
      [⟨file, path, identifier, [⟨"", problem⟩]⟩] := rfl

@[simp] theorem usedBlocks_ofProblem (file path identifier : String) (problem : Problem) :
    (ofProblem file path identifier problem).usedBlocks = [] := rfl

end Outcome

namespace Document

def checkComponent (around : Surroundings) (file : String) (r : Scan.Reference) : Outcome :=
  let path := r.location.text
  match around.locate r.identifier with
  | none =>
    { Outcome.ofProblem file path r.identifier (.componentNotFound r.identifier) with
      unresolved := [⟨file, path, r.identifier⟩] }
  | some source =>
    match around.props source with
    | none =>
      { Outcome.ofProblem file path r.identifier .propsNotFound with sources := [source] }
    | some s =>
      let issues := s.validate around.mode "" (some (.object r.properties))
      { Outcome.empty with
        reports := if issues.isEmpty then [] else [⟨file, path, r.identifier, issues⟩]
        sources := [source] }

/-- A block stands in its place; whatever else its object holds is reported. -/
def checkProperties (file : String) (r : Scan.Reference) : Outcome :=
  if r.properties.isEmpty then .empty
  else .ofProblem file r.location.text r.identifier (.blockWithProperties (Record.keys r.properties))

@[simp] theorem usedBlocks_checkComponent (around : Surroundings) (file : String)
    (r : Scan.Reference) : (checkComponent around file r).usedBlocks = [] := by
  unfold checkComponent
  repeat' split
  all_goals rfl

@[simp] theorem usedBlocks_checkProperties (file : String) (r : Scan.Reference) :
    (checkProperties file r).usedBlocks = [] := by
  unfold checkProperties
  split <;> rfl

/-- The names of the blocks that can still be expanded. -/
def expandable (around : Surroundings) (inProgress : List String) : List String :=
  around.blocks.names.filter (fun n => !inProgress.contains n)

theorem length_filter_lt {p q : α → Bool} {l : List α} (h : ∀ a, p a → q a) {x : α} (hx : x ∈ l)
    (hp : p x = false) (hq : q x = true) : (l.filter p).length < (l.filter q).length := by
  induction l with
  | nil => simp at hx
  | cons a rest ih =>
    have hle : (rest.filter p).length ≤ (rest.filter q).length := by
      rw [← List.countP_eq_length_filter, ← List.countP_eq_length_filter]
      exact List.countP_mono_left fun a _ => h a
    rcases List.mem_cons.1 hx with rfl | hmem
    · rw [List.filter_cons_of_neg (by simp [hp]), List.filter_cons_of_pos hq]
      exact Nat.lt_succ_of_le hle
    · have := ih hmem
      by_cases ha : p a
      · rw [List.filter_cons_of_pos ha, List.filter_cons_of_pos (h a ha)]
        exact Nat.succ_lt_succ this
      · rw [List.filter_cons_of_neg ha]
        exact Nat.lt_of_lt_of_le this ((List.sublist_cons_self a rest).filter q).length_le

/-- Expanding a block leaves fewer blocks to expand. -/
theorem length_expandable_lt {around : Surroundings} {inProgress : List String} {name : String}
    (hfree : ¬inProgress.contains name = true) (hknown : name ∈ around.blocks.names) :
    (expandable around (name :: inProgress)).length < (expandable around inProgress).length := by
  refine length_filter_lt (fun n hn => ?_) hknown (by simp) (by simpa using hfree)
  simp only [List.contains_cons, Bool.not_or, Bool.and_eq_true] at hn
  exact hn.2

mutual

/-- Checks the document that `text` writes; `inProgress` are the blocks that are being expanded
around it. -/
def check (around : Surroundings) (file : String) (inProgress : List String) (text : String) :
    Outcome :=
  match Json.parse text with
  | .error reason => .ofProblem file "" "" (.unreadable reason)
  | .ok document =>
    .concat <| (Scan.references around.naming around.key document).map fun r =>
      match r.kind with
      | .savedBlock => checkBlock around file inProgress r
      | _ => checkComponent around file r
termination_by ((expandable around inProgress).length, 1)

/-- A reference to a saved block, whose own document is checked in its place. -/
def checkBlock (around : Surroundings) (file : String) (inProgress : List String)
    (r : Scan.Reference) : Outcome :=
  let name := r.identifier
  let problem := Outcome.ofProblem file r.location.text name
  let used := Outcome.ofUse name
  if _hfree : inProgress.contains name = true then used ++ problem (.circular name)
  else
    let before := used ++ checkProperties file r
    match _hread : around.blocks.read name with
    | none => before ++ problem (.blockNotFound name)
    | some (.error fault) => before ++ problem (.unreadable fault.message)
    | some (.ok content) =>
      before ++ (check around file (name :: inProgress) content).inside r.location.text
termination_by ((expandable around inProgress).length, 0)
decreasing_by
  exact Prod.Lex.left _ _ (length_expandable_lt _hfree (BlockStore.mem_names_of_read _hread))

end

/-! ## A block, case by case -/

section Block

variable (around : Surroundings) {inProgress : List String} {r : Scan.Reference} {content : String}

theorem checkBlock_of_mem (file : String) (hprogress : r.identifier ∈ inProgress) :
    checkBlock around file inProgress r = .ofUse r.identifier ++
      .ofProblem file r.location.text r.identifier (.circular r.identifier) := by
  rw [checkBlock, dif_pos (List.contains_iff_mem.2 hprogress)]

theorem checkBlock_of_none (file : String) (hfree : r.identifier ∉ inProgress)
    (hread : around.blocks.read r.identifier = none) :
    checkBlock around file inProgress r =
      .ofUse r.identifier ++ checkProperties file r ++
        .ofProblem file r.location.text r.identifier (.blockNotFound r.identifier) := by
  rw [checkBlock, dif_neg (mt List.contains_iff_mem.1 hfree)]
  split <;> simp_all

theorem checkBlock_of_error {fault : ReadFault} (file : String) (hfree : r.identifier ∉ inProgress)
    (hread : around.blocks.read r.identifier = some (.error fault)) :
    checkBlock around file inProgress r =
      .ofUse r.identifier ++ checkProperties file r ++
        .ofProblem file r.location.text r.identifier (.unreadable fault.message) := by
  rw [checkBlock, dif_neg (mt List.contains_iff_mem.1 hfree)]
  split <;> simp_all

theorem checkBlock_of_ok (file : String) (hfree : r.identifier ∉ inProgress)
    (hread : around.blocks.read r.identifier = some (.ok content)) :
    checkBlock around file inProgress r =
      .ofUse r.identifier ++ checkProperties file r ++
        (check around file (r.identifier :: inProgress) content).inside r.location.text := by
  rw [checkBlock, dif_neg (mt List.contains_iff_mem.1 hfree)]
  split <;> simp_all

end Block

/-- What holds of a text whenever it holds of every block that the text may expand, holds of every
text: expanding ends. -/
theorem expanding_induction (around : Surroundings) {motive : List String → String → Prop}
    (step : ∀ inProgress text,
      (∀ name content, name ∉ inProgress → around.blocks.read name = some (.ok content) →
        motive (name :: inProgress) content) → motive inProgress text) :
    ∀ inProgress text, motive inProgress text := by
  intro inProgress
  induction hn : (expandable around inProgress).length using Nat.strongRecOn
    generalizing inProgress with
  | _ n ih =>
    intro text
    refine step inProgress text fun name content hfree hread => ?_
    have hlt : (expandable around (name :: inProgress)).length < (expandable around inProgress).length :=
      length_expandable_lt (by simpa using hfree) (BlockStore.mem_names_of_read hread)
    exact ih _ (hn ▸ hlt) _ rfl content

end Document

end BlockCheck
