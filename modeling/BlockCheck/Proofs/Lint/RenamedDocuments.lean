import BlockCheck.Proofs.Lint.UnusedProperties
import BlockCheck.Proofs.Schema.Deferred

/-!
# Documents with a renamed discriminator

A document whose discriminator is renamed, together with those of all blocks, is checked as before: it
has the same references, and what was reported of them is reported again. More is reported if and only
if a reference was let pass that stands in place of a list.
-/

namespace BlockCheck

/-- The second text holds what the first one holds, with another key for the discriminator. That key is
not used in the first text. -/
def RenamedText (new text text' : String) : Prop :=
  ∃ value, Json.parse text = .ok value ∧ ¬value.HasKey new ∧
    Json.parse text' = .ok (value.renameKeys discriminator new)

namespace Outcome

/-- The second outcome has the failures of the first one, and it reports nothing else if and only if
`P`. In all but the reports the two are the same. -/
structure GrowsUnless (before after : Outcome) (P : Prop) : Prop where
  unresolved : after.unresolved = before.unresolved
  usedBlocks : after.usedBlocks = before.usedBlocks
  failures : WholeIff before.failures after.failures P
  reports : P → after.reports = before.reports

namespace GrowsUnless

variable {before after : Outcome} {P Q : Prop}

theorem of_true (outcome : Outcome) (h : P) : GrowsUnless outcome outcome P :=
  ⟨rfl, rfl, .of_true _ h, fun _ => rfl⟩

theorem congr (h : GrowsUnless before after P) (hiff : P ↔ Q) : GrowsUnless before after Q :=
  ⟨h.unresolved, h.usedBlocks, h.failures.congr hiff, fun hq => h.reports (hiff.2 hq)⟩

theorem reports_eq_iff (h : GrowsUnless before after P) : after.reports = before.reports ↔ P := by
  refine ⟨fun heq => h.failures.eq_iff.1 ?_, h.reports⟩
  rw [Outcome.failures, Outcome.failures, heq]

theorem append_left (first : Outcome) (h : GrowsUnless before after P) :
    GrowsUnless (first ++ before) (first ++ after) P where
  unresolved := congrArg (first.unresolved ++ ·) h.unresolved
  usedBlocks := congrArg (first.usedBlocks ++ ·) h.usedBlocks
  failures := by
    rw [failures_append, failures_append]
    exact h.failures.append_left _
  reports hP := congrArg (first.reports ++ ·) (h.reports hP)

theorem inside (outer : String) (h : GrowsUnless before after P) :
    GrowsUnless (before.inside outer) (after.inside outer) P where
  unresolved := congrArg (List.map _) h.unresolved
  usedBlocks := h.usedBlocks
  failures := by
    rw [failures_inside, failures_inside]
    exact h.failures.map _
  reports hP := congrArg (List.map _) (h.reports hP)

theorem concat_map {α : Type} {l : List α} {f g : α → Outcome} {P : α → Prop}
    (h : ∀ a ∈ l, GrowsUnless (f a) (g a) (P a)) :
    GrowsUnless (concat (l.map f)) (concat (l.map g)) (∀ a ∈ l, P a) where
  unresolved := by
    rw [unresolved_concat, unresolved_concat, List.flatMap_map, List.flatMap_map]
    exact List.flatMap_congr fun a ha => (h a ha).unresolved
  usedBlocks := by
    rw [usedBlocks_concat, usedBlocks_concat, List.flatMap_map, List.flatMap_map]
    exact List.flatMap_congr fun a ha => (h a ha).usedBlocks
  failures := by
    rw [failures_concat, failures_concat, List.flatMap_map, List.flatMap_map]
    exact .flatMap fun a ha => (h a ha).failures
  reports hP := by
    rw [reports_concat, reports_concat, List.flatMap_map, List.flatMap_map]
    exact List.flatMap_congr fun a ha => (h a ha).reports (hP a ha)

end GrowsUnless

end Outcome

namespace Document

/-- What a text becomes in surroundings that go by another key. The props of the components that it refers
to stay the same, and name neither key. -/
structure RenamedIn (around around' : Surroundings) (text text' : String) : Prop where
  renamed : RenamedText around'.key text text'
  props : ∀ r ∈ references around text, r.kind ≠ .savedBlock → ∀ source,
    around.locate r.identifier = some source → around'.props source = around.props source
  undeclared : ∀ r ∈ references around text, r.kind ≠ .savedBlock → ∀ s ∈ propsOf around r,
    ¬s.Declares discriminator ∧ ¬s.Declares around'.key

structure Renamed (around around' : Surroundings) : Prop where
  key : around.key = discriminator
  reserved : Text.startsWith around'.key reservedStart = true
  naming : around'.naming = around.naming
  mode : around'.mode = around.mode
  locate : around'.locate = around.locate
  blocks : ∀ name, (around.blocks.read name = none ∧ around'.blocks.read name = none) ∨
    ∃ text text', around.blocks.read name = some (.ok text) ∧
      around'.blocks.read name = some (.ok text') ∧ RenamedIn around around' text text'

def DefersIn (around : Surroundings) (text : String) : Prop :=
  ∃ r ∈ references around text, r.kind ≠ .savedBlock ∧
    ∃ s ∈ propsOf around r, s.Defers around.mode (.object r.properties)

variable {around around' : Surroundings} {file text text' : String} {inProgress : List String}
  {r : Scan.Reference}

theorem references_renamed (h : Renamed around around') (htext : RenamedText around'.key text text') :
    references around' text' =
      (references around text).map (Scan.Reference.renameKeys discriminator around'.key) := by
  obtain ⟨value, hparse, hkey, hparse'⟩ := htext
  unfold references
  rw [hparse, hparse', h.naming, h.key]
  exact Scan.references_renameKeys around.naming discriminator hkey

theorem properties_of_mem_references (h : Renamed around around')
    (htext : RenamedText around'.key text text') (hr : r ∈ references around text) :
    discriminator ∉ Record.keys r.properties ∧ ¬Json.HasKey around'.key (.object r.properties) := by
  obtain ⟨value, hparse, hkey, -⟩ := htext
  unfold references at hr
  rw [hparse, h.key] at hr
  exact (Scan.properties_of_mem_references hr).imp_right fun hnew => mt hnew hkey

theorem checkProperties_renameKeys (file new : String)
    (h : discriminator ∉ Record.keys r.properties) :
    checkProperties file (r.renameKeys discriminator new) = checkProperties file r := by
  have hempty : (Json.renameMembers discriminator new r.properties).isEmpty = r.properties.isEmpty := by
    rw [Json.renameMembers_eq, List.isEmpty_map]
  unfold checkProperties Scan.Reference.renameKeys
  dsimp only
  rw [hempty, Json.keys_renameMembers_of_notMem new h]

theorem checkComponent_renamed (h : Renamed around around') (file : String)
    (htext : RenamedIn around around' text text') (hr : r ∈ references around text)
    (hkind : r.kind ≠ .savedBlock) :
    (checkComponent around file r).GrowsUnless
      (checkComponent around' file (r.renameKeys discriminator around'.key))
      (∀ s ∈ propsOf around r, ¬s.Defers around.mode (.object r.properties)) := by
  have hidentifier : (r.renameKeys discriminator around'.key).identifier = r.identifier := rfl
  have hkey := (properties_of_mem_references h htext.renamed hr).2
  -- An identifier is not renamed, so both runs look at the same props, or at none.
  cases hlocate : around.locate r.identifier with
  | none =>
    have hlocate' : around'.locate r.identifier = none := by rw [h.locate, hlocate]
    simp only [checkComponent, hidentifier, hlocate, hlocate', propsOf]
    exact .of_true _ (by rintro _ ⟨⟩)
  | some source =>
    have hlocate' : around'.locate r.identifier = some source := by rw [h.locate, hlocate]
    have hprops' := htext.props r hr hkind source hlocate
    cases hprops : around.props source with
    | none =>
      rw [hprops] at hprops'
      simp only [checkComponent, hidentifier, hlocate, hlocate', hprops, hprops', propsOf,
        Option.bind_some]
      exact .of_true _ (by rintro _ ⟨⟩)
    | some s =>
      rw [hprops] at hprops'
      obtain ⟨hold, hnew⟩ := htext.undeclared r hr hkind s (by simp [propsOf, hlocate, hprops])
      have hvalue : Json.object (r.renameKeys discriminator around'.key).properties =
          (Json.object r.properties).renameKeys discriminator around'.key := by
        rw [Json.renameKeys]
        rfl
      have hissues := Schema.validate_renameKeys h.reserved hold hnew hkey around.mode ""
      have herrors := Schema.errors_validate_renameKeys h.reserved hold hnew hkey around.mode ""
      have hP : (∀ s ∈ propsOf around r, ¬s.Defers around.mode (.object r.properties)) ↔
          ¬s.Defers around.mode (.object r.properties) := by
        simp [propsOf, hlocate, hprops]
      refine .congr ?_ hP.symm
      constructor
      · simp only [checkComponent, hidentifier, hlocate, hlocate', hprops, hprops']
      · simp only [usedBlocks_checkComponent]
      · rw [failures_checkComponent_of_props hlocate hprops,
          failures_checkComponent_of_props (r := r.renameKeys discriminator around'.key) hlocate' hprops',
          h.mode, hvalue]
        exact herrors.map _
      · intro hdefers
        simp only [checkComponent, hidentifier, hlocate, hlocate', hprops, hprops', h.mode, hvalue]
        rw [← hissues.eq_iff.2 hdefers]
        rfl

theorem checkBlock_renamed {P : String → Prop} (h : Renamed around around') (file : String)
    (hproperties : discriminator ∉ Record.keys r.properties)
    (hinner : r.identifier ∉ inProgress → ∀ text text',
      around.blocks.read r.identifier = some (.ok text) → RenamedIn around around' text text' →
        (check around file (r.identifier :: inProgress) text).GrowsUnless
          (check around' file (r.identifier :: inProgress) text') (P text)) :
    (checkBlock around file inProgress r).GrowsUnless
      (checkBlock around' file inProgress (r.renameKeys discriminator around'.key))
      (r.identifier ∉ inProgress → ∀ text,
        around.blocks.read r.identifier = some (.ok text) → P text) := by
  have hidentifier : (r.renameKeys discriminator around'.key).identifier = r.identifier := rfl
  have hlocation : (r.renameKeys discriminator around'.key).location = r.location := rfl
  have hchecked := checkProperties_renameKeys file around'.key hproperties
  by_cases hfree : r.identifier ∈ inProgress
  · rw [checkBlock_of_mem around file hfree,
      checkBlock_of_mem around' file (r := r.renameKeys discriminator around'.key) hfree]
    exact .of_true _ (absurd hfree)
  · rcases h.blocks r.identifier with ⟨hread, hread'⟩ | ⟨text, text', hread, hread', htext⟩
    · rw [checkBlock_of_none around file hfree hread,
        checkBlock_of_none around' file (r := r.renameKeys discriminator around'.key) hfree hread',
        hchecked, hidentifier, hlocation, hread]
      exact .of_true _ (by rintro _ _ ⟨⟩)
    · rw [checkBlock_of_ok around file hfree hread,
        checkBlock_of_ok around' file (r := r.renameKeys discriminator around'.key) hfree hread',
        hchecked, hidentifier, hlocation]
      refine (((hinner hfree text text' hread htext).inside _).append_left _).congr ?_
      simp [hfree, hread]

/-- A renamed document is reported on as before unless it, or a block that it reaches, is given a
reference in place of a list. -/
theorem check_renamed (h : Renamed around around') (file : String) (inProgress : List String)
    (text : String) : ∀ text', RenamedIn around around' text text' →
      (check around file inProgress text).GrowsUnless (check around' file inProgress text')
        (∀ content, Visits around inProgress text content → ¬DefersIn around content) := by
  -- Along the blocks that are looked into, with the renamed text of each beside it.
  induction inProgress, text using expanding_induction around with
  | step inProgress text ih =>
    intro text' htext
    have hreferences := references_renamed h htext.renamed
    obtain ⟨value, hparse, -, hparse'⟩ := id htext.renamed
    rw [check_eq_concat, check_eq_concat, hparse, hparse']
    dsimp only
    rw [hreferences, List.map_map]
    have hreference : ∀ r ∈ references around text,
        (checkReference around file inProgress r).GrowsUnless
          (checkReference around' file inProgress (r.renameKeys discriminator around'.key))
          ((r.kind ≠ .savedBlock →
              ∀ s ∈ propsOf around r, ¬s.Defers around.mode (.object r.properties)) ∧
            (r.kind = .savedBlock → r.identifier ∉ inProgress → ∀ inner,
              around.blocks.read r.identifier = some (.ok inner) → ∀ content,
                Visits around (r.identifier :: inProgress) inner content →
                  ¬DefersIn around content)) := by
      intro r hr
      have hkind : (r.renameKeys discriminator around'.key).kind = r.kind := rfl
      have hold := (properties_of_mem_references h htext.renamed hr).1
      unfold checkReference
      rw [hkind]
      by_cases hblock : r.kind = .savedBlock
      · rw [if_pos hblock, if_pos hblock]
        refine (checkBlock_renamed h file hold fun hfree inner inner' hread hinner =>
          ih _ inner hfree hread inner' hinner).congr ?_
        simp [hblock]
      · rw [if_neg hblock, if_neg hblock]
        refine (checkComponent_renamed h file htext hr hblock).congr ?_
        simp [hblock]
    refine (Outcome.GrowsUnless.concat_map hreference).congr ?_
    rw [forall_visits_iff, DefersIn]
    simp only [not_exists, not_and, imp_and, forall_and]

end Document

end BlockCheck
