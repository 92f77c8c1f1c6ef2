import BlockCheck.Proofs.Blocks.Reach
import Mathlib.Data.List.Basic

/-!
# What a document depends on

To check a document looks at nothing but the document itself, the blocks that it reaches, and the components
that these refer to. Of the blocks in progress only those make a difference that it reaches. So a block that
does not reach itself is checked inside a document as it is checked on its own.
-/

namespace BlockCheck.Document

open Relation

variable {around around' : Surroundings} {file text content name : String}
  {inProgress inProgress' : List String} {r : Scan.Reference}

/-! ## What is reached through a block -/

theorem Reaches.through (hmentions : Mentions around text name)
    (hread : around.blocks.read name = some (.ok content)) {inner : String}
    (h : Reaches around [] content inner) : Reaches around [] text inner := by
  obtain ⟨first, hfirst, hrest⟩ := h
  exact ⟨name, hmentions, .head ⟨List.not_mem_nil, content, hread, hfirst⟩ hrest⟩

theorem Visits.through (hmentions : Mentions around text name)
    (hread : around.blocks.read name = some (.ok content)) {inner : String}
    (h : Visits around [] content inner) : Visits around [] text inner := by
  rcases h with rfl | ⟨block, hreach, hfree, hinner⟩
  · exact Or.inr ⟨name, ⟨name, hmentions, .refl⟩, List.not_mem_nil, hread⟩
  · exact Or.inr ⟨block, hreach.through hmentions hread, hfree, hinner⟩

theorem Reaches.within {P : String → Prop} (htext : ∀ first, Mentions around text first → P first)
    (hblock : ∀ block content, P block → around.blocks.read block = some (.ok content) →
      ∀ inner, Mentions around content inner → P inner)
    (h : Reaches around inProgress text name) : P name := by
  obtain ⟨first, hfirst, hwalk⟩ := h
  induction hwalk with
  | refl => exact htext first hfirst
  | tail _ hstep ih =>
    obtain ⟨-, content, hread, hmentions⟩ := hstep
    exact hblock _ content ih hread _ hmentions

theorem mentions_of_mem (hr : r ∈ references around text) (hkind : r.kind = .savedBlock) :
    Mentions around text r.identifier :=
  ⟨r, List.mem_filter.2 ⟨hr, by simpa using hkind⟩, rfl⟩

/-! ## Surroundings that agree -/

/-- As seen from the text, the second surroundings, with their blocks in progress, are like the first ones. -/
structure Agree (around around' : Surroundings) (file : String) (inProgress inProgress' : List String)
    (text : String) : Prop where
  naming : around'.naming = around.naming
  key : around'.key = around.key
  inProgress : ∀ name, Reaches around [] text name → (name ∈ inProgress' ↔ name ∈ inProgress)
  blocks : ∀ name, Reaches around [] text name → around'.blocks.read name = around.blocks.read name
  components : ∀ content, Visits around [] text content → ∀ r ∈ references around content,
    r.kind ≠ .savedBlock → checkComponent around' file r = checkComponent around file r

theorem Agree.references_eq (h : Agree around around' file inProgress inProgress' text) (content : String) :
    references around' content = references around content := by
  unfold references
  rw [h.naming, h.key]

theorem Agree.through (h : Agree around around' file inProgress inProgress' text)
    (hmentions : Mentions around text name) (hread : around.blocks.read name = some (.ok content)) :
    Agree around around' file (name :: inProgress) (name :: inProgress') content where
  naming := h.naming
  key := h.key
  inProgress inner hinner := by
    rw [List.mem_cons, List.mem_cons, h.inProgress inner (hinner.through hmentions hread)]
  blocks inner hinner := h.blocks inner (hinner.through hmentions hread)
  components inner hinner := h.components inner (hinner.through hmentions hread)

theorem checkBlock_congr (hprogress : r.identifier ∈ inProgress' ↔ r.identifier ∈ inProgress)
    (hread : around'.blocks.read r.identifier = around.blocks.read r.identifier)
    (hcontent : ∀ content, r.identifier ∉ inProgress →
      around.blocks.read r.identifier = some (.ok content) →
        check around' file (r.identifier :: inProgress') content =
          check around file (r.identifier :: inProgress) content) :
    checkBlock around' file inProgress' r = checkBlock around file inProgress r := by
  by_cases hmem : r.identifier ∈ inProgress
  · rw [checkBlock_of_mem around file hmem, checkBlock_of_mem around' file (hprogress.2 hmem)]
  have hmem' : r.identifier ∉ inProgress' := mt hprogress.1 hmem
  cases hfound : around.blocks.read r.identifier with
  | none =>
    rw [checkBlock_of_none around file hmem hfound,
      checkBlock_of_none around' file hmem' (hread.trans hfound)]
  | some answer =>
    cases answer with
    | error fault =>
      rw [checkBlock_of_error around file hmem hfound,
        checkBlock_of_error around' file hmem' (hread.trans hfound)]
    | ok content =>
      rw [checkBlock_of_ok around file hmem hfound,
        checkBlock_of_ok around' file hmem' (hread.trans hfound), hcontent content hmem hfound]

theorem check_congr (h : Agree around around' file inProgress inProgress' text) :
    check around' file inProgress' text = check around file inProgress text := by
  induction inProgress, text using expanding_induction around generalizing inProgress' with
  | step inProgress text ih =>
    rw [check_eq_concat, check_eq_concat, h.references_eq text]
    cases hparse : Json.parse text with
    | error reason => rfl
    | ok document =>
      refine congrArg Outcome.concat (List.map_congr_left fun r hr => ?_)
      unfold checkReference
      split
      · rename_i hkind
        have hmentions := mentions_of_mem hr hkind
        have hreach : Reaches around [] text r.identifier := ⟨_, hmentions, .refl⟩
        refine checkBlock_congr (h.inProgress _ hreach) (h.blocks _ hreach) ?_
        intro content hfree hread
        exact ih _ content hfree hread (h.through hmentions hread)
      · rename_i hkind
        exact h.components text (Or.inl rfl) r hr hkind

theorem check_eq_components (hparse : (Json.parse text).toOption.isSome = true)
    (hkinds : ∀ r ∈ references around text, r.kind ≠ .savedBlock) :
    check around file inProgress text = .concat ((references around text).map (checkComponent around file)) := by
  rw [check_eq_concat]
  cases hdocument : Json.parse text with
  | error reason =>
    rw [hdocument] at hparse
    cases hparse
  | ok document =>
    exact congrArg Outcome.concat (List.map_congr_left fun r hr => if_neg (hkinds r hr))

/-! ## Blocks in progress -/

theorem agree_of_inProgress (h : ∀ name, Reaches around [] text name →
    (name ∈ inProgress' ↔ name ∈ inProgress)) : Agree around around file inProgress inProgress' text where
  naming := rfl
  key := rfl
  inProgress := h
  blocks _ _ := rfl
  components _ _ _ _ _ := rfl

/-- Of the blocks in progress only those that the text reaches make a difference. So where a document refers
to a block that does not reach itself, and the block reaches none in progress, it comes to what the block's
text comes to on its own. -/
theorem check_eq_of_reached (around : Surroundings) (file : String) :
    (∀ text inProgress inProgress', (∀ name, Reaches around [] text name →
        (name ∈ inProgress' ↔ name ∈ inProgress)) →
      check around file inProgress' text = check around file inProgress text) ∧
    ∀ r content inProgress, r.identifier ∉ inProgress →
      around.blocks.read r.identifier = some (.ok content) →
      ¬Reaches around [] content r.identifier →
      (∀ name ∈ inProgress, ¬Reaches around [] content name) →
        checkBlock around file inProgress r =
          .ofUse r.identifier ++ checkProperties file r ++
            (check around file [] content).inside r.location.text := by
  refine ⟨fun text inProgress inProgress' h => check_congr (agree_of_inProgress h), ?_⟩
  intro r content inProgress hfree hread hself hothers
  rw [checkBlock_of_ok around file hfree hread, check_congr (agree_of_inProgress fun name hname => ?_)]
  -- Neither the block itself nor one in progress is reached.
  refine iff_of_false ?_ List.not_mem_nil
  rw [List.mem_cons, not_or]
  exact ⟨fun heq => hself (heq ▸ hname), fun hmem => hothers name hmem hname⟩

def footerText : String := "\x7b\"__resolveType\":\"Footer\"\x7d"

def bannerSurroundings : Surroundings where
  naming := {}
  key := discriminator
  mode := .lenient
  locate _ := none
  props _ := none
  blocks := .ofDirectory "/b" (.ofTexts [("/b/Banner.json", footerText), ("/b/Footer.json", "\x7b\x7d")])

theorem reaches_footer (h : Reaches bannerSurroundings [] footerText name) : name = "Footer" := by
  have hbanner : (blockReferences bannerSurroundings footerText).map (·.identifier) = ["Footer"] := by
    decide +kernel
  have hread : bannerSurroundings.blocks.read "Footer" = some (.ok "\x7b\x7d") := by decide +kernel
  have hfooter : (blockReferences bannerSurroundings "\x7b\x7d").map (·.identifier) = [] := by
    decide +kernel
  refine Reaches.within (P := (· = "Footer")) ?_ ?_ h
  · intro first hfirst
    exact List.mem_singleton.1 (hbanner ▸ List.mem_map.2 hfirst)
  · rintro block content rfl hcontent inner hinner
    cases hread.symm.trans hcontent
    exact absurd (hfooter ▸ List.mem_map.2 hinner) List.not_mem_nil

theorem check_banner_eq :
    check bannerSurroundings "home.json" ["Page"] footerText = check bannerSurroundings "home.json" [] footerText ∧
      checkBlock bannerSurroundings "home.json" ["Page"] ⟨"Banner", .savedBlock, [], []⟩ =
        .ofUse "Banner" ++ checkProperties "home.json" ⟨"Banner", .savedBlock, [], []⟩ ++
          (check bannerSurroundings "home.json" [] footerText).inside (Location.text []) := by
  obtain ⟨hprogress, hblock⟩ := check_eq_of_reached bannerSurroundings "home.json"
  refine ⟨hprogress footerText [] ["Page"] fun name hname => ?_, ?_⟩
  · cases reaches_footer hname
    decide
  refine hblock ⟨"Banner", .savedBlock, [], []⟩ footerText ["Page"] (by decide) (by decide +kernel) ?_ ?_
  · exact fun h => absurd (reaches_footer h) (by decide)
  · exact fun name hname h => absurd ((List.mem_singleton.1 hname).symm.trans (reaches_footer h)) (by decide)

end BlockCheck.Document
