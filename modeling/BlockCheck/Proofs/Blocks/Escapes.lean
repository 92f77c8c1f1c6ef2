import BlockCheck.Document.Escape
import BlockCheck.Proofs.Blocks.Surroundings

/-!
# Documents that stop a run

A text that is nested too deep stops a run, and so does the mention of a block whose name cannot be written as
bytes. The run comes to them in the document that it checks or in a block that is expanded for it.
-/

namespace BlockCheck.Document

variable {room : Nat → Nat} {around : Surroundings} {file text content name : String}
  {inProgress : List String} {outcome : Outcome}

inductive Escapes (room : Nat → Nat) (around : Surroundings) : List String → String → Prop
  | tooDeep {inProgress : List String} {text : String} {bracket : Char} :
      Json.overflow? (room inProgress.length) text = some bracket → Escapes room around inProgress text
  | unencodable {inProgress : List String} {text name : String} : Mentions around text name →
      name ∉ inProgress → Text.Surrogate.isUnencodable name = true → Escapes room around inProgress text
  | inside {inProgress : List String} {text name content : String} : Mentions around text name →
      name ∉ inProgress → around.blocks.read name = some (.ok content) →
      Escapes room around (name :: inProgress) content → Escapes room around inProgress text

theorem blockEscape?_isSome_iff :
    (blockEscape? room around inProgress name).isSome = true ↔
      name ∉ inProgress ∧ (Text.Surrogate.isUnencodable name = true ∨
        ∃ content, around.blocks.read name = some (.ok content) ∧
          (escape? room around (name :: inProgress) content).isSome = true) := by
  rw [blockEscape?]
  by_cases hprogress : name ∈ inProgress
  · simp [hprogress]
  rw [dif_neg (by simpa using hprogress)]
  by_cases hname : Text.Surrogate.isUnencodable name = true
  · simp [hprogress, hname]
  rw [if_neg hname]
  split
  · simp_all
  · rename_i hread
    simp_all

theorem escape?_isSome_iff :
    (escape? room around inProgress text).isSome = true ↔
      (∃ bracket, Json.overflow? (room inProgress.length) text = some bracket) ∨
        ∃ name, Mentions around text name ∧ (blockEscape? room around inProgress name).isSome = true := by
  rw [escape?]
  cases hoverflow : Json.overflow? (room inProgress.length) text with
  | some bracket => simp
  | none =>
    unfold Mentions blockReferences references
    cases Json.parse text with
    | error reason => simp
    | ok document =>
      simp only [List.findSome?_isSome_iff, List.mem_filter, decide_eq_true_eq]
      constructor
      · rintro ⟨r, hr, hsome⟩
        refine Or.inr ⟨r.identifier, ⟨r, ⟨hr, ?_⟩, rfl⟩, ?_⟩
        all_goals split at hsome
        all_goals simp_all
      · rintro (⟨bracket, hbracket⟩ | ⟨_, ⟨r, ⟨hr, hkind⟩, rfl⟩, hsome⟩)
        · cases hbracket
        · exact ⟨r, hr, by simpa [hkind] using hsome⟩

theorem escapes_iff : Escapes room around inProgress text ↔
    (∃ bracket, Json.overflow? (room inProgress.length) text = some bracket) ∨
      ∃ name, Mentions around text name ∧ name ∉ inProgress ∧ (Text.Surrogate.isUnencodable name = true ∨
        ∃ content, around.blocks.read name = some (.ok content) ∧
          Escapes room around (name :: inProgress) content) := by
  constructor
  · intro h
    cases h with
    | tooDeep hbracket => exact Or.inl ⟨_, hbracket⟩
    | unencodable hmention hfree hname => exact Or.inr ⟨_, hmention, hfree, Or.inl hname⟩
    | inside hmention hfree hread hinside => exact Or.inr ⟨_, hmention, hfree, Or.inr ⟨_, hread, hinside⟩⟩
  · rintro (⟨bracket, hbracket⟩ | ⟨name, hmention, hfree, hname | ⟨content, hread, hinside⟩⟩)
    · exact .tooDeep hbracket
    · exact .unencodable hmention hfree hname
    · exact .inside hmention hfree hread hinside

theorem isSome_escape?_iff_escapes :
    (escape? room around inProgress text).isSome = true ↔ Escapes room around inProgress text := by
  induction inProgress, text using expanding_induction around with
  | step inProgress text ih =>
    rw [escape?_isSome_iff, escapes_iff]
    refine or_congr_right (exists_congr fun name => and_congr_right fun _ => ?_)
    rw [blockEscape?_isSome_iff]
    refine and_congr_right fun hfree => or_congr_right (exists_congr fun content => and_congr_right fun hread => ?_)
    exact ih name content hfree hread

theorem escapes_congr {around' : Surroundings} (h : Agree around around' file inProgress inProgress text) :
    Escapes room around' inProgress text ↔ Escapes room around inProgress text := by
  induction inProgress, text using expanding_induction around with
  | step inProgress text ih =>
    have hmentions : ∀ name, Mentions around' text name ↔ Mentions around text name := by
      intro name
      rw [Mentions, blockReferences, h.references_eq text]
      rfl
    rw [escapes_iff, escapes_iff]
    refine or_congr_right (exists_congr fun name => ?_)
    rw [hmentions name]
    refine and_congr_right fun hmention => and_congr_right fun hfree => or_congr_right ?_
    rw [h.blocks name ⟨name, hmention, .refl⟩]
    refine exists_congr fun content => and_congr_right fun hread => ?_
    exact ih name content hfree hread (h.through hmention hread)

/-- Nothing stops the run among texts that mentions do not lead out of, if there is room for each of them and
the names in them can be written. -/
theorem not_escapes_of_within {P : String → Prop}
    (hroom : ∀ text, P text → ∀ n, Json.overflow? (room n) text = none)
    (hnames : ∀ text, P text → ∀ name, Mentions around text name → Text.Surrogate.isUnencodable name = false)
    (hblocks : ∀ text, P text → ∀ name content, Mentions around text name →
      around.blocks.read name = some (.ok content) → P content)
    (htext : P text) : ¬Escapes room around inProgress text := by
  intro h
  induction h with
  | tooDeep hbracket => cases (hroom _ htext _).symm.trans hbracket
  | unencodable hmention _ hname => cases (hnames _ htext _ hmention).symm.trans hname
  | inside hmention _ hread _ ih => exact ih (hblocks _ htext _ _ hmention hread)

theorem validate_eq_ok_iff : validate room around file inProgress text = .ok outcome ↔
    ¬Escapes room around inProgress text ∧ outcome = check around file inProgress text := by
  rw [← isSome_escape?_iff_escapes, validate]
  cases escape? room around inProgress text with
  | some escape => simp
  | none => simp [eq_comm]

theorem exists_validate_eq_ok_iff : (∃ outcome, validate room around file inProgress text = .ok outcome) ↔
    ¬Escapes room around inProgress text := by
  simp [validate_eq_ok_iff]

/-! ## More room -/

variable {room' : Nat → Nat}

theorem Escapes.of_le (hle : ∀ n, room n ≤ room' n) (h : Escapes room' around inProgress text) :
    Escapes room around inProgress text := by
  induction h with
  | tooDeep hbracket =>
    obtain ⟨first, hfirst⟩ := Json.exists_overflow?_of_le (hle _) hbracket
    exact .tooDeep hfirst
  | unencodable hmention hfree hname => exact .unencodable hmention hfree hname
  | inside hmention hfree hread _ ih => exact .inside hmention hfree hread ih

/-- How much room there is decides whether something comes of a document, but not what. -/
theorem validate_eq_ok_of_le (hle : ∀ n, room n ≤ room' n)
    (h : validate room around file inProgress text = .ok outcome) :
    validate room' around file inProgress text = .ok outcome := by
  obtain ⟨hescapes, hcheck⟩ := validate_eq_ok_iff.1 h
  exact validate_eq_ok_iff.2 ⟨mt (Escapes.of_le hle) hescapes, hcheck⟩

end BlockCheck.Document
