import BlockCheck.Proofs.Props.Heritage
import BlockCheck.Proofs.Schema.Origins

/-!
# Ignored members

A name that is ignored and no property is never looked at. But a name that an interface itself ignores
is treated so only if nothing that it inherits declares the name: a declaration anywhere above it takes
the name out of the ignored ones again.
-/

namespace BlockCheck

/-! ## Names that are not looked at -/

namespace Schema

/-- Whether an object has the name, and with what value, makes no difference, and nothing is found
there. -/
structure Overlooks (s : Schema) (name : String) : Prop where
  without : ∀ mode members, s.findings mode (.object (Record.without name members)) =
    s.findings mode (.object members)
  location : ∀ mode value, ∀ f ∈ s.findings mode value, ∀ rest, f.location ≠ .key name :: rest

variable {properties : List (String × Schema)} {ignored : List String} {name : String}

theorem propertyFindings_without (mode : Mode) (hname : name ∉ Record.keys properties)
    (members : List (String × Json)) :
    propertyFindings mode properties (Record.without name members) =
      propertyFindings mode properties members := by
  rw [propertyFindings_eq, propertyFindings_eq]
  refine List.flatMap_congr fun p hp => ?_
  have hne : p.1 ≠ name := fun heq => hname (heq ▸ List.mem_map_of_mem hp)
  rw [Record.lookup_without_of_ne hne]

theorem isUnknownKey_of_ignored (hignored : name ∈ ignored) :
    isUnknownKey properties ignored name = false := by
  simp [isUnknownKey, hignored]

theorem unknownFindings_without (mode : Mode) (hignored : name ∈ ignored)
    (members : List (String × Json)) :
    unknownFindings mode properties ignored (Record.without name members) =
      unknownFindings mode properties ignored members := by
  cases mode with
  | lenient => rfl
  | strict =>
    rw [unknownFindings, unknownFindings, Record.without, List.filter_filter]
    congr 1
    refine List.filter_congr fun m _ => ?_
    by_cases hm : m.1 = name
    · rw [hm, isUnknownKey_of_ignored hignored, Bool.false_and]
    · rw [bne_iff_ne.2 hm, Bool.and_true]

theorem overlooks_of_ignored (hname : name ∉ Record.keys properties) (hignored : name ∈ ignored)
    (optional : Bool) : (object properties ignored optional).Overlooks name := by
  constructor
  · intro mode members
    rw [findings, findings, propertyFindings_without mode hname, unknownFindings_without mode hignored]
  · intro mode value f hf rest heq
    cases finds_of_mem_findings mode _ value f hf with
    | whole => cases heq
    | lacking hp | inside hp =>
      obtain rfl := Step.key.inj (List.head_eq_of_cons_eq heq)
      exact hname (List.mem_map_of_mem hp)
    | unknown _ _ hknows =>
      obtain rfl := Step.key.inj (List.head_eq_of_cons_eq heq)
      exact hknows (.inr (.inl hignored))

end Schema

namespace Props

open Source

variable {outline : Outline} {guard : Guard} {i : Interface} {name : String}

/-- Where an interface ignores a name in all its own declarations, the name is a property if, and only
if, another interface that it inherits declares it without ignoring it. Otherwise it is ignored, and
then it is never looked at. -/
theorem interfaceMembers_of_ignored (hi : outline.interface? i.name = some i)
    (hfree : interfaceKey i.name ∉ guard) (hignored : name ∈ ignoredNames i.properties)
    (hown : name ∉ shownNames i.properties) :
    ∃ members : Members,
      (∀ depth ≥ enoughDepth outline [], interfaceMembers outline depth guard i = some members) ∧
      (name ∈ Record.keys members.properties ↔
        ∃ j ≠ i, InheritsOutside outline guard i j ∧ name ∈ shownNames j.properties) ∧
      (name ∈ members.ignored ↔ name ∉ Record.keys members.properties) ∧
      (name ∈ members.ignored → ∀ optional, (members.schema optional).Overlooks name) := by
  obtain ⟨members, hmembers⟩ := exists_interfaceMembers hi guard
  have henough := hmembers _ le_rfl
  have hmem : name ∈ members.ignored ↔ name ∉ Record.keys members.properties := by
    rw [mem_ignored_iff_meets henough]
    exact and_iff_left ⟨i, .self hfree, hignored⟩
  refine ⟨members, hmembers, ?_, hmem, fun hname => ?_⟩
  · rw [mem_keys_iff_meets henough]
    refine exists_congr fun j => ?_
    rw [meets_iff hi, and_iff_right hfree]
    refine (and_iff_right_of_imp ?_).symm
    rintro ⟨-, hshown⟩ rfl
    exact hown hshown
  · exact Schema.overlooks_of_ignored (hmem.1 hname) hname

/-! ## An identifier that is ignored below its declaration -/

def identifiedInterface (ignored : Bool) : Interface :=
  ⟨"Base", [], [⟨"id", false, some (.predefined "string"), ignored⟩]⟩

def ignoringInterface : Interface :=
  ⟨"Props", ["Base"], [⟨"id", false, some (.predefined "string"), true⟩]⟩

/-- `interface Props extends Base { /** @ignore */ id: string }`, with a base that declares the
identifier, and ignores it as well or does not. -/
def ignoring (ignored : Bool) : Outline :=
  ⟨[], [⟨0, false, .interface (identifiedInterface ignored)⟩, ⟨30, false, .interface ignoringInterface⟩]⟩

theorem interfaceMembers_ignoring :
    (ignoring true).interface? ignoringInterface.name = some ignoringInterface ∧
    interfaceKey ignoringInterface.name ∉ ([] : Guard) ∧
    "id" ∈ ignoredNames ignoringInterface.properties ∧
    "id" ∉ shownNames ignoringInterface.properties ∧
    schemaOf? (ignoring true) = some (.object [] ["id"] false) ∧
    ∃ members : Members,
      (∀ depth ≥ enoughDepth (ignoring true) [],
        interfaceMembers (ignoring true) depth [] ignoringInterface = some members) ∧
      ("id" ∈ Record.keys members.properties ↔
        ∃ j ≠ ignoringInterface, InheritsOutside (ignoring true) [] ignoringInterface j ∧
          "id" ∈ shownNames j.properties) ∧
      ("id" ∈ members.ignored ↔ "id" ∉ Record.keys members.properties) ∧
      ("id" ∈ members.ignored → ∀ optional, (members.schema optional).Overlooks "id") := by
  have hprops : (ignoring true).interface? ignoringInterface.name = some ignoringInterface := rfl
  have hignored : "id" ∈ ignoredNames ignoringInterface.properties := by decide
  have hown : "id" ∉ shownNames ignoringInterface.properties := by decide
  refine ⟨hprops, List.not_mem_nil, hignored, hown, rfl, ?_⟩
  exact interfaceMembers_of_ignored hprops List.not_mem_nil hignored hown

/-- The props ignore the identifier of their base, but it is asked for, and its type is checked. -/
theorem ignoring_looked_at :
    (ignoring false).interface? "Props" = some ignoringInterface ∧
    "id" ∈ ignoredNames ignoringInterface.properties ∧
    "id" ∉ shownNames ignoringInterface.properties ∧
    schemaOf? (ignoring false) = some (.object [("id", .primitive .string false)] [] false) ∧
    ∀ s ∈ schemaOf? (ignoring false), ¬s.Overlooks "id" ∧
      s.validate .lenient "" (some (.object [])) = [⟨"id", .missing⟩] ∧
      s.validate .lenient "" (some (.object [("id", .int 7)])) =
        [⟨"id", .mismatch "string" .number⟩] := by
  have hschema : schemaOf? (ignoring false) =
      some (.object [("id", .primitive .string false)] [] false) := rfl
  refine ⟨rfl, by decide, by decide, hschema, ?_⟩
  rw [hschema]
  rintro s ⟨⟩
  refine ⟨fun h => ?_, by decide, by decide⟩
  exact h.location .lenient (.object []) ⟨[.key "id"], .missing⟩ (by decide) [] rfl

end Props

end BlockCheck
