import BlockCheck.Proofs.Props.Heritage
import BlockCheck.Proofs.Schema.Placed
import Mathlib.Data.Finset.Preimage
import Mathlib.Data.Fintype.EquivFin

/-!
# Bases that are no interfaces

An interface may name a type alias, a utility type or an imported type as its base. Nothing is inherited from
these: a strict run reports every key that no interface of the file brings in, whatever such a base says of
it, and a union may have no member left because of that.
-/

namespace BlockCheck

namespace Schema

variable {properties : List (String × Schema)} {ignored : List String} {optional : Bool}
  {members : List (String × Json)} {key : String}

def names : Schema → List String
  | .object properties ignored _ => Record.keys properties ++ ignored
  | _ => []

/-! ## Unknown keys -/

def Reports (s : Schema) (members : List (String × Json)) (key : String) : Prop :=
  ⟨[.key key], .unknownProperty⟩ ∈ s.findings .strict (.object members)

theorem reports_iff : (object properties ignored optional).Reports members key ↔
    key ∈ Record.keys members ∧ ¬Knows properties ignored key := by
  -- What is unknown inside a property stands further down.
  have hinside : ⟨[.key key], .unknownProperty⟩ ∉ propertyFindings .strict properties members := by
    rw [propertyFindings_eq]
    intro hmem
    obtain ⟨p, -, hmem⟩ := List.mem_flatMap.1 hmem
    obtain ⟨⟨location, problem⟩, hinner, heq⟩ := List.mem_map.1 hmem
    obtain ⟨⟨-, rfl⟩, rfl⟩ : (Step.key p.1 = .key key ∧ location = []) ∧ problem = .unknownProperty := by
      simpa [Finding.under] using heq
    obtain ⟨-, -, habsent⟩ | ⟨_, -, hinner⟩ := mem_check_iff.1 hinner
    · cases habsent
    · exact location_ne_nil_of_displaced hinner (by simp [displaced]) rfl
  rw [Reports, findings, List.mem_append, or_iff_right hinside, mem_unknownFindings_iff]
  simp

/-- Of keys that begin with a letter there are more than a schema has names. -/
theorem exists_not_knows (properties : List (String × Schema)) (ignored : List String) :
    ∃ key, ¬Knows properties ignored key := by
  let written (n : Nat) : String := String.ofList ('a' :: List.replicate n 'a')
  have hinjective : written.Injective := fun m n h => by
    have hlength := congrArg String.length h
    simpa [written] using hlength
  obtain ⟨n, hn⟩ := Infinite.exists_notMem_finset
    ((Record.keys properties ++ ignored).toFinset.preimage written hinjective.injOn)
  rw [Finset.mem_preimage, List.mem_toFinset] at hn
  refine ⟨written n, ?_⟩
  rw [Knows, ← or_assoc, ← List.mem_append, or_iff_right hn]
  simp [written, reservedStart]

theorem findings_union_eq_nil_iff {before after : List Schema} {mode : Mode} {s : Schema} {value : Json}
    (hothers : ∀ t ∈ before ++ after, t.findings mode value ≠ []) (optional : Bool) :
    (union (before ++ s :: after) optional).findings mode value = [] ↔ s.findings mode value = [] := by
  rw [findings_eq_nil_iff_conforms, conforms_union, findings_eq_nil_iff_conforms]
  constructor
  · rintro (hempty | ⟨t, ht, hconforms⟩)
    · cases List.append_ne_nil_of_right_ne_nil before (List.cons_ne_nil s after) hempty
    · rcases List.mem_append.1 ht with ht | ht
      · exact absurd ((findings_eq_nil_iff_conforms mode t value).2 hconforms)
          (hothers t (List.mem_append_left _ ht))
      · rcases List.mem_cons.1 ht with rfl | ht
        · exact hconforms
        · exact absurd ((findings_eq_nil_iff_conforms mode t value).2 hconforms)
            (hothers t (List.mem_append_right _ ht))
  · exact fun h => .inr ⟨s, by simp, h⟩

end Schema

namespace Props

open Source

variable {outline : Outline} {guard : Guard} {i : Interface} {members : Members} {name : String}

/-! ## What the interfaces of the file bring in -/

/-- An interface of the file that is inherited declares the name, ignoring it or not, or the name is
reserved. -/
def BringsIn (outline : Outline) (guard : Guard) (i : Interface) (name : String) : Prop :=
  (∃ j, InheritsOutside outline guard i j ∧
    (name ∈ shownNames j.properties ∨ name ∈ ignoredNames j.properties)) ∨
  reservedStart.toList <+: name.toList

theorem knows_iff_bringsIn (hi : outline.interface? i.name = some i) (hfree : interfaceKey i.name ∉ guard)
    {depth : Nat} (h : interfaceMembers outline depth guard i = some members) :
    Schema.Knows members.properties members.ignored name ↔ BringsIn outline guard i name := by
  have hmeets : ∀ j, Meets outline guard i j ↔ InheritsOutside outline guard i j := fun j =>
    (meets_iff hi).trans (and_iff_right hfree)
  unfold Schema.Knows BringsIn
  rw [← or_assoc, mem_ignored_iff_meets h, or_and_left, and_iff_right (Classical.em _), mem_keys_iff_meets h]
  simp only [hmeets, and_or_left, exists_or]

theorem inherit_filter (build : Interface → Option Members) (bases : List String) :
    ∀ members, inherit outline build members (bases.filter fun base => (outline.interface? base).isSome) =
      inherit outline build members bases := by
  induction bases with
  | nil => exact fun _ => rfl
  | cons base rest ih =>
    intro members
    rw [List.filter_cons]
    cases hbase : outline.interface? base with
    | none =>
      rw [if_neg (by simp), ih]
      simp only [inherit, hbase]
    | some j =>
      rw [if_pos Option.isSome_some]
      simp only [inherit, hbase, ih]

def withFileBases (outline : Outline) (i : Interface) : Interface :=
  { i with bases := i.bases.filter fun base => (outline.interface? base).isSome }

theorem interfaceMembers_withFileBases (depth : Nat) :
    interfaceMembers outline depth guard (withFileBases outline i) = interfaceMembers outline depth guard i := by
  cases depth with
  | zero => rfl
  | succ depth =>
    rw [interfaceMembers, interfaceMembers]
    simp only [withFileBases, inherit_filter]

/-! ## Other bases -/

/-- A base of the interface, or of one that it inherits, is written `t`, and no interface of the file has
that name. -/
def HasOtherBase (outline : Outline) (guard : Guard) (i : Interface) (t : TypeExpr) : Prop :=
  ∃ j, InheritsOutside outline guard i j ∧
    ∃ base ∈ j.bases, baseName t = some base ∧ outline.interface? base = none

/-- What is found unknown does not depend on the bases that are no interfaces of the file: it is what no
interface brings in. So the names of such a base are let be if, and only if, interfaces bring all of them in,
some key is reported in any case, and a union without another member that will do has no finding if, and only
if, all keys are brought in. -/
theorem reports_of_otherBases (hi : outline.interface? i.name = some i) (hfree : interfaceKey i.name ∉ guard) :
    ∃ members : Members,
      (∀ depth ≥ enoughDepth outline [], interfaceMembers outline depth guard i = some members ∧
        interfaceMembers outline depth guard (withFileBases outline i) = some members) ∧
      (∀ optional held key, (members.schema optional).Reports held key ↔
        key ∈ Record.keys held ∧ ¬BringsIn outline guard i key) ∧
      (∀ optional t, HasOtherBase outline guard i t →
        ((∀ held, ∀ key ∈ (schemaOfType outline t).names, ¬(members.schema optional).Reports held key) ↔
          ∀ key ∈ (schemaOfType outline t).names, BringsIn outline guard i key)) ∧
      (∀ optional, ∃ held key, (members.schema optional).Reports held key) ∧
      ∀ optional flag held before after,
        (∀ s ∈ before ++ after, s.findings .strict (.object held) ≠ []) →
        Schema.propertyFindings .strict members.properties held = [] →
        ((Schema.union (before ++ members.schema optional :: after) flag).findings .strict (.object held) = [] ↔
          ∀ key ∈ Record.keys held, BringsIn outline guard i key) := by
  obtain ⟨members, hmembers⟩ := exists_interfaceMembers hi guard
  have henough := hmembers _ le_rfl
  have hknows : ∀ key, Schema.Knows members.properties members.ignored key ↔ BringsIn outline guard i key :=
    fun key => knows_iff_bringsIn hi hfree henough
  have hreports : ∀ optional held key, (members.schema optional).Reports held key ↔
      key ∈ Record.keys held ∧ ¬BringsIn outline guard i key := by
    intro optional held key
    rw [← hknows]
    exact Schema.reports_iff
  refine ⟨members, fun depth hdepth => ⟨hmembers depth hdepth, ?_⟩, hreports, ?_, fun optional => ?_, ?_⟩
  · rw [interfaceMembers_withFileBases, hmembers depth hdepth]
  · intro optional t _
    constructor
    · intro h key hkey
      have hunreported := h [(key, .null)] key hkey
      rw [hreports, not_and_not_right] at hunreported
      exact hunreported List.mem_cons_self
    · intro h held key hkey hreported
      exact ((hreports optional held key).1 hreported).2 (h key hkey)
  · obtain ⟨key, hkey⟩ := Schema.exists_not_knows members.properties members.ignored
    exact ⟨[(key, .null)], key, (hreports optional _ key).2 ⟨List.mem_cons_self, mt (hknows key).2 hkey⟩⟩
  · intro optional flag held before after hothers hproperties
    rw [Schema.findings_union_eq_nil_iff hothers, Members.schema, Schema.findings, hproperties, List.nil_append,
      Schema.unknownFindings_eq_nil_iff]
    simp [hknows]

/-! ## An alias as a base -/

def namedInterface : Interface := ⟨"Named", [], [⟨"label", true, none, false⟩]⟩

def extendingInterface : Interface :=
  ⟨"Props", ["Base", "Named"], [⟨"title", false, some (.predefined "string"), false⟩]⟩

/-- `type Base = { id: string }`, and props that extend it and an interface. -/
def extending : Outline :=
  ⟨[], [⟨0, false, .typeAlias "Base"
      (.object "{ id: string }" [⟨"id", false, some (.predefined "string"), false⟩])⟩,
    ⟨27, false, .interface namedInterface⟩, ⟨58, false, .interface extendingInterface⟩]⟩

theorem hasOtherBase_extending : HasOtherBase extending [] extendingInterface (.named "Base") :=
  ⟨extendingInterface, .refl, "Base", List.mem_cons_self, rfl, rfl⟩

theorem not_bringsIn_extending : ¬BringsIn extending [] extendingInterface "id" := by
  have hmembers : interfaceMembers extending 4 [] extendingInterface =
      some ⟨[("label", .any true), ("title", .primitive .string false)], []⟩ := rfl
  rw [← knows_iff_bringsIn rfl List.not_mem_nil hmembers]
  simp [Schema.Knows, Record.keys, reservedStart]

theorem reports_extending :
    extending.interface? extendingInterface.name = some extendingInterface ∧
    interfaceKey extendingInterface.name ∉ ([] : Guard) ∧
    HasOtherBase extending [] extendingInterface (.named "Base") ∧
    ∃ members : Members,
      (∀ depth ≥ enoughDepth extending [],
        interfaceMembers extending depth [] extendingInterface = some members ∧
        interfaceMembers extending depth [] (withFileBases extending extendingInterface) = some members) ∧
      (∀ optional held key, (members.schema optional).Reports held key ↔
        key ∈ Record.keys held ∧ ¬BringsIn extending [] extendingInterface key) ∧
      (∀ optional, ∃ held key, (members.schema optional).Reports held key) ∧
      "id" ∈ (schemaOfType extending (.named "Base")).names ∧
      (∀ optional, (members.schema optional).Reports [("title", .string "a"), ("id", .string "b")] "id") ∧
      ∀ optional, ¬(members.schema optional).Reports [("title", .string "a"), ("id", .string "b")] "title" := by
  have hprops : extending.interface? extendingInterface.name = some extendingInterface := rfl
  obtain ⟨members, hmembers, hreports, -, hsome, -⟩ := reports_of_otherBases hprops List.not_mem_nil
  have htitle : BringsIn extending [] extendingInterface "title" :=
    .inl ⟨extendingInterface, .refl, .inl List.mem_cons_self⟩
  refine ⟨hprops, List.not_mem_nil, hasOtherBase_extending, members, hmembers, hreports, hsome, by decide, ?_, ?_⟩
  · exact fun optional => (hreports optional _ _).2 ⟨by decide, not_bringsIn_extending⟩
  · exact fun optional hreported => ((hreports optional _ _).1 hreported).2 htitle

/-- The alias declares the identifier, but a strict run reports it, and a union with the props has no member
left. -/
theorem alias_base_reported :
    HasOtherBase extending [] extendingInterface (.named "Base") ∧
    "id" ∈ (schemaOfType extending (.named "Base")).names ∧
    ∃ s, schemaOf? extending = some s ∧
      s.validate .strict "" (some (.object [("title", .string "a"), ("id", .string "b")])) =
        [⟨"id", .unknownProperty⟩] ∧
      (Schema.union [s, .primitive .string false] false).validate .lenient ""
        (some (.object [("title", .string "a"), ("id", .string "b")])) = [] ∧
      (Schema.union [s, .primitive .string false] false).validate .strict ""
        (some (.object [("title", .string "a"), ("id", .string "b")])) =
        [⟨"", .noUnionMember ["object", "string"]⟩] := by
  refine ⟨hasOtherBase_extending, by decide, .object [("label", .any true), ("title", .primitive .string false)]
    [] false, rfl, ?_, ?_, ?_⟩
  all_goals decide

end Props

end BlockCheck
