import BlockCheck.Proofs.Props.Shapes
import BlockCheck.Proofs.Schema.Degraded
import BlockCheck.Proofs.Schema.Placed

/-!
# Utility types

`Omit` and `Pick` share the properties of an object type out between them, and `Partial` makes all of them
optional. What is found in a value follows: as long as unknown keys are let be, the findings of the whole are
those of the two shares, and a partial type has all findings but those of its own properties that are absent.
-/

namespace BlockCheck

namespace Schema

variable {properties omitted picked : List (String × Schema)} {ignored : List String} {optional : Bool}
  {names : List String}

/-! ## Two shares -/

/-- The properties with and without the names, the first ones in the order of the names. -/
structure SharedOut (properties : List (String × Schema)) (names : List String)
    (omitted picked : List (String × Schema)) : Prop where
  perm : (omitted ++ picked).Perm properties
  omitted_sublist : omitted.Sublist properties
  keys_omitted : Record.keys omitted = (Record.keys properties).filter fun n => !names.contains n
  keys_picked : Record.keys picked = names.eraseDups.filter (Record.hasKey · properties)

def pickedProperties (keys : List String) (properties : List (String × Schema)) : List (String × Schema) :=
  keys.eraseDups.filterMap fun k => (properties.lookup k).map fun s => (k, s)

theorem mem_pickedProperties (hnames : (Record.keys properties).Nodup) {p : String × Schema} :
    p ∈ pickedProperties names properties ↔ p ∈ properties ∧ p.1 ∈ names := by
  obtain ⟨k, s⟩ := p
  unfold pickedProperties
  simp only [List.mem_filterMap, Option.map_eq_some_iff, Prod.mk.injEq, List.mem_eraseDups]
  constructor
  · rintro ⟨_, hk, _, hs, rfl, rfl⟩
    exact ⟨Record.mem_of_lookup hs, hk⟩
  · rintro ⟨hp, hk⟩
    exact ⟨k, hk, s, Record.lookup_of_mem hnames hp, rfl, rfl⟩

theorem keys_pickedProperties : Record.keys (pickedProperties names properties) =
    names.eraseDups.filter (Record.hasKey · properties) := by
  unfold pickedProperties
  induction names.eraseDups with
  | nil => rfl
  | cons k rest ih =>
    have hkey : Record.hasKey k properties = (properties.lookup k).isSome := by
      rw [Bool.eq_iff_iff, Record.hasKey_iff, Record.isSome_lookup_iff]
    rw [List.filterMap_cons, List.filter_cons, hkey]
    cases properties.lookup k with
    | none => exact ih
    | some s => exact congrArg (k :: ·) ih

theorem sharedOut (hnames : (Record.keys properties).Nodup) (names : List String) :
    SharedOut properties names (properties.filter fun p => !names.contains p.1)
      (pickedProperties names properties) where
  perm := by
    have hpicked : (pickedProperties names properties).Nodup := by
      refine List.Nodup.of_map Prod.fst ?_
      rw [← Record.keys, keys_pickedProperties]
      exact (nodup_eraseDups names).filter _
    have hkept : (pickedProperties names properties).Perm (properties.filter fun p => names.contains p.1) := by
      refine (List.perm_ext_iff_of_nodup hpicked ((List.Nodup.of_map Prod.fst hnames).filter _)).2 fun p => ?_
      rw [mem_pickedProperties hnames, List.mem_filter, List.contains_iff_mem]
    refine (hkept.append_left _).trans (List.perm_append_comm.trans ?_)
    exact List.filter_append_perm (fun p : String × Schema => names.contains p.1) properties
  omitted_sublist := List.filter_sublist
  keys_omitted := by
    rw [Record.keys, Record.keys, List.filter_map]
    rfl
  keys_picked := keys_pickedProperties

theorem propertyFindings_append (mode : Mode) (before after : List (String × Schema))
    (members : List (String × Json)) :
    propertyFindings mode (before ++ after) members =
      propertyFindings mode before members ++ propertyFindings mode after members := by
  simp only [propertyFindings_eq, List.flatMap_append]

theorem SharedOut.findings_perm (h : SharedOut properties names omitted picked) (ignored : List String)
    (optional flag : Bool) (members : List (String × Json)) :
    ((object properties ignored flag).findings .lenient (.object members)).Perm
      ((object omitted ignored optional).findings .lenient (.object members) ++
        (object picked ignored optional).findings .lenient (.object members)) := by
  simp only [findings, unknownFindings, List.append_nil]
  rw [← propertyFindings_append, propertyFindings_eq, propertyFindings_eq]
  exact h.perm.symm.flatMap_right _

/-! ## Absent properties -/

def lacksAny (names : List String) (f : Finding) : Bool :=
  f.problem = .missing && names.any fun n => f.location = [.key n]

def madeOptional (properties : List (String × Schema)) : List (String × Schema) :=
  properties.map fun p => (p.1, p.2.withOptional true)

theorem check_madeOptional {mode : Mode} {p : String × Schema} (hp : p.1 ∈ names) (held : Option Json) :
    ((p.2.withOptional true).check mode held).map (Finding.under (.key p.1)) =
      ((p.2.check mode held).map (Finding.under (.key p.1))).filter fun f => !lacksAny names f := by
  cases held with
  | none =>
    simp only [check, absentFindings, optional_withOptional, if_true, List.map_nil]
    split
    · rfl
    · have hlacks : lacksAny names (Finding.under (.key p.1) (.here .missing)) = true := by
        simp [lacksAny, Finding.under, Finding.here, hp]
      rw [List.map_singleton, List.filter_cons_of_neg (by simp [hlacks]), List.filter_nil]
  | some value =>
    rw [check, check, findings_withOptional, List.filter_eq_self.2]
    intro f hf
    obtain ⟨inner, hinner, rfl⟩ := List.mem_map.1 hf
    -- What is there can lack something further down only.
    have hdeeper : inner.problem = .missing → inner.location ≠ [] := fun hmissing =>
      location_ne_nil_of_displaced hinner (hmissing ▸ List.mem_cons_self)
    simp only [lacksAny, Finding.under, Bool.not_eq_true', Bool.and_eq_false_imp]
    intro hmissing
    simp [hdeeper (of_decide_eq_true hmissing)]

/-- With its properties made optional, a type finds all but the absence of these. -/
theorem findings_madeOptional (mode : Mode) (flag : Bool) (value : Json) :
    (object (madeOptional properties) ignored flag).findings mode value =
      ((object properties ignored optional).findings mode value).filter
        fun f => !lacksAny (Record.keys properties) f := by
  cases value with
  | object members =>
    have hkeys : Record.keys (madeOptional properties) = Record.keys properties := by
      simp [madeOptional, Record.keys]
    have hunknown : ∀ f ∈ unknownFindings mode properties ignored members,
        (!lacksAny (Record.keys properties) f) = true := by
      intro f hf
      obtain ⟨-, key, -, -, rfl⟩ := mem_unknownFindings_iff.1 hf
      rfl
    rw [findings, findings, List.filter_append, List.filter_eq_self.2 hunknown,
      unknownFindings_congr_properties hkeys, propertyFindings_eq, propertyFindings_eq, List.filter_flatMap,
      madeOptional, List.flatMap_map]
    congr 1
    refine List.flatMap_congr fun p hp => ?_
    exact check_madeOptional (List.mem_map_of_mem hp) _
  | _ => rfl

end Schema

namespace Source

/-- A type that spells out keys: a text in quotes, or several with bars between them. -/
inductive Spells : TypeExpr → List String → Prop
  | one (text : String) : Spells (.stringLiteral text) [unquote text]
  | several (text : String) (texts : List String) :
      Spells (.union text (texts.map .stringLiteral)) (texts.map unquote)

theorem Spells.literalKeys_eq {t : TypeExpr} {names : List String} (h : Spells t names) :
    t.literalKeys = names := by
  cases h with
  | one text => rfl
  | several text texts =>
    rw [TypeExpr.literalKeys, List.flatMap_map]
    exact List.flatMap_pure_eq_map unquote texts

end Source

namespace Props

open Source

variable {outline : Outline} {text : String} {base keys : TypeExpr} {s : Schema} {names : List String}

/-! ## Types in their place -/

/-- Where a type is gone into: how much further, and what is being resolved already. -/
structure Place where
  depth : Nat
  guard : Guard

/-- A type with the text that stands in the place is not met again there, and the type `base` inside it
has the schema. -/
structure Place.Holds (place : Place) (outline : Outline) (text : String) (base : TypeExpr) (s : Schema) :
    Prop where
  fresh : text ∉ place.guard
  resolved : resolve outline place.depth (text :: place.guard) false base = some s

def Place.resolve (place : Place) (outline : Outline) (optional : Bool) (t : TypeExpr) : Option Schema :=
  Props.resolve outline (place.depth + 1) place.guard optional t

variable {place : Place}

theorem Place.Holds.resolve_generic (h : place.Holds outline text base s) (optional : Bool) (name : String)
    (arguments : List TypeExpr) :
    place.resolve outline optional (.generic text name arguments) =
      ofMeaning (guarded outline place.depth (text :: place.guard)) optional name
        (meaning outline name arguments) := resolve_of_notMem h.fresh outline place.depth optional

theorem Place.Holds.distinctNames (h : place.Holds outline text base s) : s.DistinctNames :=
  (shaped_resolve h.resolved).names

variable {properties : List (String × Schema)} {ignored : List String} {flag : Bool}

theorem Place.Holds.resolve_edited (h : place.Holds outline text base s) (optional : Bool) (name : String)
    (arguments : List TypeExpr) (edit : Schema → Schema)
    (hedit : ofMeaning (guarded outline place.depth (text :: place.guard)) optional name
      (meaning outline name arguments) =
        (Props.resolve outline place.depth (text :: place.guard) false base).map edit) :
    place.resolve outline optional (.generic text name arguments) = some (edit s) := by
  rw [h.resolve_generic, hedit, h.resolved, Option.map_some]

theorem Place.Holds.resolve_omit (h : place.Holds outline text base (.object properties ignored flag))
    (hkeys : Spells keys names) (optional : Bool) (more : List TypeExpr) :
    place.resolve outline optional (.generic text "Omit" (base :: keys :: more)) =
      some (.object (properties.filter fun p => !names.contains p.1) ignored optional) := by
  rw [h.resolve_edited optional "Omit" _ (omitKeys keys.literalKeys · optional) rfl, hkeys.literalKeys_eq]
  rfl

theorem Place.Holds.resolve_pick (h : place.Holds outline text base (.object properties ignored flag))
    (hkeys : Spells keys names) (optional : Bool) (more : List TypeExpr) :
    place.resolve outline optional (.generic text "Pick" (base :: keys :: more)) =
      some (.object (Schema.pickedProperties names properties) ignored optional) := by
  rw [h.resolve_edited optional "Pick" _ (pickKeys keys.literalKeys · optional) rfl, hkeys.literalKeys_eq]
  rfl

theorem Place.Holds.resolve_partial (h : place.Holds outline text base (.object properties ignored flag))
    (optional : Bool) (more : List TypeExpr) :
    place.resolve outline optional (.generic text "Partial" (base :: more)) =
      some (.object (Schema.madeOptional properties) ignored optional) :=
  h.resolve_edited optional "Partial" _ (makePartial · optional) rfl

/-! ## Utility types of an object type -/

/-- Wherever a type stands for an object, `Omit` and `Pick` with the same keys share its properties out, and
lenient findings with them, and `Partial` leaves out what is found about its own properties being absent. All
three ignore what the object ignores. -/
theorem utilities_of_object {omitPlace pickPlace partialPlace : Place} {omitText pickText partialText : String}
    (hkeys : Spells keys names)
    (homit : omitPlace.Holds outline omitText base (.object properties ignored flag))
    (hpick : pickPlace.Holds outline pickText base (.object properties ignored flag))
    (hpartial : partialPlace.Holds outline partialText base (.object properties ignored flag))
    (optional : Bool) (more : List TypeExpr) :
    ∃ omitted picked partly : List (String × Schema),
      omitPlace.resolve outline optional (.generic omitText "Omit" (base :: keys :: more)) =
        some (.object omitted ignored optional) ∧
      pickPlace.resolve outline optional (.generic pickText "Pick" (base :: keys :: more)) =
        some (.object picked ignored optional) ∧
      partialPlace.resolve outline optional (.generic partialText "Partial" (base :: more)) =
        some (.object partly ignored optional) ∧
      Schema.SharedOut properties names omitted picked ∧
      (∀ front members,
        ((Schema.object properties ignored flag).validate .lenient front (some (.object members))).Perm
          ((Schema.object omitted ignored optional).validate .lenient front (some (.object members)) ++
            (Schema.object picked ignored optional).validate .lenient front (some (.object members)))) ∧
      ∀ mode front value, (Schema.object partly ignored optional).validate mode front (some value) =
        (((Schema.object properties ignored flag).findings mode value).filter
          fun f => !Schema.lacksAny (Record.keys properties) f).map (Finding.issue front) := by
  have hnames : (Record.keys properties).Nodup := by
    cases homit.distinctNames
    assumption
  have hshared := Schema.sharedOut hnames names
  refine ⟨_, _, _, homit.resolve_omit hkeys optional more, hpick.resolve_pick hkeys optional more,
    hpartial.resolve_partial optional more, hshared, fun front members => ?_, fun mode front value => ?_⟩
  · have hperm := (hshared.findings_perm ignored optional flag members).map (Finding.issue front)
    rwa [List.map_append] at hperm
  · exact congrArg (List.map (Finding.issue front)) (Schema.findings_madeOptional mode optional value)

/-! ## Some keys of a card -/

def cardInterface : Interface :=
  ⟨"Card", [], [⟨"id", false, some (.predefined "string"), false⟩,
    ⟨"image", false, some (.object "{ width: number }"
      [⟨"width", false, some (.predefined "number"), false⟩]), false⟩,
    ⟨"label", true, none, false⟩, ⟨"draft", false, none, true⟩]⟩

def cardFile : Outline := ⟨[], [⟨0, false, .interface cardInterface⟩]⟩

def cardProperties : List (String × Schema) :=
  [("id", .primitive .string false), ("image", .object [("width", .primitive .number false)] [] false),
    ("label", .any true)]

/-- `"label" | "color" | "id" | "label"` -/
def cardKeys : TypeExpr :=
  .union "\"label\" | \"color\" | \"id\" | \"label\""
    (["\"label\"", "\"color\"", "\"id\"", "\"label\""].map .stringLiteral)

def cardPlace : Place := ⟨4, ["{ card: Card }"]⟩

/-- One key is no property of the card, and another one is written twice. -/
theorem utilities_of_card :
    Spells cardKeys ["label", "color", "id", "label"] ∧
    cardPlace.Holds cardFile "Omit<Card, Keys>" (.named "Card") (.object cardProperties ["draft"] false) ∧
    cardPlace.Holds cardFile "Pick<Card, Keys>" (.named "Card") (.object cardProperties ["draft"] false) ∧
    cardPlace.Holds cardFile "Partial<Card>" (.named "Card") (.object cardProperties ["draft"] false) ∧
    ∃ omitted picked partly : List (String × Schema),
      cardPlace.resolve cardFile true (.generic "Omit<Card, Keys>" "Omit" [.named "Card", cardKeys]) =
        some (.object omitted ["draft"] true) ∧
      cardPlace.resolve cardFile true (.generic "Pick<Card, Keys>" "Pick" [.named "Card", cardKeys]) =
        some (.object picked ["draft"] true) ∧
      cardPlace.resolve cardFile true (.generic "Partial<Card>" "Partial" [.named "Card"]) =
        some (.object partly ["draft"] true) ∧
      Schema.SharedOut cardProperties ["label", "color", "id", "label"] omitted picked ∧
      Record.keys picked = ["label", "id"] := by
  have hkeys : Spells cardKeys ["label", "color", "id", "label"] := .several _ _
  have homit : cardPlace.Holds cardFile "Omit<Card, Keys>" (.named "Card")
      (.object cardProperties ["draft"] false) := ⟨by decide, rfl⟩
  have hpick : cardPlace.Holds cardFile "Pick<Card, Keys>" (.named "Card")
      (.object cardProperties ["draft"] false) := ⟨by decide, rfl⟩
  have hpartial : cardPlace.Holds cardFile "Partial<Card>" (.named "Card")
      (.object cardProperties ["draft"] false) := ⟨by decide, rfl⟩
  refine ⟨hkeys, homit, hpick, hpartial, ?_⟩
  obtain ⟨omitted, picked, partly, homitted, hpicked, hpartly, hshared, -⟩ :=
    utilities_of_object hkeys homit hpick hpartial true []
  exact ⟨omitted, picked, partly, homitted, hpicked, hpartly, hshared, hshared.keys_picked.trans (by decide)⟩

end Props

end BlockCheck
