import BlockCheck.Proofs.Lists
import BlockCheck.Validation
import Mathlib.Logic.Relation

/-!
# Degraded schemas

What a schema cannot say is left to anything, and what is not known to be required is optional. A
schema that says less in this way never finds more: whatever is found with it was found before, in
the same order and with the same words.
-/

namespace BlockCheck.Schema

open Relation

/-- One part of the schema, at any depth, accepts anything or has become optional. -/
inductive Degrades : Schema → Schema → Prop
  | anything (s : Schema) : Degrades s (.any s.optional)
  | optional (s : Schema) : Degrades s (s.withOptional true)
  | element {s s' : Schema} {optional : Bool} :
      Degrades s s' → Degrades (.array (some s) optional) (.array (some s') optional)
  | property {before after : List (String × Schema)} {name : String} {s s' : Schema}
      {ignored : List String} {optional : Bool} : Degrades s s' →
      Degrades (.object (before ++ (name, s) :: after) ignored optional)
        (.object (before ++ (name, s') :: after) ignored optional)
  | member {before after : List Schema} {s s' : Schema} {optional : Bool} : Degrades s s' →
      Degrades (.union (before ++ s :: after) optional) (.union (before ++ s' :: after) optional)

variable {s s' : Schema}

/-! ## What the flag and the name say -/

theorem findings_withOptional (mode : Mode) (s : Schema) (optional : Bool) (value : Json) :
    (s.withOptional optional).findings mode value = s.findings mode value := by
  cases s <;> rfl

theorem Degrades.describe_eq_or_any (h : Degrades s s') :
    s'.describe = s.describe ∨ ∃ optional, s' = .any optional := by
  cases h with
  | anything s => exact .inr ⟨_, rfl⟩
  | optional s => exact .inl (describe_withOptional true s)
  | element | property | member => exact .inl rfl

theorem Degrades.optional_of (h : Degrades s s') (hs : s.optional = true) : s'.optional = true := by
  cases h with
  | anything s => exact hs
  | optional s => exact optional_withOptional true s
  | element | property | member => exact hs

theorem absentFindings_sublist (h : Degrades s s') :
    s'.absentFindings.Sublist s.absentFindings := by
  unfold absentFindings
  cases hs : s.optional with
  | true => rw [h.optional_of hs]
  | false => split <;> simp

/-! ## What is found -/

theorem check_sublist_of_findings {mode : Mode} (h : Degrades s s')
    (hfindings : ∀ value, (s'.findings mode value).Sublist (s.findings mode value))
    (value : Option Json) : (s'.check mode value).Sublist (s.check mode value) := by
  cases value with
  | none => exact absentFindings_sublist h
  | some value => exact hfindings value

theorem isUnknownKey_congr {properties properties' : List (String × Schema)}
    (h : Record.keys properties = Record.keys properties') (ignored : List String) (key : String) :
    isUnknownKey properties ignored key = isUnknownKey properties' ignored key := by
  have hkey : Record.hasKey key properties = Record.hasKey key properties' := by
    rw [Bool.eq_iff_iff, Record.hasKey_iff, Record.hasKey_iff, h]
  rw [isUnknownKey, isUnknownKey, hkey]

theorem unknownFindings_congr_properties {properties properties' : List (String × Schema)}
    (h : Record.keys properties = Record.keys properties') (mode : Mode) (ignored : List String)
    (members : List (String × Json)) :
    unknownFindings mode properties ignored members =
      unknownFindings mode properties' ignored members := by
  unfold unknownFindings
  simp only [isUnknownKey_congr h]

/-- A union in which one member finds less has no more to find, and finds it in the same words. -/
theorem findings_union_sublist {mode : Mode} {before after : List Schema} {optional : Bool}
    {value : Json} (h : Degrades s s')
    (hfindings : (s'.findings mode value).Sublist (s.findings mode value)) :
    ((Schema.union (before ++ s' :: after) optional).findings mode value).Sublist
      ((Schema.union (before ++ s :: after) optional).findings mode value) := by
  have haccepts : ∀ t, anyAccepts mode (before ++ t :: after) value =
      (anyAccepts mode before value || ((t.findings mode value).isEmpty ||
        anyAccepts mode after value)) := by
    intro t
    simp only [anyAccepts_eq, List.any_append, List.any_cons]
  have hnonempty : ∀ t, (before ++ t :: after).isEmpty = false := by simp
  simp only [findings, hnonempty, Bool.false_or, haccepts]
  cases hnil' : (s'.findings mode value).isEmpty with
  | true => simp
  | false =>
    have hnil : (s.findings mode value).isEmpty = false := by
      rw [List.isEmpty_eq_false_iff] at hnil' ⊢
      exact fun hs => hnil' (List.sublist_nil.1 (hs ▸ hfindings))
    -- The member still refuses the value, so it is not one that accepts anything.
    have hname : s'.describe = s.describe := by
      rcases h.describe_eq_or_any with hname | ⟨optional, rfl⟩
      · exact hname
      · cases hnil'
    rw [hnil, List.map_append, List.map_append, List.map_cons, List.map_cons, hname]

theorem findings_sublist_of_degrades (mode : Mode) (h : Degrades s s') :
    ∀ value, (s'.findings mode value).Sublist (s.findings mode value) := by
  induction h with
  | anything s =>
    intro value
    exact List.nil_sublist _
  | optional s =>
    intro value
    rw [findings_withOptional]
  | element h ih =>
    intro value
    cases value with
    | array items =>
      simp only [findings, elementFindings_some]
      exact List.Sublist.flatMap_right _ fun item _ => (ih item.1).map _
    | _ => exact .refl _
  | @property before after name s s' ignored optional h ih =>
    intro value
    cases value with
    | object members =>
      have hkeys : Record.keys (before ++ (name, s') :: after) =
          Record.keys (before ++ (name, s) :: after) := by simp [Record.keys]
      simp only [findings, propertyFindings_eq, unknownFindings_congr_properties hkeys,
        List.flatMap_append, List.flatMap_cons]
      refine .append_right (.append_left (.append_right ?_ _) _) _
      exact (check_sublist_of_findings h ih (members.lookup name)).map _
    | _ => exact .refl _
  | member h ih =>
    intro value
    exact findings_union_sublist h (ih value)

/-- With parts of the schema given up, any number of them and at any depth, what is reported of a
value is a part of what was reported before. -/
theorem validate_sublist_of_degrades (h : ReflTransGen Degrades s s') (mode : Mode) (base : String)
    (value : Option Json) : (s'.validate mode base value).Sublist (s.validate mode base value) := by
  apply List.Sublist.map
  induction h with
  | refl => exact .refl _
  | tail _ hstep ih =>
    have hlast := check_sublist_of_findings hstep (findings_sublist_of_degrades mode hstep) value
    exact hlast.trans ih

/-! ## A page that is understood in part

The page is `{ cover: { title: string } | number; size: number }`. In part, the title of its cover may
be anything and may be left out, and so may the size.
-/

def page (title size : Schema) : Schema :=
  .object [("cover", .union [.object [("title", title)] [] false, .primitive .number false] false),
    ("size", size)] [] false

def pageInFull : Schema := page (.primitive .string false) (.primitive .number false)

def pageInPart : Schema := page (.any true) (.primitive .number true)

theorem degrades_page_title {title title' size : Schema} (h : Degrades title title') :
    Degrades (page title size) (page title' size) := by
  have hobject : Degrades (.object [("title", title)] [] false) (.object [("title", title')] [] false) :=
    @Degrades.property [] [] _ _ _ _ _ h
  have hunion := @Degrades.member [] [.primitive .number false] _ _ false hobject
  exact @Degrades.property [] [("size", size)] _ _ _ _ _ hunion

theorem degrades_page_size {title size size' : Schema} (h : Degrades size size') :
    Degrades (page title size) (page title size') :=
  @Degrades.property [("cover", _)] [] _ _ _ _ _ h

theorem degrades_page : ReflTransGen Degrades pageInFull pageInPart := by
  have hany : Degrades pageInFull (page (.any false) (.primitive .number false)) :=
    degrades_page_title (.anything _)
  have htitle : Degrades (page (.any false) (.primitive .number false))
      (page (.any true) (.primitive .number false)) := degrades_page_title (.optional (.any false))
  have hsize : Degrades (page (.any true) (.primitive .number false)) pageInPart :=
    degrades_page_size (.optional (.primitive .number false))
  exact .tail (.tail (.single hany) htitle) hsize

/-- A cover without a title fits no member of the union until titles may be left out. -/
theorem validate_page_sublist :
    let untitled : Json := .object [("cover", .object []), ("shade", .null)]
    ReflTransGen Degrades pageInFull pageInPart ∧
    pageInFull.validate .strict "page" (some untitled) =
      [⟨"page.cover", .noUnionMember ["object", "number"]⟩, ⟨"page.size", .missing⟩,
        ⟨"page.shade", .unknownProperty⟩] ∧
    pageInPart.validate .strict "page" (some untitled) = [⟨"page.shade", .unknownProperty⟩] ∧
    (pageInPart.validate .strict "page" (some untitled)).Sublist
      (pageInFull.validate .strict "page" (some untitled)) := by
  intro untitled
  refine ⟨degrades_page, by decide, by decide, ?_⟩
  exact validate_sublist_of_degrades degrades_page .strict "page" (some untitled)

end BlockCheck.Schema
