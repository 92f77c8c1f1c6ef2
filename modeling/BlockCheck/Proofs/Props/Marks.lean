import BlockCheck.Proofs.Props.Questions
import BlockCheck.Validation

/-!
# Schemas with marks

A mark stands where a resolution came upon a declaration that it was resolving already. It is written
as a platform type that no source can name, so that it takes part in the rules like any other schema
and can be filled in afterwards.
-/

namespace BlockCheck.Props

open Source

/-- Marks a position that is filled with anything. -/
def anyMark : String := "met again"

/-- Marks a position where an interface was met again by a text that was not on the way. -/
def emptyMark : String := "met again by another text"

/-- What the second mark is filled with: an object without properties, as the resolution has it, or
anything. -/
inductive Filling where
  | emptyObject
  | anything

def Filling.schema : Filling → Bool → Schema
  | .emptyObject, optional => .object [] [] optional
  | .anything, optional => .any optional

mutual

def fill (filling : Filling) : Schema → Schema
  | .special tag optional =>
    if tag = anyMark then .any optional
    else if tag = emptyMark then filling.schema optional
    else .special tag optional
  | .array element optional => .array (fillOption filling element) optional
  | .object properties ignored optional => .object (fillProperties filling properties) ignored optional
  | .union members optional => .union (fillList filling members) optional
  | .primitive type optional => .primitive type optional
  | .any optional => .any optional

def fillOption (filling : Filling) : Option Schema → Option Schema
  | none => none
  | some s => some (fill filling s)

def fillList (filling : Filling) : List Schema → List Schema
  | [] => []
  | s :: rest => fill filling s :: fillList filling rest

def fillProperties (filling : Filling) : List (String × Schema) → List (String × Schema)
  | [] => []
  | p :: rest => fillProperty filling p :: fillProperties filling rest

def fillProperty (filling : Filling) : String × Schema → String × Schema
  | (name, s) => (name, fill filling s)

end

section Fill

variable (filling : Filling)

@[simp] theorem fill_array (element : Option Schema) (optional : Bool) :
    fill filling (.array element optional) = .array (element.map (fill filling)) optional := by
  cases element <;> rfl

@[simp] theorem fill_object (properties : List (String × Schema)) (ignored : List String)
    (optional : Bool) :
    fill filling (.object properties ignored optional) =
      .object (properties.map fun p => (p.1, fill filling p.2)) ignored optional := by
  have hproperties : ∀ ps, fillProperties filling ps = ps.map fun p => (p.1, fill filling p.2) := by
    intro ps
    induction ps with
    | nil => rfl
    | cons p rest ih => rw [fillProperties, ih, fillProperty, List.map_cons]
  rw [fill, hproperties]

@[simp] theorem fill_union (members : List Schema) (optional : Bool) :
    fill filling (.union members optional) = .union (members.map (fill filling)) optional := by
  have hmembers : ∀ ms, fillList filling ms = ms.map (fill filling) := by
    intro ms
    induction ms with
    | nil => rfl
    | cons s rest ih => rw [fillList, ih, List.map_cons]
  rw [fill, hmembers]

@[simp] theorem fill_any (optional : Bool) : fill filling (.any optional) = .any optional := rfl

@[simp] theorem fill_primitive (type : Primitive) (optional : Bool) :
    fill filling (.primitive type optional) = .primitive type optional := rfl

@[simp] theorem fill_anyMark (optional : Bool) :
    fill filling (.special anyMark optional) = .any optional := rfl

@[simp] theorem fill_emptyMark (optional : Bool) :
    fill filling (.special emptyMark optional) = filling.schema optional := rfl

theorem fill_special {tag : String} (h : Schema.specialTags.contains tag) (optional : Bool) :
    fill filling (.special tag optional) = .special tag optional := by
  have hmarks : ∀ mark ∈ [anyMark, emptyMark], ¬Schema.specialTags.contains mark := by decide
  have hany : tag ≠ anyMark := fun heq => hmarks anyMark (by simp) (heq ▸ h)
  have hempty : tag ≠ emptyMark := fun heq => hmarks emptyMark (by simp) (heq ▸ h)
  rw [fill, if_neg hany, if_neg hempty]

theorem fill_withOptional (s : Schema) (optional : Bool) :
    fill filling (s.withOptional optional) = (fill filling s).withOptional optional := by
  cases s with
  | special tag o =>
    simp only [Schema.withOptional, fill]
    split
    · rfl
    split
    · cases filling <;> rfl
    · rfl
  | array element o => simp [Schema.withOptional]
  | object properties ignored o => simp [Schema.withOptional]
  | union members o => simp [Schema.withOptional]
  | primitive type o => rfl
  | any o => rfl

theorem fill_utility {utility : Schema → Bool → Schema}
    (change : List (String × Schema) → List (String × Schema))
    (hobject : ∀ properties ignored o optional, utility (.object properties ignored o) optional =
      .object (change properties) ignored optional)
    (hother : ∀ s optional, (∀ properties ignored o, s ≠ .object properties ignored o) →
      utility s optional = s.withOptional optional)
    (hnil : change [] = [])
    (hmap : ∀ properties, change (properties.map fun p => (p.1, fill filling p.2)) =
      (change properties).map fun p => (p.1, fill filling p.2))
    (s : Schema) (optional : Bool) :
    utility (fill filling s) optional = fill filling (utility s optional) := by
  cases s with
  | object properties ignored o => rw [fill_object, hobject, hobject, hmap, fill_object]
  | special tag o =>
    rw [hother (.special tag o) optional nofun, fill_withOptional]
    simp only [fill]
    split
    · exact hother _ _ nofun
    split
    · cases filling with
      | emptyObject =>
        rw [Filling.schema, hobject, hnil]
        rfl
      | anything => exact hother _ _ nofun
    · exact hother _ _ nofun
  | array element o =>
    rw [hother (.array element o) optional nofun, fill_withOptional, fill_array]
    exact hother _ _ nofun
  | union members o =>
    rw [hother (.union members o) optional nofun, fill_withOptional, fill_union]
    exact hother _ _ nofun
  | primitive type o =>
    rw [hother (.primitive type o) optional nofun, fill_withOptional]
    exact hother _ _ nofun
  | any o =>
    rw [hother (.any o) optional nofun, fill_withOptional]
    exact hother _ _ nofun

theorem omitKeys_of_not_object (keys : List String) (s : Schema) (optional : Bool)
    (h : ∀ properties ignored o, s ≠ .object properties ignored o) :
    omitKeys keys s optional = s.withOptional optional := by
  cases s with
  | object properties ignored o => exact absurd rfl (h properties ignored o)
  | _ => rfl

theorem pickKeys_of_not_object (keys : List String) (s : Schema) (optional : Bool)
    (h : ∀ properties ignored o, s ≠ .object properties ignored o) :
    pickKeys keys s optional = s.withOptional optional := by
  cases s with
  | object properties ignored o => exact absurd rfl (h properties ignored o)
  | _ => rfl

theorem makePartial_of_not_object (s : Schema) (optional : Bool)
    (h : ∀ properties ignored o, s ≠ .object properties ignored o) :
    makePartial s optional = s.withOptional optional := by
  cases s with
  | object properties ignored o => exact absurd rfl (h properties ignored o)
  | _ => rfl

theorem lookup_map_snd {α β : Type} (f : α → β) (key : String) (record : List (String × α)) :
    (record.map fun m => (m.1, f m.2)).lookup key = (record.lookup key).map f := by
  induction record with
  | nil => rfl
  | cons m rest ih =>
    rw [List.map_cons, List.lookup_cons, List.lookup_cons]
    cases key == m.1
    · exact ih
    · rfl

theorem fill_omitKeys (keys : List String) (s : Schema) (optional : Bool) :
    omitKeys keys (fill filling s) optional = fill filling (omitKeys keys s optional) :=
  fill_utility filling (List.filter fun p => !keys.contains p.1) (fun _ _ _ _ => rfl) (omitKeys_of_not_object keys) rfl
    (fun _ => List.filter_map) s optional

theorem fill_pickKeys (keys : List String) (s : Schema) (optional : Bool) :
    pickKeys keys (fill filling s) optional = fill filling (pickKeys keys s optional) := by
  refine fill_utility filling
    (fun ps => keys.eraseDups.filterMap fun k => (ps.lookup k).map fun p => (k, p))
    (fun _ _ _ _ => rfl) (pickKeys_of_not_object keys) ?_ (fun ps => ?_) s optional
  · simp
  · simp only [lookup_map_snd, List.map_filterMap, Option.map_map]
    rfl

theorem fill_makePartial (s : Schema) (optional : Bool) :
    makePartial (fill filling s) optional = fill filling (makePartial s optional) := by
  refine fill_utility filling (fun ps => ps.map fun p => (p.1, p.2.withOptional true))
    (fun _ _ _ _ => rfl) makePartial_of_not_object rfl (fun ps => ?_) s optional
  simp [fill_withOptional]

end Fill

/-! ## Filled members -/

def Members.fill (filling : Filling) (members : Members) : Members :=
  { members with properties := members.properties.map fun p => (p.1, Props.fill filling p.2) }

def Answers.fill (filling : Filling) (a : Answers) : Answers where
  type optional t := (a.type optional t).map (Props.fill filling)
  interface i := (a.interface i).map (Members.fill filling)

section FillMembers

variable (filling : Filling) (members more : Members)

theorem insert_map_snd {α β : Type} (f : α → β) (key : String) (value : α)
    (record : List (String × α)) :
    Record.insert key (f value) (record.map fun m => (m.1, f m.2)) =
      (Record.insert key value record).map fun m => (m.1, f m.2) := by
  induction record with
  | nil => rfl
  | cons m rest ih =>
    rw [List.map_cons, Record.insert, Record.insert, ih]
    split <;> rfl

theorem fill_addProperty (name : String) (s : Schema) :
    (members.fill filling).addProperty name (fill filling s) =
      (members.addProperty name s).fill filling := by
  simp [Members.fill, Members.addProperty, insert_map_snd]

theorem fill_addIgnored (name : String) :
    (members.fill filling).addIgnored name = (members.addIgnored name).fill filling := rfl

theorem fill_extend :
    (members.fill filling).extend (more.fill filling) = (members.extend more).fill filling := by
  have hinsert : ∀ (ps qs : List (String × Schema)),
      Record.insertAll (ps.map fun p => (p.1, fill filling p.2))
        (qs.map fun p => (p.1, fill filling p.2)) =
      (Record.insertAll ps qs).map fun p => (p.1, fill filling p.2) := by
    intro ps
    induction ps with
    | nil => exact fun _ => rfl
    | cons p rest ih =>
      intro qs
      have hfirst := insert_map_snd (fill filling) p.1 p.2 qs
      rw [List.map_cons, Record.insertAll, List.foldl_cons, hfirst]
      exact ih _
  simp [Members.fill, Members.extend, hinsert]

theorem fill_settled : (members.fill filling).settled = members.settled.fill filling := by
  have hkey : ∀ name, Record.hasKey name (members.properties.map fun p => (p.1, fill filling p.2)) =
      Record.hasKey name members.properties := by
    intro name
    simp [Record.hasKey, List.any_map, Function.comp_def]
  simp [Members.fill, Members.settled, hkey]

theorem fill_schema (optional : Bool) :
    (members.fill filling).schema optional = fill filling (members.schema optional) := by
  rw [Members.schema, Members.schema, fill_object]
  rfl

theorem fill_addMembers (a : Answers) (properties : List Property) :
    addMembers (a.fill filling).type (members.fill filling) properties =
      (addMembers a.type members properties).map (Members.fill filling) := by
  induction properties generalizing members with
  | nil => rfl
  | cons p rest ih =>
    unfold addMembers
    split
    · rw [fill_addIgnored, ih]
    · split
      · have hadd := fill_addProperty filling members p.name (.any p.optional)
        rw [fill_any] at hadd
        rw [hadd, ih]
      · rename_i t _
        have hadd := fill_addProperty filling members p.name
        change ((a.type p.optional t).map (fill filling)).bind _ = _
        cases a.type p.optional t with
        | none => rfl
        | some s =>
          rw [Option.map_some, Option.bind_some, hadd]
          exact ih _

theorem fill_inherit (outline : Outline) (a : Answers) (bases : List String) :
    inherit outline (a.fill filling).interface (members.fill filling) bases =
      (inherit outline a.interface members bases).map (Members.fill filling) := by
  induction bases generalizing members with
  | nil => rfl
  | cons base rest ih =>
    unfold inherit
    split
    · exact ih members
    · rename_i i _
      change ((a.interface i).map (Members.fill filling)).bind _ = _
      cases a.interface i with
      | none => rfl
      | some more =>
        rw [Option.map_some, Option.bind_some, fill_extend]
        exact ih _

end FillMembers

/-! ## Filled steps -/

section FillStep

variable (filling : Filling) (outline : Outline) (a : Answers)

theorem fill_ofMeaning {name : String} {m : Meaning} (optional : Bool)
    (h : m = .special → Schema.specialTags.contains name) :
    ofMeaning (a.fill filling) optional name m =
      (ofMeaning a optional name m).map (fill filling) := by
  cases m with
  | special => rw [ofMeaning, ofMeaning, Option.map_some, fill_special filling (h rfl)]
  | unknown => rfl
  | omitted base keys =>
    simp [ofMeaning, Answers.fill, Function.comp_def, fill_omitKeys]
  | picked base keys =>
    simp [ofMeaning, Answers.fill, Function.comp_def, fill_pickKeys]
  | partly base => simp [ofMeaning, Answers.fill, Function.comp_def, fill_makePartial]
  | list element => simp [ofMeaning, Answers.fill, Function.comp_def]
  | interface i => simp [ofMeaning, Answers.fill, Function.comp_def, fill_schema]
  | typeAlias value => rfl

theorem contains_of_meaning_special {name : String} {arguments : List TypeExpr}
    (h : meaning outline name arguments = .special) : Schema.specialTags.contains name := by
  unfold meaning at h
  split at h
  · assumption
  · split at h <;> try cases h
    split at h
    · cases h
    · split at h <;> cases h

theorem fill_mapM (operands : List TypeExpr) :
    operands.mapM ((a.fill filling).type false) =
      (operands.mapM (a.type false)).map (List.map (fill filling)) := by
  induction operands with
  | nil => rfl
  | cons t rest ih =>
    rw [List.mapM_cons, List.mapM_cons, ih]
    simp only [Answers.fill]
    cases a.type false t with
    | none => rfl
    | some s => cases rest.mapM (a.type false) <;> rfl

theorem fill_typeStep (optional : Bool) (t : TypeExpr) :
    typeStep outline (a.fill filling) optional t =
      (typeStep outline a optional t).map (fill filling) := by
  cases t with
  | predefined text =>
    rw [typeStep, typeStep, Option.map_some]
    unfold predefined
    split <;> rfl
  | null | stringLiteral | other => rfl
  | array _ element => simp [typeStep, Answers.fill, Function.comp_def]
  | union _ operands => simp [typeStep, fill_mapM, Function.comp_def]
  | object _ properties =>
    have hmembers := fill_addMembers filling .empty a properties
    rw [show Members.empty.fill filling = .empty from rfl] at hmembers
    simp [typeStep, hmembers, Function.comp_def, fill_schema]
  | parenthesized _ content => rfl
  | named name => exact fill_ofMeaning filling a optional (contains_of_meaning_special outline)
  | generic _ name arguments =>
    exact fill_ofMeaning filling a optional (contains_of_meaning_special outline)

theorem fill_interfaceStep (i : Interface) :
    interfaceStep outline (a.fill filling) i =
      (interfaceStep outline a i).map (Members.fill filling) := by
  have hbases := fill_inherit filling .empty outline a i.bases
  have hmembers := fill_addMembers filling .empty a i.properties
  rw [show Members.empty.fill filling = .empty from rfl] at hbases hmembers
  rw [interfaceStep, interfaceStep, hbases, hmembers]
  cases inherit outline a.interface .empty i.bases with
  | none => rfl
  | some inherited =>
    cases addMembers a.type .empty i.properties with
    | none => rfl
    | some own => simp [fill_extend, fill_settled]

/-- Filling in before a step is filling in after it. -/
theorem step_fill : step outline (a.fill filling) = (step outline a).fill filling := by
  unfold step Answers.fill
  congr 1
  · funext optional t
    exact fill_typeStep filling outline a optional t
  · funext i
    exact fill_interfaceStep filling outline a i

end FillStep

end BlockCheck.Props
