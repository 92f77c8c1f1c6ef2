import BlockCheck.Issue
import BlockCheck.Location
import BlockCheck.Record
import BlockCheck.Schema

/-!
# Validation of a value against a schema

The findings of a value: each is a problem at a location inside the value. They come in the
order of a walk, the declared properties of an object first and its unknown keys after them.
-/

namespace BlockCheck

def discriminator : String := "__resolveType"

/-- Keys that start so are never unknown. -/
def reservedStart : String := "__"

/-- Whether keys that a schema does not declare are reported. -/
inductive Mode where
  | strict
  | lenient
deriving DecidableEq, Repr

structure Finding where
  location : Location
  problem : Problem
deriving DecidableEq, Repr

namespace Finding

def here (problem : Problem) : Finding := ⟨[], problem⟩

/-- The same problem seen from one step above. -/
def under (step : Step) (finding : Finding) : Finding :=
  { finding with location := step :: finding.location }

/-- The finding as an issue, with its location written onto `base`. -/
def issue (base : String) (finding : Finding) : Issue :=
  ⟨finding.location.extend base, finding.problem⟩

end Finding

namespace Json

/-- Every value but null, false, zero and the empty text; empty lists and objects count too. -/
def truthy : Json → Bool
  | .null => false
  | .bool b => b
  | .int n => n ≠ 0
  | .real x => !x.isZero
  | .string s => !s.isEmpty
  | .array _ | .object _ => true

/-- The value at `key` is there and truthy. -/
def truthyAt (key : String) (value : Json) : Bool := ((value.get? key).map truthy).getD false

def listAt (key : String) (value : Json) : Bool :=
  match value.get? key with
  | some (.array _) => true
  | _ => false

end Json

namespace Schema

def textTags : List String := ["ImageWidget", "RichText", "Color", "DateWidget", "DateTimeWidget"]

def recordTags : List String := ["Product", "ProductListingPage", "ProductDetailsPage"]

/-- What a record type of the platform asks of the object. A list has none of the fields. -/
def recordFindings (tag : String) (value : Json) : List Finding :=
  if tag = "Product" then
    if value.truthyAt "productID" || value.truthyAt "sku" then []
    else [⟨[.key "productID"], .productWithoutIdentity⟩]
  else if tag = "ProductListingPage" then
    if value.listAt "products" then [] else [.here .listingWithoutProducts]
  else
    if value.truthyAt "product" then [] else [.here .detailsWithoutProduct]

/-- The rules of the platform's own types; a tag without a rule accepts everything. -/
def specialFindings (tag : String) (value : Json) : List Finding :=
  if tag ∈ textTags then
    match value with
    | .string _ => []
    | _ => [.here (.notText tag value.kind)]
  else if tag ∈ recordTags then
    match value with
    | .object _ | .array _ => recordFindings tag value
    | _ => [.here (.notObject tag value.kind)]
  else []

def primitiveFindings (type : Primitive) (value : Json) : List Finding :=
  match type, value with
  | .string, .string _ | .number, .int _ | .number, .real _ | .boolean, .bool _ | .null, .null => []
  | _, _ => [.here (.mismatch type.name value.kind)]

/-- The key is one that a strict run reports. -/
def isUnknownKey (properties : List (String × Schema)) (ignored : List String) (key : String) : Bool :=
  !Text.startsWith key reservedStart && !Record.hasKey key properties && !ignored.contains key

def unknownFindings (mode : Mode) (properties : List (String × Schema)) (ignored : List String)
    (members : List (String × Json)) : List Finding :=
  match mode with
  | .lenient => []
  | .strict =>
    (members.filter (fun m => isUnknownKey properties ignored m.1)).map
      (fun m => ⟨[.key m.1], .unknownProperty⟩)

def absentFindings (s : Schema) : List Finding := if s.optional then [] else [.here .missing]

mutual

def findings (mode : Mode) : Schema → Json → List Finding
  | .any _, _ => []
  | .primitive type _, value => primitiveFindings type value
  | .array element _, value =>
    match value with
    | .array items => elementFindings mode element items
    | .object members =>
      -- A reference stands for the list that it will be replaced by.
      if (members.lookup discriminator).isSome then []
      else [.here (.mismatch "array" value.kind)]
    | _ => [.here (.mismatch "array" value.kind)]
  | .object properties ignored _, value =>
    match value with
    | .object members =>
      propertyFindings mode properties members ++ unknownFindings mode properties ignored members
    | _ => [.here (.mismatch "object" value.kind)]
  | .union members _, value =>
    if members.isEmpty || anyAccepts mode members value then []
    else [.here (.noUnionMember (members.map describe))]
  | .special tag _, value => specialFindings tag value

def elementFindings (mode : Mode) : Option Schema → List Json → List Finding
  | none, _ => []
  | some element, items =>
    (items.zipIdx.map (fun item => (findings mode element item.1).map (Finding.under (.index item.2)))).flatten

def propertyFindings (mode : Mode) :
    List (String × Schema) → List (String × Json) → List Finding
  | [], _ => []
  | property :: rest, members =>
    singlePropertyFindings mode property members ++ propertyFindings mode rest members

def singlePropertyFindings (mode : Mode) :
    String × Schema → List (String × Json) → List Finding
  | (name, s), members =>
    (match members.lookup name with
      | none => absentFindings s
      | some value => findings mode s value).map (Finding.under (.key name))

def anyAccepts (mode : Mode) : List Schema → Json → Bool
  | [], _ => false
  | s :: rest, value => (findings mode s value).isEmpty || anyAccepts mode rest value

end

def check (mode : Mode) (s : Schema) : Option Json → List Finding
  | none => s.absentFindings
  | some value => s.findings mode value

/-- The issues of a value that stands at the written location `base`. -/
def validate (mode : Mode) (base : String) (s : Schema) (value : Option Json) : List Issue :=
  (s.check mode value).map (Finding.issue base)

theorem elementFindings_some (mode : Mode) (element : Schema) (items : List Json) :
    elementFindings mode (some element) items =
      items.zipIdx.flatMap fun item =>
        (findings mode element item.1).map (Finding.under (.index item.2)) := by
  rw [elementFindings, List.flatMap_def]

theorem propertyFindings_eq (mode : Mode) (properties : List (String × Schema))
    (members : List (String × Json)) :
    propertyFindings mode properties members =
      properties.flatMap fun p =>
        (check mode p.2 (members.lookup p.1)).map (Finding.under (.key p.1)) := by
  induction properties with
  | nil => rfl
  | cons p rest ih =>
    rw [propertyFindings, ih, List.flatMap_cons, singlePropertyFindings]
    cases members.lookup p.1 <;> rfl

theorem unknownFindings_strict (properties : List (String × Schema)) (ignored : List String)
    (members : List (String × Json)) :
    unknownFindings .strict properties ignored members =
      ((Record.keys members).filter (isUnknownKey properties ignored)).map
        fun key => ⟨[.key key], .unknownProperty⟩ := by
  rw [unknownFindings, Record.keys, List.filter_map, List.map_map]
  rfl

theorem anyAccepts_eq (mode : Mode) (members : List Schema) (value : Json) :
    anyAccepts mode members value = members.any fun s => (findings mode s value).isEmpty := by
  induction members with
  | nil => rfl
  | cons s rest ih => rw [anyAccepts, ih, List.any_cons]

end Schema

end BlockCheck
