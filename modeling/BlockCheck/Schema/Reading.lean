import BlockCheck.Json
import BlockCheck.Schema

/-!
# Schemas written as JSON

An object whose `kind` names the shape. A field that the shape does not have is refused, as is a
value of the wrong type; a flag may also be written as zero or one or by one of the usual words.
-/

namespace BlockCheck

namespace Json

def trueWords : List String := ["1", "on", "t", "true", "y", "yes"]

def falseWords : List String := ["0", "off", "f", "false", "n", "no"]

def flag? : Json → Option Bool
  | .bool b => some b
  | .int 0 => some false
  | .int 1 => some true
  | .real x =>
    if x.isZero then some false
    else if x = Number.Binary64.ofDecimal false 1 0 then some true
    else none
  | .string s =>
    if s.toLower ∈ trueWords then some true
    else if s.toLower ∈ falseWords then some false
    else none
  | _ => none

def strings? : Json → Option (List String)
  | .array items => items.mapM string?
  | _ => none

def hasOnly (keys : List String) (members : List (String × Json)) : Bool :=
  members.all (fun m => keys.contains m.1)

end Json

namespace Schema

def optionalOf? (members : List (String × Json)) : Option Bool :=
  match members.lookup "optional" with
  | none => some false
  | some flag => flag.flag?

/-- Each name once, in the order of first mention. -/
def distinct (names : List String) : List String := names.eraseDups

def primitiveOf? (members : List (String × Json)) : Option Schema := do
  guard (Json.hasOnly ["kind", "type", "optional"] members)
  let name ← (members.lookup "type").bind Json.string?
  return .primitive (← Primitive.ofName? name) (← optionalOf? members)

def specialOf? (members : List (String × Json)) : Option Schema := do
  guard (Json.hasOnly ["kind", "tag", "optional"] members)
  return .special (← (members.lookup "tag").bind Json.string?) (← optionalOf? members)

def anyOf? (members : List (String × Json)) : Option Schema := do
  guard (Json.hasOnly ["kind", "optional"] members)
  return .any (← optionalOf? members)

def ignoredOf? (members : List (String × Json)) : Option (List String) :=
  match members.lookup "ignored" with
  | none => some []
  | some names => names.strings?.map distinct

/-- The schema that a value writes; the first argument bounds how deep it may be nested. -/
def ofJsonWithin : Nat → Json → Option Schema
  | 0, _ => none
  | depth + 1, value =>
    match value with
    | .object members =>
      match (members.lookup "kind").bind Json.string? with
      | some "primitive" => primitiveOf? members
      | some "special" => specialOf? members
      | some "any" => anyOf? members
      | some "array" => do
        guard (Json.hasOnly ["kind", "element_type", "optional"] members)
        let element ← match members.lookup "element_type" with
          | none | some .null => some none
          | some element => (ofJsonWithin depth element).map some
        return .array element (← optionalOf? members)
      | some "object" => do
        guard (Json.hasOnly ["kind", "properties", "ignored", "optional"] members)
        let properties ← match members.lookup "properties" with
          | none => some []
          | some (.object properties) =>
            properties.mapM (fun p => (ofJsonWithin depth p.2).map (fun s => (p.1, s)))
          | some _ => none
        return .object properties (← ignoredOf? members) (← optionalOf? members)
      | some "union" => do
        guard (Json.hasOnly ["kind", "members", "optional"] members)
        let alternatives ← match members.lookup "members" with
          | none => some []
          | some (.array items) => items.mapM (ofJsonWithin depth)
          | some _ => none
        return .union alternatives (← optionalOf? members)
      | _ => none
    | _ => none

def ofJson? (value : Json) : Option Schema := ofJsonWithin value.depth value

end Schema

end BlockCheck
