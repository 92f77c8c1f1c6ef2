import BlockCheck.Record
import BlockCheck.Schema
import BlockCheck.Source.Outline

/-!
# From type expressions to schemas

A type expression is followed through the declarations of its file. The guard holds the texts of
all type expressions and the names of all interfaces on the way to the current one; what is met
again on its own way accepts anything. A form that has no schema accepts anything, too.
-/

namespace BlockCheck.Props

open Source

/-- What is being resolved, from the innermost outwards. -/
abbrev Guard := List String

def interfaceKey (name : String) : String := "interface " ++ name

/-- The members of a record: the schemas of those that count, and the names of the ignored. -/
structure Members where
  properties : List (String × Schema)
  ignored : List String

namespace Members

def empty : Members := ⟨[], []⟩

def addProperty (members : Members) (name : String) (s : Schema) : Members :=
  { members with properties := Record.insert name s members.properties }

def addIgnored (members : Members) (name : String) : Members :=
  { members with ignored := if members.ignored.contains name then members.ignored
      else members.ignored ++ [name] }

/-- The members of `more` take the place of those already there. -/
def extend (members more : Members) : Members where
  properties := Record.insertAll more.properties members.properties
  ignored := more.ignored.foldl (fun ns n => if ns.contains n then ns else ns ++ [n]) members.ignored

/-- A name with a schema is not ignored. -/
def settled (members : Members) : Members :=
  { members with ignored := members.ignored.filter (fun n => !Record.hasKey n members.properties) }

def schema (members : Members) (optional : Bool) : Schema :=
  .object members.properties members.ignored optional

end Members

/-! ## Utility types -/

def omitKeys (keys : List String) (s : Schema) (optional : Bool) : Schema :=
  match s with
  | .object properties ignored _ =>
    .object (properties.filter (fun p => !keys.contains p.1)) ignored optional
  | s => s.withOptional optional

/-- The picked properties, in the order of the keys. -/
def pickKeys (keys : List String) (s : Schema) (optional : Bool) : Schema :=
  match s with
  | .object properties ignored _ =>
    .object (keys.eraseDups.filterMap fun k => (properties.lookup k).map fun p => (k, p)) ignored optional
  | s => s.withOptional optional

def makePartial (s : Schema) (optional : Bool) : Schema :=
  match s with
  | .object properties ignored _ =>
    .object (properties.map fun p => (p.1, p.2.withOptional true)) ignored optional
  | s => s.withOptional optional

/-! ## Resolution -/

def addMembers (resolve : Bool → TypeExpr → Option Schema) :
    Members → List Property → Option Members
  | members, [] => some members
  | members, p :: rest =>
    if p.ignored then addMembers resolve (members.addIgnored p.name) rest
    else
      match p.type with
      | none => addMembers resolve (members.addProperty p.name (.any p.optional)) rest
      | some t => do addMembers resolve (members.addProperty p.name (← resolve p.optional t)) rest

def inherit (outline : Outline) (build : Interface → Option Members) :
    Members → List String → Option Members
  | members, [] => some members
  | members, base :: rest =>
    match outline.interface? base with
    | none => inherit outline build members rest
    | some i => do inherit outline build (members.extend (← build i)) rest

/-- What a name with arguments stands for. Type expressions are resolved by `resolve`, and an
interface is put together by `build`. -/
def reference (outline : Outline) (resolve : Bool → TypeExpr → Option Schema)
    (build : Interface → Option Members) (optional : Bool) (name : String)
    (arguments : List TypeExpr) : Option Schema :=
  if Schema.specialTags.contains name then some (.special name optional)
  else
    match name, arguments with
    | "Omit", base :: keys :: _ => do
      return omitKeys keys.literalKeys (← resolve false base) optional
    | "Pick", base :: keys :: _ => do
      return pickKeys keys.literalKeys (← resolve false base) optional
    | "Omit", _ | "Pick", _ => some (.any optional)
    | "Partial", base :: _ => do return makePartial (← resolve false base) optional
    | "Partial", [] => some (.any optional)
    | "Array", [element] => do return .array (some (← resolve false element)) optional
    | _, _ =>
      match outline.interface? name with
      | some i => do return (← build i).schema optional
      | none =>
        match outline.typeAlias? name with
        | some value => resolve optional value
        | none => some (.any optional)

def predefined (text : String) (optional : Bool) : Schema :=
  match text with
  | "string" => .primitive .string optional
  | "number" => .primitive .number optional
  | "boolean" => .primitive .boolean optional
  | _ => .any optional

mutual

/-- The schema of a type expression; nothing if the way through the declarations is longer than
the first number allows. -/
def resolve (outline : Outline) : Nat → Guard → Bool → TypeExpr → Option Schema
  | 0, _, _, _ => none
  | depth + 1, guard, optional, t =>
    if guard.contains t.text then some (.any optional)
    else
      let inner := t.text :: guard
      let named := reference outline (resolve outline depth inner)
        (interfaceMembers outline depth inner) optional
      match t with
      | .predefined text => some (predefined text optional)
      | .null _ => some (.primitive .null optional)
      | .stringLiteral _ | .other _ => some (.any optional)
      | .array _ element => do
        return .array (some (← resolve outline depth inner false element)) optional
      | .union _ operands => do
        return .union (← operands.mapM (resolve outline depth inner false)) optional
      | .object _ properties => do
        return (← addMembers (resolve outline depth inner) .empty properties).schema optional
      | .parenthesized _ content => resolve outline depth inner optional content
      | .named name => named name []
      | .generic _ name arguments => named name arguments

/-- The members of an interface: the inherited ones first, then its own. -/
def interfaceMembers (outline : Outline) : Nat → Guard → Interface → Option Members
  | 0, _, _ => none
  | depth + 1, guard, i =>
    let key := interfaceKey i.name
    if guard.contains key then some .empty
    else do
      let inner := key :: guard
      let inherited ← inherit outline (interfaceMembers outline depth inner) .empty i.bases
      let own ← addMembers (resolve outline depth inner) .empty i.properties
      return (inherited.extend own).settled

end

/-! ## Enough depth -/

mutual

def typeTexts : TypeExpr → List String
  | .array text element => text :: typeTexts element
  | .union text operands => text :: typeTextsOfList operands
  | .object text properties => text :: typeTextsOfProperties properties
  | .parenthesized text content => text :: typeTexts content
  | .generic text _ arguments => text :: typeTextsOfList arguments
  | .predefined text | .null text | .stringLiteral text | .named text | .other text => [text]

def typeTextsOfList : List TypeExpr → List String
  | [] => []
  | t :: rest => typeTexts t ++ typeTextsOfList rest

def typeTextsOfProperties : List Property → List String
  | [] => []
  | p :: rest => typeTextsOfProperty p ++ typeTextsOfProperties rest

def typeTextsOfProperty : Property → List String
  | ⟨_, _, type, _⟩ => typeTextsOfOption type

def typeTextsOfOption : Option TypeExpr → List String
  | none => []
  | some t => typeTexts t

end

/-- Everything that a guard can hold once a file is resolved from its declarations. -/
def declaredKeys (outline : Outline) : List String :=
  outline.declarations.flatMap fun d =>
    match d.body with
    | .interface i => interfaceKey i.name :: typeTextsOfProperties i.properties
    | .typeAlias _ value => typeTexts value
    | .function _ _ | .variable _ _ => []

/-- One more than the number of keys that may be met from a start with the given texts. -/
def enoughDepth (outline : Outline) (start : List String) : Nat :=
  (start ++ declaredKeys outline).length + 1

def schemaOfType (outline : Outline) (t : TypeExpr) : Schema :=
  (resolve outline (enoughDepth outline (typeTexts t)) [] false t).getD (.any false)

def schemaOfInterface (outline : Outline) (i : Interface) : Schema :=
  ((interfaceMembers outline (enoughDepth outline []) [] i).getD .empty).schema false

/-- Where the props of a component are described: the first parameter of the default function,
else the interface `Props`, else the type alias `Props`. -/
def schemaOf? (outline : Outline) : Option Schema :=
  match outline.defaultFunction?.bind (·.parameter) with
  | some t => some (schemaOfType outline t)
  | none =>
    match outline.interface? "Props" with
    | some i => some (schemaOfInterface outline i)
    | none => (outline.typeAlias? "Props").map (schemaOfType outline)

end BlockCheck.Props
