/-!
# Schemas

The shapes of value a component accepts as props. Each schema says whether the value may be
absent where it stands.
-/

namespace BlockCheck

inductive Primitive where
  | string
  | number
  | boolean
  | null
deriving DecidableEq, Repr

inductive Schema where
  | primitive (type : Primitive) (optional : Bool)
  /-- A list; without an element schema, of anything. -/
  | array (element : Option Schema) (optional : Bool)
  /-- A record in declaration order. The ignored names may be present and are never looked at. -/
  | object (properties : List (String × Schema)) (ignored : List String) (optional : Bool)
  | union (members : List Schema) (optional : Bool)
  /-- A platform type with a rule of its own. -/
  | special (tag : String) (optional : Bool)
  | any (optional : Bool)

namespace Primitive

def name : Primitive → String
  | .string => "string"
  | .number => "number"
  | .boolean => "boolean"
  | .null => "null"

def all : List Primitive := [.string, .number, .boolean, .null]

def ofName? (name : String) : Option Primitive := all.find? (fun p => p.name = name)

theorem ofName?_name (p : Primitive) : ofName? p.name = some p := by cases p <;> decide

end Primitive

namespace Schema

/-- What holds of a schema whenever it holds of its parts, holds of every schema. -/
@[elab_as_elim]
theorem induction {motive : Schema → Prop}
    (primitive : ∀ type optional, motive (.primitive type optional))
    (array : ∀ element optional, (∀ s ∈ element, motive s) → motive (.array element optional))
    (object : ∀ properties ignored optional, (∀ p ∈ properties, motive p.2) →
      motive (.object properties ignored optional))
    (union : ∀ members optional, (∀ s ∈ members, motive s) → motive (.union members optional))
    (special : ∀ tag optional, motive (.special tag optional))
    (any : ∀ optional, motive (.any optional)) : ∀ s, motive s
  | .primitive type optional => primitive type optional
  | .array none optional => array none optional (by simp)
  | .array (some element) optional => array (some element) optional fun _ hs =>
      Option.some.inj hs ▸ induction primitive array object union special any element
  | .object properties ignored optional => object properties ignored optional fun p hp =>
      induction primitive array object union special any p.2
  | .union members optional => union members optional fun s hs =>
      induction primitive array object union special any s
  | .special tag optional => special tag optional
  | .any optional => any optional
termination_by s => sizeOf s
decreasing_by
  · simp
    omega
  · have := List.sizeOf_lt_of_mem hp
    obtain ⟨name, s⟩ := p
    simp at this ⊢
    omega
  · have := List.sizeOf_lt_of_mem hs
    simp
    omega

def optional : Schema → Bool
  | .primitive _ o | .array _ o | .object _ _ o | .union _ o | .special _ o | .any o => o

def withOptional (optional : Bool) : Schema → Schema
  | .primitive t _ => .primitive t optional
  | .array e _ => .array e optional
  | .object ps is _ => .object ps is optional
  | .union ms _ => .union ms optional
  | .special t _ => .special t optional
  | .any _ => .any optional

def kind : Schema → String
  | .primitive _ _ => "primitive"
  | .array _ _ => "array"
  | .object _ _ _ => "object"
  | .union _ _ => "union"
  | .special _ _ => "special"
  | .any _ => "any"

/-- The short name shown where a value fits no member of a union. -/
def describe : Schema → String
  | .primitive t _ => t.name
  | .special tag _ => tag
  | s => s.kind

@[simp] theorem optional_withOptional (o : Bool) (s : Schema) : (s.withOptional o).optional = o := by
  cases s <;> rfl

theorem withOptional_self (s : Schema) : s.withOptional s.optional = s := by cases s <;> rfl

@[simp] theorem describe_withOptional (o : Bool) (s : Schema) :
    (s.withOptional o).describe = s.describe := by
  cases s <;> rfl

/-- Types the platform gives a meaning of its own, wherever their name is used. -/
def specialTags : List String :=
  ["ImageWidget", "RichText", "Color", "DateWidget", "DateTimeWidget",
    "Product", "ProductListingPage", "ProductDetailsPage"]

end Schema

end BlockCheck
