import BlockCheck.Number.Binary64

/-!
# Decoded JSON values

An object is the list of its members in the order in which their keys were first
written; no key occurs twice in a value that was read from a text.
-/

namespace BlockCheck

inductive Json where
  | null
  | bool (value : Bool)
  | int (value : Int)
  | real (value : Number.Binary64)
  | string (value : String)
  | array (items : List Json)
  | object (members : List (String × Json))

namespace Json

/-- What holds of a value whenever it holds of its items or members, holds of every value. -/
@[elab_as_elim]
theorem induction {motive : Json → Prop} (null : motive .null) (bool : ∀ b, motive (.bool b))
    (int : ∀ n, motive (.int n)) (real : ∀ x, motive (.real x)) (string : ∀ s, motive (.string s))
    (array : ∀ items, (∀ item ∈ items, motive item) → motive (.array items))
    (object : ∀ members, (∀ m ∈ members, motive m.2) → motive (.object members)) : ∀ j, motive j
  | .null => null
  | .bool b => bool b
  | .int n => int n
  | .real x => real x
  | .string s => string s
  | .array items => array items fun item _ => induction null bool int real string array object item
  | .object members => object members fun m _ =>
      induction null bool int real string array object m.2
termination_by j => sizeOf j
decreasing_by
  · rename_i hitem
    have := List.sizeOf_lt_of_mem hitem
    simp
    omega
  · rename_i hm
    have := List.sizeOf_lt_of_mem hm
    obtain ⟨key, value⟩ := m
    simp at this ⊢
    omega

mutual

/-- How deep the lists and objects of a value are nested. -/
def depth : Json → Nat
  | .array items => depthOfItems items + 1
  | .object members => depthOfMembers members + 1
  | _ => 1

def depthOfItems : List Json → Nat
  | [] => 0
  | item :: rest => max item.depth (depthOfItems rest)

def depthOfMembers : List (String × Json) → Nat
  | [] => 0
  | member :: rest => max (depthOfMember member) (depthOfMembers rest)

def depthOfMember : String × Json → Nat
  | (_, value) => value.depth

end

def get? (key : String) : Json → Option Json
  | .object members => members.lookup key
  | _ => none

def string? : Json → Option String
  | .string s => some s
  | _ => none

def stringAt? (key : String) (value : Json) : Option String := (value.get? key).bind string?

end Json

end BlockCheck
