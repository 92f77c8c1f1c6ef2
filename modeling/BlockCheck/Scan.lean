import BlockCheck.Json
import BlockCheck.Location
import BlockCheck.Record
import BlockCheck.Reference

/-!
# Looking through a document

The objects of a document in the order of their text, those among them that refer to something,
and those that refer to one given component. What stands at the discriminator key is a name and
is not looked into.
-/

namespace BlockCheck.Scan

structure Node where
  location : Location
  members : List (String × Json)

structure Reference where
  identifier : String
  kind : ReferenceKind
  location : Location
  /-- The members of the object other than its discriminator. -/
  properties : List (String × Json)

structure Occurrence where
  location : Location
  properties : List (String × Json)

namespace Node

def under (step : Step) (node : Node) : Node := { node with location := step :: node.location }

end Node

namespace Reference

def under (step : Step) (reference : Reference) : Reference :=
  { reference with location := step :: reference.location }

end Reference

namespace Occurrence

def under (step : Step) (occurrence : Occurrence) : Occurrence :=
  { occurrence with location := step :: occurrence.location }

end Occurrence

/-! ## All objects -/

mutual

/-- Every object, an outer one before those inside it. -/
def nodes : Json → List Node
  | .object members => ⟨[], members⟩ :: memberNodes members
  | .array items => itemNodes 0 items
  | _ => []

def memberNodes : List (String × Json) → List Node
  | [] => []
  | member :: rest => singleMemberNodes member ++ memberNodes rest

def singleMemberNodes : String × Json → List Node
  | (key, value) => (nodes value).map (Node.under (.key key))

def itemNodes (position : Nat) : List Json → List Node
  | [] => []
  | item :: rest => (nodes item).map (Node.under (.index position)) ++ itemNodes (position + 1) rest

end

/-! ## References -/

def referenceOf (naming : Naming) (key : String) (members : List (String × Json)) : Option Reference :=
  match (members.lookup key).bind Json.string? with
  | none => none
  | some identifier =>
    match naming.classify identifier with
    | .external => none
    | kind => some ⟨identifier, kind, [], Record.without key members⟩

mutual

/-- Every reference to a component or a saved block. The properties of any reference, also of one
to something external, are looked through as well. -/
def references (naming : Naming) (key : String) : Json → List Reference
  | .object members =>
    (referenceOf naming key members).toList ++ memberReferences naming key members
  | .array items => itemReferences naming key 0 items
  | _ => []

def memberReferences (naming : Naming) (key : String) : List (String × Json) → List Reference
  | [] => []
  | member :: rest => singleMemberReferences naming key member ++ memberReferences naming key rest

def singleMemberReferences (naming : Naming) (key : String) : String × Json → List Reference
  | (name, value) =>
    if name = key then [] else (references naming key value).map (Reference.under (.key name))

def itemReferences (naming : Naming) (key : String) (position : Nat) : List Json → List Reference
  | [] => []
  | item :: rest =>
    (references naming key item).map (Reference.under (.index position))
      ++ itemReferences naming key (position + 1) rest

end

theorem memberReferences_eq (naming : Naming) (key : String) (members : List (String × Json)) :
    memberReferences naming key members = (Record.without key members).flatMap fun m =>
      (references naming key m.2).map (Reference.under (.key m.1)) := by
  induction members with
  | nil => rfl
  | cons m rest ih =>
    rw [memberReferences, ih, singleMemberReferences]
    by_cases hm : m.1 = key <;> simp [Record.without, hm]

theorem itemReferences_eq (naming : Naming) (key : String) (position : Nat) (items : List Json) :
    itemReferences naming key position items = (items.zipIdx position).flatMap fun item =>
      (references naming key item.1).map (Reference.under (.index item.2)) := by
  induction items generalizing position with
  | nil => rfl
  | cons item rest ih => rw [itemReferences, ih, List.zipIdx_cons, List.flatMap_cons]

/-! ## Occurrences of one component -/

mutual

/-- The objects whose discriminator is `target`. Nothing is looked for inside such an object. -/
def occurrences (key target : String) : Json → List Occurrence
  | .object members =>
    if (members.lookup key).bind Json.string? = some target then [⟨[], Record.without key members⟩]
    else memberOccurrences key target members
  | .array items => itemOccurrences key target 0 items
  | _ => []

def memberOccurrences (key target : String) : List (String × Json) → List Occurrence
  | [] => []
  | member :: rest => singleMemberOccurrences key target member ++ memberOccurrences key target rest

def singleMemberOccurrences (key target : String) : String × Json → List Occurrence
  | (name, value) =>
    if name = key then [] else (occurrences key target value).map (Occurrence.under (.key name))

def itemOccurrences (key target : String) (position : Nat) : List Json → List Occurrence
  | [] => []
  | item :: rest =>
    (occurrences key target item).map (Occurrence.under (.index position))
      ++ itemOccurrences key target (position + 1) rest

end

end BlockCheck.Scan
