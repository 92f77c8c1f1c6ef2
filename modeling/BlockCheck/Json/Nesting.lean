import BlockCheck.Json.Parser

/-!
# Room for nested values

To read a list or an object inside others takes one call inside another, and there is room for only so many.
Whether the room runs out shows at the brackets that are read until the text ends or is found faulty.
-/

namespace BlockCheck.Json

def readPart (source : List Char) : List Char :=
  match document source with
  | .ok _ => source
  | .error fault => source.take (source.length - fault.rest.length)

mutual

/-- The first bracket that opens a list or an object for which there is no room, inside `depth` others. -/
def excess? (room : Nat) : Nat → List Char → Option Char
  | _, [] => none
  | depth, c :: rest =>
    if c = '"' then excessAfterString? room depth rest
    else if c = '[' ∨ c = '{' then if depth < room then excess? room (depth + 1) rest else some c
    else if c = ']' ∨ c = '}' then excess? room (depth - 1) rest
    else excess? room depth rest

def excessAfterString? (room : Nat) : Nat → List Char → Option Char
  | _, [] => none
  | depth, '\\' :: _ :: rest => excessAfterString? room depth rest
  | depth, '"' :: rest => excess? room depth rest
  | depth, _ :: rest => excessAfterString? room depth rest

end

/-- The bracket at which reading a text runs out of room. -/
def overflow? (room : Nat) (source : String) : Option Char := excess? room 0 (readPart source.toList)

/-! ## More room -/

theorem excess?_eq_none_of_le {room room' : Nat} (hle : room ≤ room') :
    (∀ depth s, excess? room depth s = none → excess? room' depth s = none) ∧
      ∀ depth s, excessAfterString? room depth s = none → excessAfterString? room' depth s = none := by
  refine excess?.mutual_induct room
    (fun depth s => excess? room depth s = none → excess? room' depth s = none)
    (fun depth s => excessAfterString? room depth s = none → excessAfterString? room' depth s = none)
    ?_ ?_ ?_ ?_ ?_ ?_ ?_ ?_ ?_ ?_
  · exact fun _ _ => by rw [excess?]
  · intro depth rest ih h
    rw [excess?, if_pos rfl] at h ⊢
    exact ih h
  · intro depth c rest hquote hopens hroom ih h
    rw [excess?, if_neg hquote, if_pos hopens, if_pos hroom] at h
    rw [excess?, if_neg hquote, if_pos hopens, if_pos (Nat.lt_of_lt_of_le hroom hle)]
    exact ih h
  · intro depth c rest hquote hopens hroom h
    rw [excess?, if_neg hquote, if_pos hopens, if_neg hroom] at h
    cases h
  · intro depth c rest hquote hopens hcloses ih h
    rw [excess?, if_neg hquote, if_neg hopens, if_pos hcloses] at h ⊢
    exact ih h
  · intro depth c rest hquote hopens hcloses ih h
    rw [excess?, if_neg hquote, if_neg hopens, if_neg hcloses] at h ⊢
    exact ih h
  · exact fun _ _ => by rw [excessAfterString?]
  · intro depth c rest ih h
    rw [excessAfterString?] at h ⊢
    exact ih h
  · intro depth rest ih h
    rw [excessAfterString?] at h ⊢
    exact ih h
  · intro depth c rest hescape hquote ih h
    rw [excessAfterString?] at h ⊢
    · exact ih h
    all_goals assumption

theorem exists_overflow?_of_le {room room' : Nat} {source : String} {bracket : Char} (hle : room ≤ room')
    (h : overflow? room' source = some bracket) : ∃ first, overflow? room source = some first := by
  cases hoverflow : overflow? room source with
  | some first => exact ⟨first, rfl⟩
  | none => cases ((excess?_eq_none_of_le hle).1 0 _ hoverflow).symm.trans h

end BlockCheck.Json
