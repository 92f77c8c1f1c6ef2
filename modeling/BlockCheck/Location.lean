/-!
# Locations inside a document

A location is the list of steps from the root of a document to one of its values. It is written
in two ways: on its own, where the root reads `root`, and as the continuation of a location that
is already written, where nothing is added for the value itself.
-/

namespace BlockCheck

inductive Step where
  | key (name : String)
  | index (position : Nat)
deriving DecidableEq, Repr

abbrev Location := List Step

namespace Step

def text : Step → String
  | .key name => name
  | .index position => "[" ++ toString position ++ "]"

/-- Written without a dot in front, as an index is. -/
def isBracketed (step : Step) : Bool := "[".toList.isPrefixOf step.text.toList

end Step

namespace Location

def tailText : Location → String
  | [] => ""
  | step :: rest => (if step.isBracketed then step.text else "." ++ step.text) ++ tailText rest

/-- A location on its own: `a.b[2].c`. -/
def text : Location → String
  | [] => "root"
  | step :: rest =>
    let written := step.text ++ tailText rest
    if written.isEmpty then "root" else written

theorem isEmpty_text (location : Location) : location.text.isEmpty = false := by
  cases location with
  | nil => rfl
  | cons step rest =>
    rw [text]
    split
    · rfl
    · rename_i hwritten
      exact Bool.not_eq_true _ ▸ hwritten

def extendStep (base : String) : Step → String
  | .key name => if base.isEmpty then name else base ++ "." ++ name
  | .index position => base ++ "[" ++ toString position ++ "]"

/-- A location below one that is already written. -/
def extend (base : String) (location : Location) : String := location.foldl extendStep base

@[simp] theorem extend_nil (base : String) : extend base [] = base := rfl

@[simp] theorem extend_cons (base : String) (step : Step) (rest : Location) :
    extend base (step :: rest) = extend (extendStep base step) rest := rfl

theorem extend_append (base : String) (a b : Location) :
    extend base (a ++ b) = extend (extend base a) b := List.foldl_append

end Location

end BlockCheck
