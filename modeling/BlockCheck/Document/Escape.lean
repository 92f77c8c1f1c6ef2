import BlockCheck.Document
import BlockCheck.Json.Nesting

/-!
# What stops a run

A document that cannot be read is reported, and the run goes on. Two things are not expected: a text that is
nested too deep, and the name of a block that has no file name because it cannot be written as bytes. They
stop the whole run.
-/

namespace BlockCheck

inductive Escape where
  | unencodable (name : String)
  /-- There is no room for what this bracket opens. -/
  | tooDeep (bracket : Char)
deriving DecidableEq, Repr

namespace Escape

def message : Escape → String
  | .unencodable name => Text.Surrogate.unencodableMessage name
  | .tooDeep bracket =>
    "maximum recursion depth exceeded while decoding a JSON " ++
      (if bracket = '[' then "array" else "object") ++ " from a unicode string"

end Escape

namespace Document

mutual

/-- What stops the checking of a text, if something does. How deep a text may be nested depends on how many
blocks are being expanded. -/
def escape? (room : Nat → Nat) (around : Surroundings) (inProgress : List String) (text : String) :
    Option Escape :=
  match Json.overflow? (room inProgress.length) text with
  | some bracket => some (.tooDeep bracket)
  | none =>
    match Json.parse text with
    | .error _ => none
    | .ok document =>
      (Scan.references around.naming around.key document).findSome? fun r =>
        match r.kind with
        | .savedBlock => blockEscape? room around inProgress r.identifier
        | _ => none
termination_by ((expandable around inProgress).length, 1)

def blockEscape? (room : Nat → Nat) (around : Surroundings) (inProgress : List String) (name : String) :
    Option Escape :=
  if _hfree : inProgress.contains name = true then none
  else if Text.Surrogate.isUnencodable name then some (.unencodable name)
  else
    match _hread : around.blocks.read name with
    | some (.ok content) => escape? room around (name :: inProgress) content
    | _ => none
termination_by ((expandable around inProgress).length, 0)
decreasing_by
  exact Prod.Lex.left _ _ (length_expandable_lt _hfree (BlockStore.mem_names_of_read _hread))

end

def validate (room : Nat → Nat) (around : Surroundings) (file : String) (inProgress : List String)
    (text : String) : Except Escape Outcome :=
  match escape? room around inProgress text with
  | some escape => .error escape
  | none => .ok (check around file inProgress text)

end Document

end BlockCheck
