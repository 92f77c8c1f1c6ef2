import BlockCheck.Source.Statements

/-!
# The outline of a source file

Reading a file, and the questions that are asked about it: what it passes on from another module
as its default, which function is its default, and what is declared under a name. Of several
declarations of one name the first in the text counts, wherever it stands.
-/

namespace BlockCheck.Source

namespace Grammar

/-- The grammar of texts that are nested at most so deep. A reader looks at the level below only
once it is run. -/
def ofDepth (markup : Bool) : Nat → Grammar
  | 0 => empty
  | n + 1 =>
    { type := fun cursor => typeExpr (ofDepth markup n) cursor
      pattern := fun cursor => Source.pattern (ofDepth markup n) cursor
      expression := fun cursor => expressionWith (ofDepth markup n) markup true cursor
      branch := fun cursor => expressionWith (ofDepth markup n) markup false cursor
      statement := fun cursor => statementWith (ofDepth markup n) cursor
      element := fun cursor => Source.element (ofDepth markup n) cursor }

end Grammar

namespace Outline

/-- A line in front of everything that names an interpreter. -/
def withoutInterpreter (source : List Char) : List Char :=
  match source with
  | '#' :: '!' :: rest => rest.dropWhile (fun c => !endsLine c)
  | _ => source

/-- Statements up to the end; a brace that closes nothing is skipped. -/
def statements (g : Grammar) : Parser Unit :=
  Parser.skipMany (statementWith g <|> Parser.sign "\x7d")

/-- No construct is nested deeper than the text is long, with a statement and its expression
counted apart. -/
def ofText (markup : Bool) (text : String) : Outline :=
  let source := withoutInterpreter text.toList
  let g := Grammar.ofDepth markup (2 * source.length + 2)
  match (statements g).run (Cursor.atStart source) with
  | some (_, cursor) =>
    { exports := cursor.exported.reverse
      declarations := cursor.declared.mergeSort (fun a b => a.place ≤ b.place) }
  | none => ⟨[], []⟩

/-! ## Declarations by name -/

def interface? (outline : Outline) (name : String) : Option Interface :=
  outline.declarations.findSome? fun d =>
    match d.body with
    | .interface i => if i.name = name then some i else none
    | _ => none

def typeAlias? (outline : Outline) (name : String) : Option TypeExpr :=
  outline.declarations.findSome? fun d =>
    match d.body with
    | .typeAlias n value => if n = name then some value else none
    | _ => none

/-- The first function or variable of that name; a variable with any other value is no
function. -/
def function? (outline : Outline) (name : String) : Option Function :=
  (outline.declarations.findSome? fun d =>
    match d.body with
    | .function n f => if n = name then some (some f) else none
    | .variable n value =>
      if n = name then
        match value with
        | some (.function f) => some (some f)
        | _ => some none
      else none
    | _ => none).join

/-! ## Exports -/

/-- What follows the word `as` with white space around it, if that is what the text starts with. -/
def afterAs? (s : List Char) : Option (List Char) :=
  match s with
  | c :: rest =>
    if Text.isBlank c then
      match rest.dropWhile Text.isBlank with
      | 'a' :: 's' :: d :: after => if Text.isBlank d then some (after.dropWhile Text.isBlank) else none
      | _ => none
    else none
  | [] => none

theorem length_afterAs?_lt {s after : List Char} (h : afterAs? s = some after) :
    after.length < s.length := by
  unfold afterAs? at h
  split at h
  · rename_i c rest
    split at h
    · split at h
      · rename_i d tail heq
        split at h
        · have h₁ := (List.dropWhile_suffix (l := tail) Text.isBlank).length_le
          have h₂ := (List.dropWhile_suffix (l := rest) Text.isBlank).length_le
          rw [heq] at h₂
          simp only [Option.some.injEq] at h
          subst h
          simp only [List.length_cons] at h₂ ⊢
          omega
        · simp at h
      · simp at h
    · simp at h
  · simp at h

/-- What stands behind the last word `as` between two names. -/
def behindAs (s : List Char) : List Char := go s s
where
  /-- `piece` is what stands behind the last one so far. -/
  go (piece s : List Char) : List Char :=
    match _h : afterAs? s with
    | some after => go after after
    | none =>
      match s with
      | [] => piece
      | _ :: rest => go piece rest
  termination_by s.length
  decreasing_by
    · exact length_afterAs?_lt _h
    · simp

def exportedName (specifier : String) : String :=
  unquote (String.ofList (behindAs specifier.toList))

/-- The module whose binding is exported as the default, if a list of specifiers says so. -/
def reexportedDefault? (outline : Outline) : Option String :=
  outline.exports.findSome? fun
    | .fromModule specifiers source =>
      if specifiers.any (fun s => exportedName s = "default") then some (unquote source) else none
    | .default _ => none

/-- The function that is the default, or that the default names. -/
def defaultFunction? (outline : Outline) : Option Function :=
  (outline.exports.findSome? fun
    | .default (.function f) => some (some f)
    | .default (.name name) => some (outline.function? name)
    | _ => none).join

end Outline

namespace TypeExpr

/-- The texts of a union of string literals; other operands count for nothing. -/
def literalKeys : TypeExpr → List String
  | .stringLiteral text => [unquote text]
  | .union _ operands =>
    operands.flatMap fun
      | .stringLiteral text => [unquote text]
      | _ => []
  | _ => []

end TypeExpr

end BlockCheck.Source
