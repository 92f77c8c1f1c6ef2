import BlockCheck.Source.Lexeme

/-!
# What nests in what

A grammar holds the readers for the constructs that may stand inside one another. Each level of
nesting is read with the grammar one level further in, so that every reader is an ordinary
function of the grammar below it.
-/

namespace BlockCheck.Source

structure Grammar where
  type : Parser TypeExpr
  pattern : Parser Unit
  /-- An expression without commas. -/
  expression : Parser Value
  /-- The same, where a colon after parentheses belongs to a conditional around it. -/
  branch : Parser Value
  statement : Parser Unit
  element : Parser Unit

namespace Grammar

def empty : Grammar := ⟨failure, failure, failure, failure, failure, failure⟩

def expressions (g : Grammar) : Parser (List Value) := Parser.sepBy g.expression

end Grammar

end BlockCheck.Source
