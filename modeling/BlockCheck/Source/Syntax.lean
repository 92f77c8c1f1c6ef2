/-!
# The parts of a source file that matter for props

Components are written in TypeScript. The outline of a source file is what it exports as its
default, and the functions, variables, interfaces and type aliases declared anywhere in it. Type
expressions keep the exact text they are written with.
-/

namespace BlockCheck.Source

structure PropertyOf (α : Type) where
  name : String
  optional : Bool
  type : Option α
  /-- A documentation comment in front of it says `@ignore`. -/
  ignored : Bool

inductive TypeExpr where
  /-- A built-in name such as `string`. -/
  | predefined (text : String)
  | null (text : String)
  | stringLiteral (text : String)
  | array (text : String) (element : TypeExpr)
  /-- The operands of a chain of bars; parentheses keep a union inside it apart. -/
  | union (text : String) (operands : List TypeExpr)
  | object (text : String) (properties : List (PropertyOf TypeExpr))
  | parenthesized (text : String) (inner : TypeExpr)
  | named (text : String)
  | generic (text : String) (name : String) (arguments : List TypeExpr)
  /-- Any other form: tuples, functions, intersections, lookups and so on. -/
  | other (text : String)

abbrev Property := PropertyOf TypeExpr

structure Function where
  /-- The annotation of the first parameter. -/
  parameter : Option TypeExpr

/-- What an expression is, as far as finding a function goes. Parentheses do not count. -/
inductive Value where
  | function (function : Function)
  | name (name : String)
  | other

structure Interface where
  name : String
  bases : List String
  properties : List Property

inductive DeclarationBody where
  | function (name : String) (function : Function)
  | variable (name : String) (value : Option Value)
  | interface (declared : Interface)
  | typeAlias (name : String) (value : TypeExpr)

structure Declaration where
  place : Nat
  /-- It stands inside a block, a function, a class or a namespace. -/
  nested : Bool
  body : DeclarationBody

inductive Export where
  /-- The specifiers of an export list that names another module. -/
  | fromModule (specifiers : List String) (source : String)
  | default (value : Value)

/-- Exports and declarations, both in the order of the text. -/
structure Outline where
  exports : List Export
  declarations : List Declaration

namespace TypeExpr

def text : TypeExpr → String
  | .predefined t | .null t | .stringLiteral t | .array t _ | .union t _ | .object t _
  | .parenthesized t _ | .named t | .generic t _ _ | .other t => t

def operands : TypeExpr → List TypeExpr
  | .union _ ts => ts
  | t => [t]

end TypeExpr

end BlockCheck.Source
