import BlockCheck.Scan
import BlockCheck.Text.Line

/-!
# Anti-patterns

Choices between variants that are valid and certainly not meant: a variant whose rule never
holds, and a lazy wrapper around a further choice.
-/

namespace BlockCheck

inductive AntiPatternKind where
  | deadCode
  | lazyMultivariate
deriving DecidableEq, Repr

structure AntiPattern where
  kind : AntiPatternKind
  document : String
  path : String
  line : Option Nat

namespace AntiPatternKind

def name : AntiPatternKind → String
  | .deadCode => "dead-code"
  | .lazyMultivariate => "lazy-multivariate"

def message : AntiPatternKind → String
  | .deadCode => "Variant with 'never' rule is dead code and will never execute"
  | .lazyMultivariate =>
    "Lazy wrapping multivariate is an anti-pattern. Multivariate should wrap Lazy, not the other way around."

/-- The word that gives the pattern away in the text. -/
def marker : AntiPatternKind → String
  | .deadCode => "never"
  | .lazyMultivariate => "Lazy"

end AntiPatternKind

namespace AntiPattern

def message (p : AntiPattern) : String := p.kind.message

/-- Names of components that choose between variants hold one of these words. -/
def selectorMarkers : List String := ["multivariate", "flags"]

def isSelector (identifier : String) : Bool := selectorMarkers.any (Text.contains identifier)

/-- Whether a rule is one that never holds, in whatever case it is written. All letters that
lower case turns into one of these are in ASCII. -/
def isNever (rule : String) : Bool := Text.contains (rule.map Char.toLower) "never"

/-- The patterns in one variant, with the way to each from the variant. -/
def inVariant (key : String) (variant : Json) : List (AntiPatternKind × Location) :=
  let dead :=
    match (variant.get? "rule").bind (Json.stringAt? key) with
    | some rule => if isNever rule then [(.deadCode, [])] else []
    | none => []
  let lazyValue :=
    match variant.get? "value" with
    | some value =>
      match value.stringAt? key, (value.get? "section").bind (Json.stringAt? key) with
      | some wrapper, some inner =>
        if Text.contains wrapper "Lazy" && isSelector inner then
          [(.lazyMultivariate, [.key "value"])] else []
      | _, _ => []
    | none => []
  dead ++ lazyValue

def inNode (key : String) (node : Scan.Node) : List (AntiPatternKind × Location) :=
  let value := Json.object node.members
  if (value.stringAt? key).any isSelector then
    match value.get? "variants" with
    | some (.array variants) =>
      variants.zipIdx.flatMap fun (variant, i) =>
        (inVariant key variant).map fun found =>
          (found.1, node.location ++ [.key "variants", .index i] ++ found.2)
    | _ => []
  else []

/-- The anti-patterns of a document; `content` is its text. -/
def find (key name : String) (document : Json) (content : String) : List AntiPattern :=
  (Scan.nodes document).flatMap fun node =>
    (inNode key node).map fun (kind, location) =>
      ⟨kind, name, location.text, Text.lineOf? content kind.marker⟩

end AntiPattern

end BlockCheck
