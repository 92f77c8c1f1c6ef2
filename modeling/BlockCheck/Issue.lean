import BlockCheck.Text.Affix
import BlockCheck.Json

/-!
# Issues

What can be wrong with a value, a reference or a component, each with its code, its severity
and its wording.
-/

namespace BlockCheck

inductive Severity where
  | error
  | warning
deriving DecidableEq, Repr

inductive IssueCode where
  | typeMismatch
  | missingProperty
  | unionMismatch
  | specialTypeMismatch
  | sectionNotFound
  | savedBlockExtraProperties
  | savedBlockNotFound
  | circularReference
  | documentParseError
  | unknownProperty
  | schemaNotFound
  | unusedComponent
deriving DecidableEq, Repr

/-- The kinds of value a message tells apart; null counts as an object. -/
inductive Kind where
  | object
  | boolean
  | number
  | string
  | array
deriving DecidableEq, Repr

inductive Problem where
  | missing
  | mismatch (expected : String) (got : Kind)
  | noUnionMember (names : List String)
  | unknownProperty
  | notText (tag : String) (got : Kind)
  | notObject (tag : String) (got : Kind)
  | productWithoutIdentity
  | listingWithoutProducts
  | detailsWithoutProduct
  | unreadable (reason : String)
  | blockWithProperties (names : List String)
  | blockNotFound (name : String)
  | circular (name : String)
  | componentNotFound (identifier : String)
  | propsNotFound
  | unused
deriving DecidableEq, Repr

structure Issue where
  path : String
  problem : Problem
deriving DecidableEq, Repr

namespace Severity

def name : Severity → String
  | .error => "error"
  | .warning => "warning"

end Severity

namespace IssueCode

def name : IssueCode → String
  | .typeMismatch => "TYPE_MISMATCH"
  | .missingProperty => "MISSING_PROPERTY"
  | .unionMismatch => "UNION_MISMATCH"
  | .specialTypeMismatch => "SPECIAL_TYPE_MISMATCH"
  | .sectionNotFound => "SECTION_NOT_FOUND"
  | .savedBlockExtraProperties => "SAVED_BLOCK_EXTRA_PROPERTIES"
  | .savedBlockNotFound => "SAVED_BLOCK_NOT_FOUND"
  | .circularReference => "CIRCULAR_REFERENCE"
  | .documentParseError => "DOCUMENT_PARSE_ERROR"
  | .unknownProperty => "UNKNOWN_PROPERTY"
  | .schemaNotFound => "SCHEMA_NOT_FOUND"
  | .unusedComponent => "UNUSED_COMPONENT"

end IssueCode

namespace Kind

def name : Kind → String
  | .object => "object"
  | .boolean => "boolean"
  | .number => "number"
  | .string => "string"
  | .array => "array"

end Kind

def Json.kind : Json → Kind
  | .null => .object
  | .bool _ => .boolean
  | .int _ | .real _ => .number
  | .string _ => .string
  | .array _ => .array
  | .object _ => .object

namespace Problem

def code : Problem → IssueCode
  | .missing => .missingProperty
  | .mismatch _ _ => .typeMismatch
  | .noUnionMember _ => .unionMismatch
  | .unknownProperty => .unknownProperty
  | .notText _ _ | .notObject _ _ | .productWithoutIdentity | .listingWithoutProducts
  | .detailsWithoutProduct => .specialTypeMismatch
  | .unreadable _ => .documentParseError
  | .blockWithProperties _ => .savedBlockExtraProperties
  | .blockNotFound _ => .savedBlockNotFound
  | .circular _ => .circularReference
  | .componentNotFound _ => .sectionNotFound
  | .propsNotFound => .schemaNotFound
  | .unused => .unusedComponent

/-- Only an error fails a run. -/
def severity : Problem → Severity
  | .unknownProperty | .propsNotFound | .unused => .warning
  | _ => .error

def message : Problem → String
  | .missing => "required property missing"
  | .mismatch expected got => "expected " ++ expected ++ ", got " ++ got.name
  | .noUnionMember names =>
    "value does not match any type in union (" ++ Text.join " | " names ++ ")"
  | .unknownProperty => "property not defined in type (can be removed)"
  | .notText tag got => "expected " ++ tag ++ " (string), got " ++ got.name
  | .notObject tag got => "expected " ++ tag ++ " (object), got " ++ got.name
  | .productWithoutIdentity => "Product must have productID or sku"
  | .listingWithoutProducts => "ProductListingPage must have products array"
  | .detailsWithoutProduct => "ProductDetailsPage must have product"
  | .unreadable reason => "Error processing JSON: " ++ reason
  | .blockWithProperties names =>
    "Saved block should not have extra properties. Found: " ++ Text.join ", " names
  | .blockNotFound name => "Saved block not found: " ++ name
  | .circular name => "Circular reference detected: " ++ name
  | .componentNotFound identifier => "Section not found: " ++ identifier
  | .propsNotFound => "Props interface not found in file"
  | .unused => "not used in any JSON"

end Problem

namespace Issue

def severity (issue : Issue) : Severity := issue.problem.severity

def isError (issue : Issue) : Bool := issue.severity = .error

def isWarning (issue : Issue) : Bool := issue.severity = .warning

theorem isWarning_eq_not_isError (issue : Issue) : issue.isWarning = !issue.isError := by
  unfold isWarning isError
  cases issue.severity <;> rfl

end Issue

end BlockCheck
