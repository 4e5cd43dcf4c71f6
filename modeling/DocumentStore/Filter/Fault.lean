import DocumentStore.ErrorReport
import DocumentStore.Filter.Basic
import DocumentStore.Json.Shape

/-! Why a filter is refused. Every refusal is an error of the caller. -/

namespace DocumentStore

inductive OperandFault where
  | notAString (kind : OperationKind)
  | notAPattern
  | notANumber (kind : OperationKind)
  | notABoolean
  | notAPosition
  | coordinateCount
  | coordinateKind
  | coordinateRange
  | notARadius
  | centerMissing
  | radiusKind
  | radiusRange
  | notAnArea
  | ringTooShort
  | ringOpen
deriving DecidableEq

def OperandFault.message : OperandFault → String
  | notAString kind => s!"{kind.name} expects a string value"
  | notAPattern => "CONTAINS expects a valid regular expression"
  | notANumber kind => s!"{kind.name} expects a numeric value"
  | notABoolean => "IS expects a boolean value"
  | notAPosition => "a position must be a [longitude, latitude] array"
  | coordinateCount => "a position needs exactly two coordinates"
  | coordinateKind => "coordinates must be finite numbers"
  | coordinateRange => "coordinates are out of range"
  | notARadius => "RADIUS expects \x7b center, radius \x7d"
  | centerMissing => "RADIUS is missing its center"
  | radiusKind => "RADIUS expects a numeric radius"
  | radiusRange => "radius must be a non-negative number of kilometres"
  | notAnArea => "AREA expects \x7b vertices \x7d"
  | ringTooShort => "a polygon ring needs at least four vertices"
  | ringOpen => "a polygon ring must repeat its first vertex as the last"

inductive FilterFault where
  | malformedText
  | setNotAnObject
  | entriesMissing
  | entriesNotAnArray
  | entryNotAnObject
  | filterShape (e : ShapeError)
  | concatenationShape (e : ShapeError)
  | unknownOperation (name : String)
  | emptyKey (text : String)
  | nestedConcatenation
  | emptyConcatenation (combinator : Combinator)
  | operand (key : FieldPath) (fault : OperandFault)
  | entry (index : Nat) (fault : FilterFault)

namespace FilterFault

/-- A pattern can be mended by quoting it; other operands get no suggestion. -/
def operandReport (key : FieldPath) (fault : OperandFault) : ErrorReport :=
  let report := ErrorReport.invalidFilter key.text fault.message
  match fault with
  | .notAPattern =>
    report.withSuggestion "escape regex metacharacters such as + ( [ with a backslash"
  | _ => report

def report : FilterFault → ErrorReport
  | malformedText => .failedToParse "filter set JSON"
  | setNotAnObject => .failedToParse "a filter set must be an object"
  | entriesMissing => .failedToParse "missing field `filterSet`"
  | entriesNotAnArray => .failedToParse "filterSet must be an array"
  | entryNotAnObject => .failedToParse "a filter must be an object"
  | filterShape e => .failedToParse s!"filter: {e.message}"
  | concatenationShape e => .failedToParse s!"concatenation filter: {e.message}"
  | unknownOperation name => .operationNotSupported name
  | emptyKey text => .invalidFilter text "the key must name a field"
  | nestedConcatenation => .invalidFilter "filters" "concatenations only combine leaf filters"
  | emptyConcatenation combinator =>
    .invalidFilter "filters" s!"{combinator.name} needs at least one filter"
  | operand key fault => operandReport key fault
  | entry index fault => fault.report.withOperation s!"parsing filterSet[{index}]"

end FilterFault

end DocumentStore
