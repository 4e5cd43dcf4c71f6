import DocumentStore.StoreError
import DocumentStore.Value.Path

/-! Why the store refuses a query, a stage of a pipeline or an update. -/

namespace DocumentStore

inductive QueryFault where
  | depthExceeded (limit : Nat)
  | nestedTooDeep
  | unknownTopLevelOperator (name : String)
  | unknownOperator (name : String)
  | notADocument (context : String)
  | noClauses (operator : String)
  | candidatesNotAnArray
  | notWithoutOperators
  | patternNotAString
  | malformedPattern
  | optionsWithoutPattern
  | capShape
  | capCenter
  | capRadius
  | geometryType
  | ringMissing
  | vertex
  | ringOpen
  | unknownRegion
  | stageFields
  | notANatural (stage : String)
  | zeroLimit
  | unsetNames
  | unsetShape
  | countName
  | unknownStage (name : String)
  | identifierImmutable
  | unknownUpdate (name : String)
  | write (fault : WriteFault)
  | identifierKind
deriving DecidableEq

namespace QueryFault

def message : QueryFault → String
  | depthExceeded limit => s!"expression depth exceeds maximum of {limit}"
  | nestedTooDeep => "expression nesting is too deep"
  | unknownTopLevelOperator name => s!"unsupported top-level operator {name}"
  | unknownOperator name => s!"unsupported query operator {name}"
  | notADocument context => s!"{context} expects a document"
  | noClauses operator => s!"{operator} expects a non-empty array"
  | candidatesNotAnArray => "$in expects an array"
  | notWithoutOperators => "$not expects an operator expression"
  | patternNotAString => "$regex expects a string pattern"
  | malformedPattern => "invalid regular expression"
  | optionsWithoutPattern => "$options needs a $regex"
  | capShape => "$centerSphere expects [[lon, lat], radians]"
  | capCenter => "$centerSphere center must be [lon, lat]"
  | capRadius => "$centerSphere radius must be non-negative"
  | geometryType => "$geometry supports Polygon only"
  | ringMissing => "Polygon coordinates must hold a ring"
  | vertex => "invalid polygon vertex"
  | ringOpen => "Polygon ring must be closed"
  | unknownRegion => "$geoWithin supports $centerSphere and $geometry"
  | stageFields => "a pipeline stage must have exactly one field"
  | notANatural stage => s!"{stage} expects a non-negative integer"
  | zeroLimit => "the limit must be positive"
  | unsetNames => "$unset expects field names"
  | unsetShape => "$unset expects a field name or a list of them"
  | countName => "$count expects a field name"
  | unknownStage name => s!"unsupported pipeline stage {name}"
  | identifierImmutable => "the _id field is immutable"
  | unknownUpdate name => s!"unsupported update operator {name}"
  | write fault => fault.message
  | identifierKind => "field '_id' is not an ObjectId"

def toStoreError (fault : QueryFault) : StoreError :=
  .query fault.message

end QueryFault

end DocumentStore
