import DocumentStore.Filter.Fault
import DocumentStore.StoreError
import DocumentStore.Value.Text

/-! Why a stored document is not what is read from it. -/

namespace DocumentStore

inductive DecodeFault where
  | mistyped
  | invalidValue
  | invalidLength
  | missing (field : String)
  | unknownField (name : String) (expected : List String)
  | unknownVariant (name : String) (expected : List String)
  | noContent
  | noDateForm
  | notADate
  | notAnId (found : Value)
  | malformedId (fault : ObjectId.Fault)
  | wrongByteCount
  | filter (fault : FilterFault)

namespace DecodeFault

def expectedText (names : List String) : String :=
  let quoted := names.map (fun name => s!"`{name}`")
  if quoted.length ≤ 2 then " or ".intercalate quoted
  else "one of " ++ ", ".intercalate quoted

def message : DecodeFault → String
  | mistyped => "invalid type"
  | invalidValue => "invalid value"
  | invalidLength => "invalid length"
  | missing field => s!"missing field `{field}`"
  | unknownField name expected => s!"unknown field `{name}`, expected {expectedText expected}"
  | unknownVariant name expected =>
    s!"unknown variant `{name}`, expected {expectedText expected}"
  | noContent => "data did not match any variant of untagged enum Content"
  | noDateForm => "data did not match any variant of untagged enum DateTimeBody"
  | notADate => "expecting DateTime"
  | notAnId found =>
    "expected map containing extended-JSON formatted ObjectId, instead found " ++ found.text
  | malformedId fault => fault.message
  | wrongByteCount => "could not convert slice to array"
  | filter fault => fault.report.text

def toStoreError (fault : DecodeFault) : StoreError :=
  .decoding fault.message

end DecodeFault

end DocumentStore
