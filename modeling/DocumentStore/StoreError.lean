import DocumentStore.ErrorReport
import DocumentStore.FieldPath
import DocumentStore.ObjectId

/-! Errors of the store itself. Each becomes a report for the caller; lost connections keep their
full text there, so that the report says what was tried. -/

namespace DocumentStore

/-- `driver` tells whether the server could not be reached. -/
inductive StoreError where
  | driver (unreachable : Bool) (message : String)
  | encoding (message : String)
  | decoding (message : String)
  | configuration (message : String)
  | connection (message : String)
  | query (message : String)
  | identifier (message : String)
  | internal (message : String)
deriving DecidableEq

namespace StoreError

def text : StoreError → String
  | driver _ message => s!"mongodb error: {message}"
  | encoding message => s!"bson error: {message}"
  | decoding message => s!"bson deserialization error: {message}"
  | configuration message => s!"configuration error: {message}"
  | connection message => s!"connection error: {message}"
  | query message => s!"query error: {message}"
  | identifier message => s!"invalid object id: {message}"
  | internal message => s!"internal error: {message}"

def isConnectionError : StoreError → Bool
  | connection _ => true
  | driver unreachable _ => unreachable
  | _ => false

def ofIdFault (fault : ObjectId.Fault) : StoreError :=
  identifier fault.message

def toReport : StoreError → ErrorReport
  | driver true message =>
    (ErrorReport.connection (text (driver true message))).withSource message
  | driver false message => (ErrorReport.database message).withSource message
  | encoding message => (ErrorReport.serialization message).withSource message
  | decoding message => (ErrorReport.deserialization message).withSource message
  | configuration message => ErrorReport.configuration message
  | connection message => ErrorReport.connection (text (connection message))
  | query message => ErrorReport.database message
  | identifier message => ErrorReport.invalidInput idKey message
  | internal message => ErrorReport.internal message

end StoreError

end DocumentStore
