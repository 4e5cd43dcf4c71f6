import DocumentStore.Collection
import DocumentStore.DecodeFault

/-! Why a request to a service fails, with the report its caller sees. -/

namespace DocumentStore

inductive ServiceFault where
  | query (fault : QueryFault)
  | insert (fault : InsertFault)
  | filter (fault : FilterFault)
  | decode (fault : DecodeFault)
  | notFound (model : String) (operation : String) (id : ObjectId)
  | noValue (path : FieldPath) (id : ObjectId)
  | emptyPath
  | identifierPath

def ServiceFault.report : ServiceFault → ErrorReport
  | query fault => fault.toStoreError.toReport
  | insert fault => fault.toStoreError.toReport
  | filter fault => fault.report
  | decode fault => fault.toStoreError.toReport
  | notFound model operation id =>
    (ErrorReport.notFound model).withOperation s!"{operation} {id.hex}"
  | noValue path id =>
    ((ErrorReport.notFound "value").withField path.text).withOperation
      s!"no value at '{path.text}' in record {id.hex}"
  | emptyPath => .invalidInput "path" "must not be empty"
  | identifierPath => .invalidInput "path" "the identifier is immutable"

end DocumentStore
