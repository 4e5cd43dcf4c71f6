import DocumentStore.Entity.Basic
import DocumentStore.Entity.Content
import DocumentStore.Pipeline.Listing

/-! Records hold one piece of data, or a link to it. -/

namespace DocumentStore

inductive DataType where
  | referenced
  | notReferenced
deriving DecidableEq

namespace DataType

def name : DataType → String
  | referenced => "REFERENCED"
  | notReferenced => "NOTREFERENCED"

def read : Value.Reader DataType :=
  Value.readVariant .loose (named name [referenced, notReferenced])

def toValue (t : DataType) : Value :=
  .string t.name

end DataType

/-- `dataSet` is the format of the data set that a record comes from. -/
structure RecordBody where
  title : String
  description : Option String
  dataType : DataType
  dataSet : Option String
  tags : List String
  content : Content

abbrev Record := Entity RecordBody

namespace RecordBody

def embedded (title : String) (data : Value) : RecordBody :=
  ⟨title, none, .notReferenced, none, [], .embedded (some data) none⟩

def linked (title url : String) (media : MediaType) (location : Position) : RecordBody :=
  ⟨title, none, .referenced, none, [], .linked url media location⟩

def withTags (r : RecordBody) (tags : List String) : RecordBody :=
  { r with tags }

def withDescription (r : RecordBody) (description : String) : RecordBody :=
  { r with description := some description }

/-- Sets where embedded data were captured; links keep their location. -/
def located (r : RecordBody) (p : Position) : RecordBody :=
  { r with content := r.content.located p }

def checkMember (key : String) : Value → Except DecodeFault Unit :=
  match key with
  | "title" => Members.readable Value.readText
  | "description" => Members.readable (Value.readOptional Value.readText)
  | "dataType" => Members.readable DataType.read
  | "dataSet" => Members.readable (Value.readOptional Value.readText)
  | "tags" => Members.readable (Value.readItems Value.readText)
  | "content" => Members.readable Content.read
  | _ => fun _ => .ok ()

def read (d : Document) : Except DecodeFault RecordBody := do
  return {
    title := ← Members.required Value.readText .missing d "title"
    description := ← Value.optionalField Value.readText d "description"
    dataType := ← Members.required DataType.read .missing d "dataType"
    dataSet := ← Value.optionalField Value.readText d "dataSet"
    tags := ← Members.optional (Value.readItems Value.readText) [] d "tags"
    content := ← Members.required Content.read .missing d "content" }

def ofDocument (d : Document) : Except DecodeFault RecordBody := do
  Members.check checkMember d
  read d

def toDocument (r : RecordBody) : Document :=
  [("title", .string r.title)] ++
    presentField "description" (r.description.map .string) ++
    [("dataType", r.dataType.toValue)] ++
    presentField "dataSet" (r.dataSet.map .string) ++
    [("tags", textsValue r.tags), ("content", .document r.content.toDocument)]

end RecordBody

/-- What is changed on a record; absent fields are kept. -/
structure RecordChange where
  title : Option String := none
  description : Option String := none
  dataType : Option DataType := none
  dataSet : Option String := none
  tags : Option (List String) := none
  content : Option Content := none

namespace RecordChange

def checkMember (key : String) : Value → Except DecodeFault Unit :=
  match key with
  | "title" => Members.readable (Value.readOptional Value.readText)
  | "dataType" => Members.readable (Value.readOptional DataType.read)
  | "tags" => Members.readable (Value.readOptional (Value.readItems Value.readText))
  | "content" => Members.readable (Value.readOptional Content.read)
  | key => RecordBody.checkMember key

def ofDocument (d : Document) : Except DecodeFault RecordChange := do
  Members.check checkMember d
  return {
    title := ← Value.optionalField Value.readText d "title"
    description := ← Value.optionalField Value.readText d "description"
    dataType := ← Value.optionalField DataType.read d "dataType"
    dataSet := ← Value.optionalField Value.readText d "dataSet"
    tags := ← Value.optionalField (Value.readItems Value.readText) d "tags"
    content := ← Value.optionalField Content.read d "content" }

def toDocument (c : RecordChange) : Document :=
  presentField "title" (c.title.map .string) ++
    presentField "description" (c.description.map .string) ++
    presentField "dataType" (c.dataType.map DataType.toValue) ++
    presentField "dataSet" (c.dataSet.map .string) ++
    presentField "tags" (c.tags.map textsValue) ++
    presentField "content" (c.content.map (fun c => .document c.toDocument))

end RecordChange

/-- Listings of metadata leave out the embedded data. -/
def Record.model : Model RecordBody RecordChange where
  name := "Record"
  collectionName := "records"
  bulkField := some Pipeline.bulkDataField
  checkMember := RecordBody.checkMember
  readBody := RecordBody.read
  readNew := RecordBody.ofDocument
  readChange := RecordChange.ofDocument
  writeBody := RecordBody.toDocument
  writeChange := RecordChange.toDocument

end DocumentStore
