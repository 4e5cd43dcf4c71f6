import DocumentStore.Entity.Basic
import DocumentStore.Filter.Stored

/-! Traces are saved filters over records. -/

namespace DocumentStore

structure TraceBody where
  title : String
  description : Option String
  tags : List String
  author : String
  parent : Option ObjectId
  visibility : Visibility
  filters : FilterSet

abbrev Trace := Entity TraceBody

namespace TraceBody

def new (title author : String) (filters : FilterSet) : TraceBody :=
  ⟨title, none, [], author, none, .author, filters⟩

def checkMember (key : String) : Value → Except DecodeFault Unit :=
  match key with
  | "title" => Members.readable Value.readText
  | "description" => Members.readable (Value.readOptional Value.readText)
  | "tags" => Members.readable (Value.readItems Value.readText)
  | "author" => Members.readable Value.readText
  | "parent" => Members.readable (Value.readOptional Value.readId)
  | "visibility" => Members.readable Visibility.read
  | "filterSet" => Members.readable FilterSet.read
  | _ => fun _ => .ok ()

def read (readVisibility : Document → Except DecodeFault Visibility) (d : Document) :
    Except DecodeFault TraceBody := do
  return {
    title := ← Members.required Value.readText .missing d "title"
    description := ← Value.optionalField Value.readText d "description"
    tags := ← Members.optional (Value.readItems Value.readText) [] d "tags"
    author := ← Members.required Value.readText .missing d "author"
    parent := ← Value.optionalField Value.readId d "parent"
    visibility := ← readVisibility d
    filters := ← FilterSet.ofDocument d }

/-- A new trace is seen by its author alone unless it says otherwise. -/
def ofDocument (d : Document) : Except DecodeFault TraceBody := do
  Members.check checkMember d
  read Visibility.orAuthor d

def toDocument (t : TraceBody) : Document :=
  [("title", .string t.title)] ++
    presentField "description" (t.description.map .string) ++
    [("tags", textsValue t.tags), ("author", .string t.author)] ++
    presentField "parent" (t.parent.map .objectId) ++
    [("visibility", t.visibility.toValue), ("filterSet", t.filters.toValue)]

end TraceBody

/-- What is changed on a trace; absent fields are kept. -/
structure TraceChange where
  title : Option String := none
  description : Option String := none
  tags : Option (List String) := none
  author : Option String := none
  parent : Option ObjectId := none
  visibility : Option Visibility := none
  filters : Option FilterSet := none

namespace TraceChange

def checkMember (key : String) : Value → Except DecodeFault Unit :=
  match key with
  | "title" => Members.readable (Value.readOptional Value.readText)
  | "tags" => Members.readable (Value.readOptional (Value.readItems Value.readText))
  | "author" => Members.readable (Value.readOptional Value.readText)
  | "visibility" => Members.readable (Value.readOptional Visibility.read)
  | "filterSet" => Members.readable (Value.readOptional FilterSet.read)
  | key => TraceBody.checkMember key

def ofDocument (d : Document) : Except DecodeFault TraceChange := do
  Members.check checkMember d
  return {
    title := ← Value.optionalField Value.readText d "title"
    description := ← Value.optionalField Value.readText d "description"
    tags := ← Value.optionalField (Value.readItems Value.readText) d "tags"
    author := ← Value.optionalField Value.readText d "author"
    parent := ← Value.optionalField Value.readId d "parent"
    visibility := ← Value.optionalField Visibility.read d "visibility"
    filters := ← Value.optionalField FilterSet.read d "filterSet" }

def toDocument (c : TraceChange) : Document :=
  presentField "title" (c.title.map .string) ++
    presentField "description" (c.description.map .string) ++
    presentField "tags" (c.tags.map textsValue) ++
    presentField "author" (c.author.map .string) ++
    presentField "parent" (c.parent.map .objectId) ++
    presentField "visibility" (c.visibility.map Visibility.toValue) ++
    presentField "filterSet" (c.filters.map FilterSet.toValue)

end TraceChange

def Trace.model : Model TraceBody TraceChange where
  name := "Trace"
  collectionName := "traces"
  bulkField := none
  checkMember := TraceBody.checkMember
  readBody := TraceBody.read Visibility.stated
  readNew := TraceBody.ofDocument
  readChange := TraceChange.ofDocument
  writeBody := TraceBody.toDocument
  writeChange := TraceChange.toDocument

end DocumentStore
