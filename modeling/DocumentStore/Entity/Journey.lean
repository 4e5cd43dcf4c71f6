import DocumentStore.Entity.Basic
import DocumentStore.Filter.Stored

/-! Journeys are sequences of titled filters over records. -/

namespace DocumentStore

structure JourneyCollection where
  title : String
  filters : FilterSet

namespace JourneyCollection

def checkMember (key : String) : Value → Except DecodeFault Unit :=
  match key with
  | "title" => Members.readable Value.readText
  | "filterSet" => Members.readable FilterSet.read
  | _ => fun _ => .ok ()

def read : Value.Reader JourneyCollection :=
  Value.readRecord .loose ["title", "filterSet"] fun missing members => do
    Members.check checkMember members
    return {
      title := ← Members.required Value.readText missing members "title"
      filters := ← FilterSet.ofDocument members }

def toDocument (c : JourneyCollection) : Document :=
  [("title", .string c.title), ("filterSet", c.filters.toValue)]

def listValue (collections : List JourneyCollection) : Value :=
  .array (collections.map (fun c => .document c.toDocument))

end JourneyCollection

/-- `parent` is the journey this one was copied from, and `excludedIds` are the records its author
left out. -/
structure JourneyBody where
  title : String
  description : Option String
  tags : List String
  author : String
  parent : Option ObjectId
  collections : List JourneyCollection
  visibility : Visibility
  excludedIds : List String

abbrev Journey := Entity JourneyBody

namespace JourneyBody

def new (title author : String) : JourneyBody :=
  ⟨title, none, [], author, none, [], .author, []⟩

def withCollection (j : JourneyBody) (c : JourneyCollection) : JourneyBody :=
  { j with collections := j.collections ++ [c] }

def withVisibility (j : JourneyBody) (visibility : Visibility) : JourneyBody :=
  { j with visibility }

def checkMember (key : String) : Value → Except DecodeFault Unit :=
  match key with
  | "title" => Members.readable Value.readText
  | "description" => Members.readable (Value.readOptional Value.readText)
  | "tags" => Members.readable (Value.readItems Value.readText)
  | "author" => Members.readable Value.readText
  | "parentID" => Members.readable (Value.readOptional Value.readId)
  | "collections" => Members.readable (Value.readItems JourneyCollection.read)
  | "visibility" => Members.readable Visibility.read
  | "excludedIDs" => Members.readable (Value.readItems Value.readText)
  | _ => fun _ => .ok ()

def read (readVisibility : Document → Except DecodeFault Visibility) (d : Document) :
    Except DecodeFault JourneyBody := do
  return {
    title := ← Members.required Value.readText .missing d "title"
    description := ← Value.optionalField Value.readText d "description"
    tags := ← Members.optional (Value.readItems Value.readText) [] d "tags"
    author := ← Members.required Value.readText .missing d "author"
    parent := ← Value.optionalField Value.readId d "parentID"
    collections := ← Members.optional (Value.readItems JourneyCollection.read) [] d "collections"
    visibility := ← readVisibility d
    excludedIds := ← Members.optional (Value.readItems Value.readText) [] d "excludedIDs" }

/-- A new journey is seen by its author alone unless it says otherwise. -/
def ofDocument (d : Document) : Except DecodeFault JourneyBody := do
  Members.check checkMember d
  read Visibility.orAuthor d

def toDocument (j : JourneyBody) : Document :=
  [("title", .string j.title)] ++
    presentField "description" (j.description.map .string) ++
    [("tags", textsValue j.tags), ("author", .string j.author)] ++
    presentField "parentID" (j.parent.map .objectId) ++
    [("collections", JourneyCollection.listValue j.collections),
      ("visibility", j.visibility.toValue), ("excludedIDs", textsValue j.excludedIds)]

end JourneyBody

/-- What is changed on a journey; absent fields are kept. -/
structure JourneyChange where
  title : Option String := none
  description : Option String := none
  tags : Option (List String) := none
  author : Option String := none
  parent : Option ObjectId := none
  collections : Option (List JourneyCollection) := none
  visibility : Option Visibility := none
  excludedIds : Option (List String) := none

namespace JourneyChange

def checkMember (key : String) : Value → Except DecodeFault Unit :=
  match key with
  | "title" => Members.readable (Value.readOptional Value.readText)
  | "tags" => Members.readable (Value.readOptional (Value.readItems Value.readText))
  | "author" => Members.readable (Value.readOptional Value.readText)
  | "collections" =>
    Members.readable (Value.readOptional (Value.readItems JourneyCollection.read))
  | "visibility" => Members.readable (Value.readOptional Visibility.read)
  | "excludedIDs" => Members.readable (Value.readOptional (Value.readItems Value.readText))
  | key => JourneyBody.checkMember key

def ofDocument (d : Document) : Except DecodeFault JourneyChange := do
  Members.check checkMember d
  return {
    title := ← Value.optionalField Value.readText d "title"
    description := ← Value.optionalField Value.readText d "description"
    tags := ← Value.optionalField (Value.readItems Value.readText) d "tags"
    author := ← Value.optionalField Value.readText d "author"
    parent := ← Value.optionalField Value.readId d "parentID"
    collections := ← Value.optionalField (Value.readItems JourneyCollection.read) d "collections"
    visibility := ← Value.optionalField Visibility.read d "visibility"
    excludedIds := ← Value.optionalField (Value.readItems Value.readText) d "excludedIDs" }

def toDocument (c : JourneyChange) : Document :=
  presentField "title" (c.title.map .string) ++
    presentField "description" (c.description.map .string) ++
    presentField "tags" (c.tags.map textsValue) ++
    presentField "author" (c.author.map .string) ++
    presentField "parentID" (c.parent.map .objectId) ++
    presentField "collections" (c.collections.map JourneyCollection.listValue) ++
    presentField "visibility" (c.visibility.map Visibility.toValue) ++
    presentField "excludedIDs" (c.excludedIds.map textsValue)

end JourneyChange

def Journey.model : Model JourneyBody JourneyChange where
  name := "Journey"
  collectionName := "journeys"
  bulkField := none
  checkMember := JourneyBody.checkMember
  readBody := JourneyBody.read Visibility.stated
  readNew := JourneyBody.ofDocument
  readChange := JourneyChange.ofDocument
  writeBody := JourneyBody.toDocument
  writeChange := JourneyChange.toDocument

end DocumentStore
