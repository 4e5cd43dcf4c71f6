import DocumentStore.Entity.Reading

/-! Entities are stored bodies with an identifier and two dates. A model says how the bodies of one
kind of entity are read and written, and how the fields to change on them are written. -/

namespace DocumentStore

def createdAtKey : String := "createdAt"
def updatedAtKey : String := "updatedAt"

inductive Visibility where
  | everyone
  | author
deriving DecidableEq

namespace Visibility

def name : Visibility → String
  | everyone => "PUBLIC"
  | author => "PRIVATE"

def read : Value.Reader Visibility :=
  Value.readVariant .loose [(everyone.name, everyone), (author.name, author)]

def toValue (v : Visibility) : Value :=
  .string v.name

def stated (d : Document) : Except DecodeFault Visibility :=
  Members.required read .missing d "visibility"

/-- Without any other word only the author sees an entity. -/
def orAuthor (d : Document) : Except DecodeFault Visibility :=
  Members.optional read author d "visibility"

end Visibility

/-- Dates are milliseconds from the first of January 1970. -/
structure Entity (β : Type) where
  id : ObjectId
  body : β
  createdAt : Int64
  updatedAt : Int64

/-- The first and the last millisecond that calendars reach. -/
def calendarRange : Int64 × Int64 :=
  (-8334601228800000, 8210266876799999)

def Entity.lastModified {β : Type} (e : Entity β) : Int64 :=
  max calendarRange.1 (min e.updatedAt calendarRange.2)

/-- `bulkField` is the field that listings of metadata leave out. The body of a stored entity is
read from a document whose members have been checked; a new one may leave out more. -/
structure Model (β δ : Type) where
  name : String
  collectionName : String
  bulkField : Option String
  checkMember : String → Value → Except DecodeFault Unit
  readBody : Document → Except DecodeFault β
  readNew : Document → Except DecodeFault β
  readChange : Document → Except DecodeFault δ
  writeBody : β → Document
  writeChange : δ → Document

namespace Model

variable {β δ : Type}

def checkEntity (m : Model β δ) (key : String) (v : Value) : Except DecodeFault Unit :=
  if key = idKey then Members.readable Value.readId v
  else if key = createdAtKey ∨ key = updatedAtKey then Members.readable Value.readDate v
  else m.checkMember key v

def decode (m : Model β δ) (d : Document) : Except DecodeFault (Entity β) := do
  Members.check m.checkEntity d
  return {
    id := ← Members.required Value.readId .missing d idKey
    body := ← m.readBody d
    createdAt := ← Members.required Value.readDate .missing d createdAtKey
    updatedAt := ← Members.required Value.readDate .missing d updatedAtKey }

def encode (m : Model β δ) (e : Entity β) : Document :=
  (idKey, .objectId e.id) :: m.writeBody e.body ++
    [(createdAtKey, .dateTime e.createdAt), (updatedAtKey, .dateTime e.updatedAt)]

end Model

end DocumentStore
