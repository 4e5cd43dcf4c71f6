import DocumentStore.Value.Tagged

/-! Reading the fields of entities: identifiers, dates, and names of variants. An identifier or a
date may be written as a tagged document. -/

namespace DocumentStore

namespace Value

variable {α : Type}

/-- An identifier is also read from its digits, from its bytes, and from a document tagged so. -/
def readId (v : Value) : Except DecodeFault ObjectId :=
  match v with
  | string text => (Tagged.id? text).elim (.error .invalidValue) .ok
  | binary 0 bytes => if h : bytes.length = 12 then .ok ⟨bytes, h⟩ else .error .invalidLength
  | v =>
    if v.members?.isNone then .error .mistyped
    else
      match untagged .loose v with
      | .ok (objectId id) => .ok id
      | .ok found => .error (.notAnId found)
      | .error e => .error e

def readDate (v : Value) : Except DecodeFault Int64 :=
  match untagged .loose v with
  | .ok (dateTime t) => .ok t
  | .ok _ => .error .notADate
  | .error e => .error e

def findVariant (variants : List (String × α)) (name : String) : Except DecodeFault α :=
  match variants.lookup name with
  | some x => .ok x
  | none => .error (.unknownVariant name (variants.map (·.1)))

/-- What stands beside a variant that holds nothing. -/
def checkUnit (mode : Strictness) (v : Value) : Except DecodeFault Unit :=
  match mode, v with
  | .exact, null => .ok ()
  | .exact, _ => .error .mistyped
  | .loose, v => (untagged .loose v).map fun _ => ()

/-- One of several names, which may also be the only key of a document. -/
def readVariant (mode : Strictness) (variants : List (String × α)) : Reader α
  | string name => findVariant variants name
  | document [(name, v)] => do
    let x ← findVariant variants name
    checkUnit mode v
    return x
  | document _ => .error .invalidValue
  | _ => .error .mistyped

end Value

def presentField (key : String) (v : Option Value) : Document :=
  v.toList.map (key, ·)

def textsValue (texts : List String) : Value :=
  .array (texts.map .string)

end DocumentStore
