import DocumentStore.Entity.Reading
import DocumentStore.Value.Written

/-! The content of a record: a link to media that are stored elsewhere, or data stored in place.
Both may say where they were captured, as a point with a longitude and a latitude. -/

namespace DocumentStore

inductive MediaType where
  | photo
  | video
  | soundFile
deriving DecidableEq

namespace MediaType

def name : MediaType → String
  | photo => "PHOTO"
  | video => "VIDEO"
  | soundFile => "SOUNDFILE"

def all : List MediaType := [photo, video, soundFile]

end MediaType

inductive Content where
  | linked (url : String) (media : MediaType) (location : Position)
  | embedded (data : Option Value) (location : Option Position)

def named {α : Type} (name : α → String) (all : List α) : List (String × α) :=
  all.map (fun x => (name x, x))

namespace Position

/-- Two numbers; a loose reading skips further ones. -/
def readCoordinates (mode : Strictness) : Value.Reader Position
  | .array [] => .error .invalidLength
  | .array [x] => do
    let _ ← x.readDouble
    .error .invalidLength
  | .array (x :: y :: rest) => do
    let longitude ← x.readDouble
    let latitude ← y.readDouble
    if mode = .exact ∧ ¬rest.isEmpty then .error .invalidLength
    else return ⟨longitude, latitude⟩
  | _ => .error .mistyped

def readPointType (mode : Strictness) : Value.Reader Unit :=
  Value.readVariant mode [("Point", ())]

def checkMember (mode : Strictness) (key : String) : Value → Except DecodeFault Unit :=
  match key with
  | "type" => readPointType mode
  | "coordinates" => Members.readable (readCoordinates mode)
  | _ => fun _ => .ok ()

/-- A point, whose type may be left out. -/
def readPoint (mode : Strictness) : Value.Reader Position :=
  Value.readRecord mode ["type", "coordinates"] fun missing members => do
    Members.check (checkMember mode) members
    Members.required (readCoordinates mode) missing members "coordinates"

def toPoint (p : Position) : Document :=
  [("type", .string "Point"),
    ("coordinates", .array [.double p.longitude, .double p.latitude])]

end Position

namespace Content

def location : Content → Option Position
  | linked _ _ location => some location
  | embedded _ location => location

def data : Content → Option Value
  | linked _ _ _ => none
  | embedded data _ => data

/-- Sets where embedded data were captured. -/
def located (c : Content) (p : Position) : Content :=
  match c with
  | embedded data _ => embedded data (some p)
  | c => c

def readMedia : Value.Reader MediaType :=
  Value.readVariant .exact (named MediaType.name MediaType.all)

def readLocation : Value.Reader Position :=
  Position.readPoint .exact

def readLinked : Value.Reader Content :=
  Value.readRecord .exact ["url", "mediaType", "location"] fun missing members => do
    return .linked
      (← Members.required Value.readText missing members "url")
      (← Members.required readMedia missing members "mediaType")
      (← Members.required readLocation missing members "location")

def readEmbedded : Value.Reader Content :=
  Value.readRecord .exact ["data", "location"] fun _ members => do
    return .embedded
      (← Value.optionalField (Value.untagged .exact) members "data")
      (← Value.optionalField readLocation members "location")

/-- A link is tried first, so that embedded data are what is no link. -/
def read (v : Value) : Except DecodeFault Content :=
  match readLinked v with
  | .ok c => .ok c
  | .error _ =>
    match readEmbedded v with
    | .ok c => .ok c
    | .error _ => .error .noContent

def toDocument : Content → Document
  | linked url media location =>
    [("url", .string url), ("mediaType", .string media.name),
      ("location", .document location.toPoint)]
  | embedded data location =>
    presentField "data" (data.map Value.written) ++
      presentField "location" (location.map (fun p => .document p.toPoint))

end Content

end DocumentStore
