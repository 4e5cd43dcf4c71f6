import DocumentStore.ErrorReport
import DocumentStore.Text.Blank
import DocumentStore.Value.Basic

/-! Identifiers in requests. Blanks around an identifier do not count, and lists are separated by
commas with empty items skipped. A malformed identifier is reported as it was given. -/

namespace DocumentStore.ObjectId

structure Malformed where
  text : String
  fault : Fault
deriving DecidableEq

def Malformed.report (m : Malformed) : ErrorReport :=
  (ErrorReport.invalidInput "id" s!"'{m.text}' is not a valid identifier").withSource
    m.fault.message

def ofText (text : String) : Except Malformed ObjectId :=
  (ofHex (Text.trim text)).mapError (⟨text, ·⟩)

def ofTexts (texts : List String) : Except Malformed (List ObjectId) :=
  texts.mapM ofText

def items (text : String) : List String :=
  ((Text.pieces (· == ',') text.toList).map
    (fun piece => String.ofList (Text.trimChars piece))).filter (· ≠ "")

def ofList (text : String) : Except Malformed (List ObjectId) :=
  ofTexts (items text)

/-- An identifier as the store compares it; other texts stay texts. -/
def valueOfText (text : String) : Value :=
  match ofHex text with
  | .ok id => .objectId id
  | .error _ => .string text

end DocumentStore.ObjectId
