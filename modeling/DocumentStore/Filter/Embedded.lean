import DocumentStore.Filter.Reading

/-! Filters as parts of larger JSON records. The shape of the record is reported as for any record,
and a filter that is refused is reported by the text of its refusal. -/

namespace DocumentStore

inductive EmbeddedFault where
  | shape (e : ShapeError)
  | filter (fault : FilterFault)

def EmbeddedFault.message : EmbeddedFault → String
  | shape e => e.message
  | filter fault => fault.report.text

def embedded {α : Type} (read : Except FilterFault α) : Except EmbeddedFault α :=
  read.mapError .filter

def Filter.ofEmbedded (v : Json) : Except EmbeddedFault Filter :=
  match FilterFields.ofJson v with
  | .ok fields => embedded fields.toFilter
  | .error e => .error (.shape e)

def Concatenation.ofEmbedded (v : Json) : Except EmbeddedFault Concatenation :=
  match ConcatenationFields.ofJson v with
  | .ok fields => embedded fields.toConcatenation
  | .error e => .error (.shape e)

def FilterEntry.ofEmbedded (v : Json) : Except EmbeddedFault FilterEntry :=
  embedded (FilterEntry.ofJson v)

def readEmbeddedEntries (v : Json) : Except EmbeddedFault (List FilterEntry) :=
  match Json.readArray v with
  | .ok entries => entries.mapM FilterEntry.ofEmbedded
  | .error e => .error (.shape e)

/-- A set without entries is empty here. -/
def FilterSet.ofEmbedded (v : Json) : Except EmbeddedFault FilterSet :=
  match v with
  | .object members =>
    match members.lookup "filterSet" with
    | some entries => (readEmbeddedEntries entries).map FilterSet.mk
    | none => .ok FilterSet.empty
  | .array [] => .ok FilterSet.empty
  | .array (entries :: more) =>
    match readEmbeddedEntries entries with
    | .ok entries =>
      if more.isEmpty then .ok ⟨entries⟩ else .error (.shape (.tooLong (more.length + 1)))
    | .error e => .error e
  | v => .error (.shape (.mistyped v "struct FilterSet"))

def Number.ofEmbedded (v : Json) : Except EmbeddedFault Number :=
  match v with
  | .number n => .ok (.ofNumeral n)
  | _ => .error (.shape (.noAlternative "Number"))

def FieldPath.ofEmbedded (v : Json) : Except EmbeddedFault FieldPath :=
  match Json.readString v with
  | .ok text => .ok (.ofString text)
  | .error e => .error (.shape e)

end DocumentStore
