import DocumentStore.Text.Blank
import DocumentStore.Text.Digits

/-! A field path names a possibly nested field by the keys and array indices on the way to it. It is
read from a text cut at dots and brackets, so that `rows[2].title` and `rows.2.title` are one
path. -/

namespace DocumentStore

def idKey : String := "_id"

namespace FieldPath

def isSeparator (c : Char) : Bool :=
  c == '.' || c == '[' || c == ']'

/-- A segment is what is left between separators once blanks are trimmed. -/
def IsSegment (s : String) : Prop :=
  s ≠ "" ∧ (∀ c ∈ s.toList, isSeparator c = false) ∧ Text.trim s = s

def split (text : String) : List String :=
  ((Text.pieces isSeparator text.toList).map
    (fun piece => String.ofList (Text.trimChars piece))).filter (· ≠ "")

theorem isSegment_of_mem_split {text s : String} (h : s ∈ split text) : IsSegment s := by
  simp only [split, List.mem_filter, List.mem_map, decide_eq_true_eq] at h
  obtain ⟨⟨piece, hp, rfl⟩, hne⟩ := h
  refine ⟨hne, ?_, ?_⟩
  · intro c hc
    rw [String.toList_ofList] at hc
    exact Text.not_sep_of_mem_pieces hp c (Text.mem_of_mem_trimChars hc)
  · simp [Text.trim, Text.trimChars_trimChars]

end FieldPath

structure FieldPath where
  segments : List String
  wellFormed : ∀ s ∈ segments, FieldPath.IsSegment s

namespace FieldPath

@[ext]
theorem ext {p q : FieldPath} (h : p.segments = q.segments) : p = q := by
  cases p; cases q; subst h; rfl

instance : DecidableEq FieldPath := fun p q =>
  if h : p.segments = q.segments then isTrue (ext h) else isFalse (fun e => h (e ▸ rfl))

def ofString (text : String) : FieldPath :=
  ⟨split text, fun _ h => isSegment_of_mem_split h⟩

def text (p : FieldPath) : String :=
  ".".intercalate p.segments

def isEmpty (p : FieldPath) : Bool :=
  p.segments.isEmpty

def isIdentifier (p : FieldPath) : Bool :=
  p.segments == [idKey]

def isWithinIdentifier (p : FieldPath) : Bool :=
  p.segments.head? == some idKey

def join (p : FieldPath) (segment : String) : FieldPath :=
  if p.isEmpty then ofString segment else ofString (p.text ++ "." ++ segment)

/-- The array index a segment stands for: decimal digits after an optional plus sign, of at most
sixty-four bits. -/
def index? (segment : String) : Option Nat :=
  Text.natBelow? UInt64.size segment

@[simp]
theorem segments_ofString (text : String) : (ofString text).segments = split text := rfl

end FieldPath

end DocumentStore
