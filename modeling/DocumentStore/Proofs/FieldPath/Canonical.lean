import Mathlib.Data.List.Forall2
import DocumentStore.FieldPath
import DocumentStore.Proofs.Text.Pieces

/-! The dotted form of a field path is read back as the path itself, since no segment has a
separator or a blank at its ends. So paths are told apart by their dotted forms as they are by their
segments, and joining paths is joining their segments. One pass over a text, which keeps the segment
that it is in, writes the dotted form. -/

namespace DocumentStore

namespace FieldPath

theorem split_eq (text : String) : split text =
    ((text.toList.splitOnP isSeparator).map fun piece =>
      String.ofList (Text.trimChars piece)).filter (· ≠ "") := by
  rw [split, Text.pieces_eq_splitOnP]

/-- The texts on both sides of a separator are cut each on its own. -/
theorem split_separated {cs cs' : List Char} {c : Char} (h : isSeparator c = true) :
    split (String.ofList (cs ++ c :: cs')) =
      split (String.ofList cs) ++ split (String.ofList cs') := by
  simp only [split_eq, String.toList_ofList]
  rw [List.splitOnP_append_cons _ _ h, List.map_append, List.filter_append]

theorem split_append (s t : String) : split (s ++ "." ++ t) = split s ++ split t := by
  have hlist : s ++ "." ++ t = String.ofList (s.toList ++ '.' :: t.toList) :=
    String.toList_inj.mp (by simp)
  rw [hlist, split_separated rfl, String.ofList_toList, String.ofList_toList]

theorem split_plain {cs : List Char} (h : ∀ c ∈ cs, isSeparator c = false) :
    split (String.ofList cs) = [String.ofList (Text.trimChars cs)].filter (· ≠ "") := by
  rw [split_eq, String.toList_ofList, List.splitOnP_eq_singleton h, List.map_singleton]

theorem split_of_isSegment {s : String} (h : IsSegment s) : split s = [s] := by
  obtain ⟨hne, hsep, htrim⟩ := h
  have htrim : String.ofList (Text.trimChars s.toList) = s := htrim
  rw [← String.ofList_toList (s := s), split_plain hsep, htrim, String.ofList_toList]
  exact List.filter_eq_self.mpr (by simpa using hne)

variable {segments : List String} {pending : List Char}

theorem split_intercalate (h : ∀ s ∈ segments, IsSegment s) :
    split (".".intercalate segments) = segments := by
  induction segments with
  | nil => rfl
  | cons segment rest ih =>
    obtain ⟨hsegment, hrest⟩ := List.forall_mem_cons.mp h
    cases rest with
    | nil => simpa using split_of_isSegment hsegment
    | cons next rest =>
      rw [String.intercalate_cons_cons, split_append, split_of_isSegment hsegment, ih hrest]
      rfl

/-- Ends a segment. What is left of the pending characters is written behind a dot, unless it is
empty or the first segment. -/
def flush (written : String) (pending : List Char) : String :=
  let segment := String.ofList (Text.trimChars pending)
  if segment = "" then written
  else if written = "" then segment
  else written ++ "." ++ segment

/-- Writes the dotted form of a text in one pass over its characters. -/
def scan (written : String) (pending : List Char) : List Char → String
  | [] => flush written pending
  | c :: cs =>
    if isSeparator c then scan (flush written pending) [] cs
    else scan written (pending ++ [c]) cs

theorem intercalate_ne_empty (h : ∀ s ∈ segments, s ≠ "") (hne : segments ≠ []) :
    ".".intercalate segments ≠ "" := by
  intro hempty
  cases segments with
  | nil => exact hne rfl
  | cons segment rest =>
    have hsegment : segment ≠ "" := h segment List.mem_cons_self
    cases rest with
    | nil => exact hsegment (by simpa using hempty)
    | cons next rest =>
      rw [String.intercalate_cons_cons, String.append_eq_empty_iff,
        String.append_eq_empty_iff] at hempty
      exact hsegment hempty.1.1

theorem flush_intercalate (h : ∀ s ∈ segments, s ≠ "")
    (hpending : ∀ c ∈ pending, isSeparator c = false) :
    flush (".".intercalate segments) pending =
      ".".intercalate (segments ++ split (String.ofList pending)) := by
  rw [flush, split_plain hpending]
  by_cases hempty : String.ofList (Text.trimChars pending) = ""
  · simp [hempty]
  · rw [if_neg hempty, List.filter_eq_self.mpr (by simpa using hempty)]
    by_cases hfirst : segments = []
    · simp [hfirst]
    · rw [if_neg (intercalate_ne_empty h hfirst),
        String.intercalate_append_of_ne_nil hfirst (List.cons_ne_nil _ _),
        String.intercalate_singleton]

/-- What is written are the segments so far. The pending characters have no separator, and together
with the characters to come they are the part of the text that is still to be cut. -/
theorem scan_intercalate {cs : List Char} (h : ∀ s ∈ segments, s ≠ "")
    (hpending : ∀ c ∈ pending, isSeparator c = false) :
    scan (".".intercalate segments) pending cs =
      ".".intercalate (segments ++ split (String.ofList (pending ++ cs))) := by
  induction cs generalizing segments pending with
  | nil => rw [scan, flush_intercalate h hpending, List.append_nil]
  | cons c cs ih =>
    rw [scan]
    cases hc : isSeparator c with
    | true =>
      have hsegments : ∀ s ∈ segments ++ split (String.ofList pending), s ≠ "" := by
        intro s hs
        rcases List.mem_append.mp hs with hs | hs
        · exact h s hs
        · exact (isSegment_of_mem_split hs).1
      rw [if_pos rfl, flush_intercalate h hpending, ih hsegments (List.forall_mem_nil _),
        List.nil_append, split_separated hc, List.append_assoc]
    | false =>
      have hpending' : ∀ d ∈ pending ++ [c], isSeparator d = false := by
        intro d hd
        rcases List.mem_append.mp hd with hd | hd
        · exact hpending d hd
        · rwa [List.mem_singleton.mp hd]
      rw [if_neg Bool.false_ne_true, ih h hpending', List.append_assoc, List.singleton_append]

/-- The dotted form is written in one pass. -/
theorem text_ofString (text : String) : (ofString text).text = scan "" [] text.toList := by
  have hscan : scan (".".intercalate []) [] text.toList =
      ".".intercalate ([] ++ split (String.ofList ([] ++ text.toList))) :=
    scan_intercalate (List.forall_mem_nil _) (List.forall_mem_nil _)
  rw [String.intercalate_nil, List.nil_append, List.nil_append, String.ofList_toList] at hscan
  exact hscan.symm

theorem ofString_text (p : FieldPath) : ofString p.text = p :=
  ext (split_intercalate p.wellFormed)

theorem text_injective : Function.Injective text := by
  intro p q h
  rw [← p.ofString_text, h, q.ofString_text]

/-- The segments are read off the dotted form between its dots. -/
theorem segments_eq_splitOn_text (p : FieldPath) :
    p.segments = ((p.text.toList.splitOn '.').map String.ofList).filter (· ≠ "") := by
  cases hsegments : p.segments with
  | nil =>
    rw [text, hsegments]
    rfl
  | cons segment rest =>
    have hdots : ∀ s ∈ segment :: rest, '.' ∉ s.toList := by
      intro s hs hdot
      cases (p.wellFormed s (hsegments ▸ hs)).2.1 '.' hdot
    have hsplit : p.text.toList.splitOn '.' = (segment :: rest).map String.toList := by
      rw [text, hsegments]
      exact Text.splitOn_intercalate rfl hdots (List.cons_ne_nil _ _)
    have hne : ∀ s ∈ segment :: rest, s ≠ "" := fun s hs => (p.wellFormed s (hsegments ▸ hs)).1
    rw [hsplit, List.map_map, String.ofList_comp_toList, List.map_id]
    exact (List.filter_eq_self.mpr fun s hs => decide_eq_true (hne s hs)).symm

theorem segments_join (p : FieldPath) (segment : String) :
    (p.join segment).segments = p.segments ++ (ofString segment).segments := by
  rw [join]
  split
  · next hempty =>
    rw [List.isEmpty_iff.mp hempty]
    rfl
  · rw [segments_ofString, split_append, ← segments_ofString p.text, p.ofString_text,
      segments_ofString]

theorem isSeparator_eq_contains : isSeparator = (['.', '[', ']'].contains ·) := by
  funext c
  simp only [isSeparator, List.contains_cons, List.contains_nil, Bool.or_false, Bool.or_assoc]

/-- The pieces of a text without what is blank in them, and the segments those that are left. -/
theorem exists_trimmed (text : String) : ∃ trimmed,
    List.Forall₂ Text.Trims (text.toList.splitOnP (['.', '[', ']'].contains ·)) trimmed ∧
      (ofString text).segments = (trimmed.filter (· ≠ [])).map String.ofList := by
  rw [← isSeparator_eq_contains]
  refine ⟨(text.toList.splitOnP isSeparator).map Text.trimChars, ?_, ?_⟩
  · rw [List.forall₂_map_right_iff, List.forall₂_same]
    exact fun piece _ => Text.trims_trimChars piece
  · rw [segments_ofString, split_eq, List.filter_map, List.filter_map, List.map_map]
    refine congrArg (List.map _) (List.filter_congr fun piece _ => ?_)
    simp

/-- A path is its list of segments. They are what is left of the pieces of the text between its dots
and brackets, in their order, and are found again in the dotted form, which one pass over the text
writes. Paths are equal if their segments are, or else their dotted forms, and a path is joined to
another segment by segment. -/
theorem canonical_form :
    (∀ text : String, (ofString text).text = scan "" [] text.toList ∧ ∃ trimmed,
      List.Forall₂ Text.Trims (text.toList.splitOnP (['.', '[', ']'].contains ·)) trimmed ∧
        (ofString text).segments = (trimmed.filter (· ≠ [])).map String.ofList) ∧
    (∀ p : FieldPath, ofString p.text = p ∧
      p.segments = ((p.text.toList.splitOn '.').map String.ofList).filter (· ≠ "")) ∧
    (∀ p q : FieldPath, (p = q ↔ p.segments = q.segments) ∧ (p = q ↔ p.text = q.text)) ∧
    ∀ (p : FieldPath) (text : String),
      (p.join text).segments = p.segments ++ (ofString text).segments :=
  ⟨fun text => ⟨text_ofString text, exists_trimmed text⟩,
    fun p => ⟨p.ofString_text, p.segments_eq_splitOn_text⟩,
    fun _ _ => ⟨FieldPath.ext_iff, text_injective.eq_iff.symm⟩, segments_join⟩

/-- Brackets, a blank and an empty piece. -/
example : (ofString "rows[2]. title").text = "rows.2.title" := by
  decide +kernel

end FieldPath

end DocumentStore
