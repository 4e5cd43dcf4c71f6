import Mathlib.Data.List.DropRight
import DocumentStore.Text.Blank

/-! Texts cut at separators and trimmed. Blanks at the ends of a text do not count, however many
they are, and a text without any is left as it is. -/

namespace DocumentStore.Text

theorem pieces_eq_splitOnP (sep : Char → Bool) (cs : List Char) :
    pieces sep cs = cs.splitOnP sep := by
  induction cs with
  | nil => rfl
  | cons c cs ih =>
    rw [pieces, ih, List.splitOnP_cons_eq_if_modifyHead]
    cases hpieces : cs.splitOnP sep with
    | nil => exact absurd hpieces (List.splitOnP_ne_nil sep cs)
    | cons p ps => rfl

theorem splitOn_intercalate {c : Char} {sep : String} (hsep : sep.toList = [c])
    {parts : List String} (h : ∀ part ∈ parts, c ∉ part.toList) (hne : parts ≠ []) :
    (sep.intercalate parts).toList.splitOn c = parts.map String.toList := by
  rw [String.toList_intercalate, hsep]
  exact List.splitOn_intercalate c (by simpa using h) (by simpa using hne)

/-- What is left of a text once the blanks at both of its ends are taken off. -/
structure Trims (cs trimmed : List Char) : Prop where
  cut : ∃ before after, cs = before ++ trimmed ++ after ∧
    (∀ c ∈ before, isBlank c = true) ∧ ∀ c ∈ after, isBlank c = true
  first : ∀ c ∈ trimmed.head?, isBlank c = false
  last : ∀ c ∈ trimmed.getLast?, isBlank c = false

theorem not_blank_of_head?_dropWhile {cs : List Char} {c : Char}
    (h : (cs.dropWhile isBlank).head? = some c) : isBlank c = false := by
  have hhead := List.head?_dropWhile_not isBlank cs
  rw [h] at hhead
  exact hhead

theorem trims_trimChars (cs : List Char) : Trims cs (trimChars cs) := by
  let rest := cs.dropWhile isBlank
  have htrim : trimChars cs = rest.rdropWhile isBlank := rfl
  refine ⟨⟨cs.takeWhile isBlank, rest.rtakeWhile isBlank, ?_, ?_, ?_⟩, ?_, ?_⟩
  · rw [htrim, List.append_assoc, List.rdropWhile_append_rtakeWhile,
      List.takeWhile_append_dropWhile]
  · exact fun c hc => List.mem_takeWhile_imp hc
  · exact fun c hc => List.mem_rtakeWhile_imp hc
  · intro c hc
    obtain ⟨after, hafter⟩ : rest.rdropWhile isBlank <+: rest :=
      List.rdropWhile_prefix isBlank rest
    have hhead : rest.head? = some c := by
      rw [← hafter, ← htrim, List.head?_append, hc]
      rfl
    exact not_blank_of_head?_dropWhile hhead
  · intro c hc
    rw [trimChars, List.getLast?_reverse] at hc
    exact not_blank_of_head?_dropWhile hc

def AllBlank (cs : List Char) : Prop :=
  ∀ c ∈ cs, isBlank c = true

instance (cs : List Char) : Decidable (AllBlank cs) :=
  List.decidableBAll (isBlank · = true) cs

variable {cs before after : List Char}

theorem trimChars_surrounded (hbefore : AllBlank before) (hafter : AllBlank after) :
    trimChars (before ++ cs ++ after) = trimChars cs := by
  have hfront : (before ++ cs ++ after).dropWhile isBlank = (cs ++ after).dropWhile isBlank := by
    rw [List.append_assoc, List.dropWhile_append_of_pos hbefore]
  rw [trimChars, trimChars, hfront, List.dropWhile_append]
  split
  · next hempty =>
    rw [List.isEmpty_iff.mp hempty, List.dropWhile_eq_nil_iff.mpr hafter]
  · have hback : ∀ c ∈ after.reverse, isBlank c = true :=
      fun c hc => hafter c (List.mem_reverse.mp hc)
    rw [List.reverse_append, List.dropWhile_append_of_pos hback]

theorem trimChars_eq_nil_iff : trimChars cs = [] ↔ AllBlank cs := by
  constructor
  · intro h
    obtain ⟨before, after, hcs, hbefore, hafter⟩ := (trims_trimChars cs).cut
    rw [h, List.append_nil] at hcs
    rw [hcs]
    exact List.forall_mem_append.mpr ⟨hbefore, hafter⟩
  · intro h
    rw [trimChars, List.dropWhile_eq_nil_iff.mpr h]
    rfl

theorem trimChars_of_no_blank (h : ∀ c ∈ cs, isBlank c = false) : trimChars cs = cs := by
  have hfront : cs.dropWhile isBlank = cs :=
    List.dropWhile_eq_self_iff.mpr fun _ => by simp [h]
  have hback : cs.reverse.dropWhile isBlank = cs.reverse :=
    List.dropWhile_eq_self_iff.mpr fun _ => by simp [h]
  rw [trimChars, hfront, hback, List.reverse_reverse]

theorem trim_eq_empty_iff {s : String} : trim s = "" ↔ AllBlank s.toList := by
  rw [trim, ← String.ofList_nil, String.ofList_inj, trimChars_eq_nil_iff]

end DocumentStore.Text
