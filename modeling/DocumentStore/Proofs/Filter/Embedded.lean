import DocumentStore.Filter.Embedded
import DocumentStore.Proofs.Reading

/-! The two ways of reading a filter: on its own and as a part of a larger record. They agree on the
entries of a set and on concatenations. On its own a filter may not name a combinator, and a set
must be an object with its entries; inside a record the combinator is a member like any unknown
one, the entries may be left out, and the set may be written by position. -/

namespace DocumentStore

/-- Two readings accept together and read the same. -/
def Agree {ε δ α : Type} (x : Except ε α) (y : Except δ α) : Prop :=
  ∀ a, x = .ok a ↔ y = .ok a

namespace Agree

variable {ε δ ν α β : Type} {x : Except ε α} {y : Except δ α}

theorem refl (x : Except ε α) : Agree x x :=
  fun _ => Iff.rfl

theorem of_errors {e : ε} {d : δ} : Agree (.error e : Except ε α) (.error d : Except δ α) :=
  fun _ => by simp

theorem symm (h : Agree x y) : Agree y x :=
  fun a => (h a).symm

theorem trans {z : Except ν α} (h : Agree x y) (h' : Agree y z) : Agree x z :=
  fun a => (h a).trans (h' a)

theorem mapError (g : ε → δ) : Agree x (x.mapError g) := by
  intro a
  cases x <;> simp [Except.mapError]

theorem bind (h : Agree x y) {f : α → Except ε β} {g : α → Except δ β}
    (hf : ∀ a, Agree (f a) (g a)) : Agree (x >>= f) (y >>= g) := by
  intro b
  rw [Traversal.bind_eq_ok_iff, Traversal.bind_eq_ok_iff]
  exact exists_congr fun a => and_congr (h a) (hf a b)

theorem map (h : Agree x y) (g : α → β) : Agree (x.map g) (y.map g) :=
  h.bind fun a => fun _ => by simp

end Agree

theorem agree_embedded {α : Type} (x : Except FilterFault α) : Agree x (embedded x) :=
  Agree.mapError EmbeddedFault.filter

theorem FilterEntry.readings_agree (v : Json) : Agree (ofJson v) (ofEmbedded v) :=
  agree_embedded _

theorem Concatenation.readings_agree (v : Json) : Agree (ofJson v) (ofEmbedded v) := by
  unfold ofJson ofEmbedded
  cases ConcatenationFields.ofJson v with
  | ok fields => exact agree_embedded _
  | error e => exact Agree.of_errors

/-! A name that a record does not know makes no difference to what is read from it. -/

namespace Members

variable {ν ε α : Type} {members : List (String × ν)} {name key : String}

def without (name : String) (members : List (String × ν)) : List (String × ν) :=
  members.filter (fun entry => entry.1 != name)

theorem without_cons {v : ν} : without name ((key, v) :: members) =
    if key = name then without name members else (key, v) :: without name members := by
  by_cases h : key = name <;> simp [without, h]

theorem lookup_without_self : (without name members).lookup name = none := by
  rw [List.lookup_eq_none_iff]
  intro entry h
  have h : entry.1 ≠ name := by simpa using (List.mem_filter.mp h).2
  simpa using h.symm

theorem lookup_without (h : key ≠ name) :
    (without name members).lookup key = members.lookup key := by
  induction members with
  | nil => rfl
  | cons entry rest ih =>
    obtain ⟨k, v⟩ := entry
    rw [without_cons]
    split
    · next hk =>
      have hne : (key == k) = false := by simpa [hk] using h
      rw [ih, List.lookup_cons, hne]
    · rw [List.lookup_cons, List.lookup_cons, ih]

theorem check_without {checkMember : String → ν → Except ε Unit}
    (h : ∀ v, checkMember name v = .ok ()) :
    check checkMember (without name members) = check checkMember members := by
  induction members with
  | nil => rfl
  | cons entry rest ih =>
    obtain ⟨k, v⟩ := entry
    rw [without_cons]
    split
    · next hk => rw [ih, check, hk, h v]
    · rw [check, check, ih]

end Members

def Json.without (name : String) : Json → Json
  | .object members => .object (Members.without name members)
  | v => v

namespace Filter

theorem isConcatenation_without (v : Json) :
    isConcatenation (v.without "booleanOperation") = false := by
  cases v <;> simp [isConcatenation, Json.without, Json.get?, Json.asObject?,
    Members.lookup_without_self]

theorem fields_without (v : Json) :
    FilterFields.ofJson (v.without "booleanOperation") = FilterFields.ofJson v := by
  cases v with
  | object members =>
    have check : Members.check FilterFields.checkMember
        (Members.without "booleanOperation" members) =
          Members.check FilterFields.checkMember members :=
      Members.check_without fun v => by simp [FilterFields.checkMember]
    simp [Json.without, FilterFields.ofJson, Json.readRecord, Members.required,
      Members.optional, check, Members.lookup_without]
  | _ => rfl

/-- On its own, a filter is refused for naming a combinator and for nothing else. -/
theorem ofJson_eq_ok_iff {v : Json} {f : Filter} :
    ofJson v = .ok f ↔ isConcatenation v = false ∧ ofEmbedded v = .ok f := by
  unfold ofJson ofEmbedded
  cases isConcatenation v with
  | true => simp
  | false =>
    cases FilterFields.ofJson v with
    | ok fields => simpa using agree_embedded fields.toFilter f
    | error e => simp

theorem ofEmbedded_without (v : Json) :
    ofEmbedded (v.without "booleanOperation") = ofEmbedded v := by
  rw [ofEmbedded, fields_without, ofEmbedded]

theorem agree_without (v : Json) :
    Agree (ofEmbedded v) (ofJson (v.without "booleanOperation")) := by
  intro f
  rw [ofJson_eq_ok_iff, ofEmbedded_without]
  exact (and_iff_right (isConcatenation_without v)).symm

end Filter

namespace FilterSet

/-- The entries of a set that is read on its own are numbered for the report of a fault only. -/
theorem agree_readEntries (vs : List Json) :
    ∀ i, Agree (readEntries i vs) (vs.mapM FilterEntry.ofEmbedded) := by
  induction vs with
  | nil => exact fun _ _ => by simp [readEntries, pure, Except.pure]
  | cons v vs ih =>
    intro i
    have hnumbered : readEntries i (v :: vs) = (FilterEntry.ofJson v).mapError (.entry i) >>=
        fun e => (readEntries (i + 1) vs).map (e :: ·) := by
      rw [readEntries]
      cases FilterEntry.ofJson v <;> rfl
    have hfirst := (Agree.mapError (FilterFault.entry i)).symm.trans (FilterEntry.readings_agree v)
    rw [hnumbered, List.mapM_cons]
    exact hfirst.bind fun e => (ih (i + 1)).map (e :: ·)

/-- The set as an object with its entries, where a record may have it without or by position. -/
def completed : Json → Json
  | .object members =>
    match members.lookup "filterSet" with
    | some _ => .object members
    | none => .object (("filterSet", .array []) :: members)
  | .array [] => .object [("filterSet", .array [])]
  | .array [entries] => .object [("filterSet", entries)]
  | v => v

variable {members : List (String × Json)} {entries : Json}

theorem ofEmbedded_of_entries (h : members.lookup "filterSet" = some entries) :
    ofEmbedded (.object members) = (readEmbeddedEntries entries).map FilterSet.mk := by
  simp [ofEmbedded, h]

/-- An object with entries is read alike in both ways. -/
theorem agree_of_entries (h : members.lookup "filterSet" = some entries) :
    Agree (ofJson (.object members)) (ofEmbedded (.object members)) := by
  rw [ofEmbedded_of_entries h]
  simp only [ofJson, h]
  cases entries with
  | array entries => exact (agree_readEntries entries 0).map FilterSet.mk
  | _ => exact Agree.of_errors

theorem ofJson_eq_ok_iff {v : Json} {s : FilterSet} :
    ofJson v = .ok s ↔ (v.get? "filterSet").isSome ∧ ofEmbedded v = .ok s := by
  cases v with
  | object members =>
    cases h : members.lookup "filterSet" with
    | some entries => simpa [Json.get?, Json.asObject?, h] using agree_of_entries h s
    | none => simp [ofJson, Json.get?, Json.asObject?, h]
  | _ => simp [ofJson, Json.get?, Json.asObject?]

theorem ofEmbedded_completed (v : Json) : Agree (ofEmbedded v) (ofEmbedded (completed v)) := by
  match v with
  | .object members =>
    cases h : members.lookup "filterSet" with
    | some entries => simpa [completed, h] using Agree.refl (ofEmbedded (.object members))
    | none =>
      have unwritten : ofEmbedded (.object members) = .ok empty := by simp [ofEmbedded, h]
      rw [completed, h, ofEmbedded_of_entries List.lookup_cons_self, unwritten]
      exact Agree.refl _
  | .array [entries] =>
    rw [completed, ofEmbedded_of_entries List.lookup_cons_self]
    cases h : readEmbeddedEntries entries <;> simp [ofEmbedded, h, Except.map, Agree]
  | .array [] | .array (_ :: _ :: _) | .null | .bool _ | .number _ | .string _ =>
    exact Agree.refl _

/-- A value that is read inside a record has its entries once it is completed. -/
theorem entries_completed {v : Json} {s : FilterSet} (h : ofEmbedded v = .ok s) :
    ((completed v).get? "filterSet").isSome := by
  match v, h with
  | .object members, _ =>
    cases hm : members.lookup "filterSet" <;> simp [completed, hm, Json.get?, Json.asObject?]
  | .array [], _ => rfl
  | .array [_], _ => rfl
  | .array (entries :: _ :: _), h =>
    cases he : readEmbeddedEntries entries <;> simp [ofEmbedded, he] at h

theorem agree_completed (v : Json) : Agree (ofEmbedded v) (ofJson (completed v)) := by
  intro s
  rw [ofJson_eq_ok_iff, ← ofEmbedded_completed v s]
  exact ⟨fun h => ⟨entries_completed h, h⟩, And.right⟩

/-- The two readings of each of the four types. Those of entries and of concatenations agree. On its
own a filter is read unless it names a combinator, and a set if it is an object with entries; the
reading inside a record is that of the value without the combinator, and of the completed set. -/
theorem readings_compared (v : Json) :
    Agree (FilterEntry.ofJson v) (FilterEntry.ofEmbedded v) ∧
    Agree (Concatenation.ofJson v) (Concatenation.ofEmbedded v) ∧
    (∀ f, Filter.ofJson v = .ok f ↔ isConcatenation v = false ∧ Filter.ofEmbedded v = .ok f) ∧
    Agree (Filter.ofEmbedded v) (Filter.ofJson (v.without "booleanOperation")) ∧
    (∀ s, ofJson v = .ok s ↔ (v.get? "filterSet").isSome ∧ ofEmbedded v = .ok s) ∧
    Agree (ofEmbedded v) (ofJson (completed v)) :=
  ⟨FilterEntry.readings_agree v, Concatenation.readings_agree v, fun _ => Filter.ofJson_eq_ok_iff,
    Filter.agree_without v, fun _ => ofJson_eq_ok_iff, agree_completed v⟩

/-- A filter that names a combinator as well. -/
def mixedFilter : Json :=
  .object [("key", .string "public"), ("operation", .string "IS"), ("value", .bool true),
    ("booleanOperation", .string "AND")]

theorem readings_differ :
    ofJson (.object []) = .error .entriesMissing ∧ ofEmbedded (.object []) = .ok empty ∧
    ofJson (.array [.array []]) = .error .setNotAnObject ∧
    ofEmbedded (.array [.array []]) = .ok empty ∧
    Filter.ofJson mixedFilter = .error .nestedConcatenation ∧
    Filter.ofEmbedded mixedFilter = .ok (Filter.new (.ofString "public") (.is true)) :=
  ⟨rfl, rfl, rfl, rfl, rfl, rfl⟩

end FilterSet

end DocumentStore
