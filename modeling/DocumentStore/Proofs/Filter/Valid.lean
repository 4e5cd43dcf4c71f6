import DocumentStore.Filter.Reading
import DocumentStore.Proofs.Double
import DocumentStore.Proofs.Traversal

/-! Valid filter sets: those whose keys name a field and whose operands are in the range of their
operation. Reading checks all of it, so that every set that is read is valid. -/

namespace DocumentStore

structure Position.Valid (p : Position) : Prop where
  longitudeFinite : p.longitude.isFinite = true
  latitudeFinite : p.latitude.isFinite = true
  longitudeRange : -180 ≤ p.longitude ∧ p.longitude ≤ 180
  latitudeRange : -90 ≤ p.latitude ∧ p.latitude ≤ 90

def Number.Valid : Number → Prop
  | int _ => True
  | float x => x.isFinite = true

structure ValidRing (ring : List Position) : Prop where
  long : 4 ≤ ring.length
  closed : isClosed ring = true
  vertices : ∀ p ∈ ring, p.Valid

def Operation.Valid : Operation → Prop
  | contains pattern => (Pattern.ofText? {} pattern).isSome = true
  | equals _ => True
  | compare _ operand => operand.Valid
  | is _ => True
  | radius center kilometres => center.Valid ∧ kilometres.isFinite = true ∧ 0 ≤ kilometres
  | area ring => ValidRing ring

structure Filter.Valid (f : Filter) : Prop where
  key : f.key.isEmpty = false
  operation : f.operation.Valid

structure Concatenation.Valid (c : Concatenation) : Prop where
  nonempty : c.filters ≠ []
  filters : ∀ f ∈ c.filters, f.Valid

def FilterEntry.Valid : FilterEntry → Prop
  | leaf f => f.Valid
  | concatenation c => c.Valid

def FilterSet.Valid (s : FilterSet) : Prop :=
  ∀ e ∈ s.entries, e.Valid

theorem readCoordinate_finite {v : Json} {x : Float} (h : readCoordinate v = some x) :
    x.isFinite = true :=
  (Option.filter_eq_some_iff.mp h).2

theorem Position.inRange_iff {p : Position} :
    p.inRange = true ↔ (-180 ≤ p.longitude ∧ p.longitude ≤ 180) ∧
      -90 ≤ p.latitude ∧ p.latitude ≤ 90 := by
  simp only [inRange, Bool.and_eq_true, decide_eq_true_eq]
  constructor
  · rintro ⟨⟨⟨hw, he⟩, hs⟩, hn⟩
    exact ⟨⟨hw, he⟩, hs, hn⟩
  · rintro ⟨⟨hw, he⟩, hs, hn⟩
    exact ⟨⟨⟨hw, he⟩, hs⟩, hn⟩

theorem Position.valid_of_ofJson {v : Json} {p : Position} (h : ofJson v = .ok p) : p.Valid := by
  unfold ofJson at h
  split at h
  · next a b =>
    split at h
    · next longitude latitude hlon hlat =>
      dsimp only at h
      split at h
      · next hr =>
        cases h
        obtain ⟨hlons, hlats⟩ := inRange_iff.mp hr
        exact ⟨readCoordinate_finite hlon, readCoordinate_finite hlat, hlons, hlats⟩
      · cases h
    · cases h
  · cases h
  · cases h

theorem Number.valid_of_readNumber {kind : OperationKind} {v : Json} {n : Number}
    (h : readNumber kind v = .ok n) : n.Valid := by
  unfold readNumber at h
  split at h
  · next numeral =>
    split at h
    · next hn =>
      cases h
      unfold Number.ofNumeral
      split
      · trivial
      · next hi =>
        rw [hi] at hn
        exact hn
    · cases h
  · cases h

theorem pattern_of_readPattern {v : Json} {pattern : String} (h : readPattern v = .ok pattern) :
    (Pattern.ofText? {} pattern).isSome = true := by
  unfold readPattern at h
  split at h
  · split at h
    · next hp =>
      cases h
      exact hp
    · cases h
  · cases h

theorem valid_of_readRadius {v : Json} {center : Position} {kilometres : Float}
    (h : readRadius v = .ok (center, kilometres)) :
    center.Valid ∧ kilometres.isFinite = true ∧ 0 ≤ kilometres := by
  unfold readRadius at h
  dsimp only at h
  split at h
  · obtain ⟨members, -, h⟩ := Traversal.bind_eq_ok_iff.mp h
    split at h
    · obtain ⟨c, hc, h⟩ := Traversal.bind_eq_ok_iff.mp h
      split at h
      · cases h
      · next k hk =>
        split at h
        · cases h
        · next hr =>
          cases h
          simp only [Bool.or_eq_true, Bool.not_eq_true', decide_eq_true_eq, not_or] at hr
          have hf : kilometres.isFinite = true := by simpa using hr.1
          exact ⟨Position.valid_of_ofJson hc, hf, (Double.nonneg_iff_not_neg hf).mpr hr.2⟩
    · cases h
  · cases h

theorem valid_of_readRing {v : Json} {ring : List Position} (h : readRing v = .ok ring) :
    ValidRing ring := by
  unfold readRing at h
  dsimp only at h
  split at h
  · obtain ⟨vertices, -, h⟩ := Traversal.bind_eq_ok_iff.mp h
    obtain ⟨ps, hps, h⟩ := Traversal.bind_eq_ok_iff.mp h
    split at h
    · cases h
    · next hl =>
      split at h
      · cases h
      · next hc =>
        cases h
        refine ⟨by omega, by simpa using hc, ?_⟩
        intro p hp
        obtain ⟨u, -, hu⟩ := Traversal.exists_mem_of_mapM hps hp
        exact Position.valid_of_ofJson hu
  · cases h

theorem Operation.valid_of_ofJson {kind : OperationKind} {v : Json} {op : Operation}
    (h : ofJson kind v = .ok op) : op.Valid := by
  cases kind with
  | contains =>
    obtain ⟨pattern, hp, rfl⟩ := Traversal.map_eq_ok_iff.mp h
    exact pattern_of_readPattern hp
  | compare c =>
    obtain ⟨operand, ho, rfl⟩ := Traversal.map_eq_ok_iff.mp h
    exact Number.valid_of_readNumber ho
  | radius =>
    obtain ⟨⟨center, kilometres⟩, hr, rfl⟩ := Traversal.map_eq_ok_iff.mp h
    exact valid_of_readRadius hr
  | area =>
    obtain ⟨ring, hr, rfl⟩ := Traversal.map_eq_ok_iff.mp h
    exact valid_of_readRing hr
  | _ =>
    obtain ⟨a, -, rfl⟩ := Traversal.map_eq_ok_iff.mp h
    trivial

theorem Filter.valid_of_ofJson {v : Json} {f : Filter} (h : ofJson v = .ok f) : f.Valid := by
  unfold ofJson at h
  split at h
  · cases h
  · split at h
    · next fields hfields =>
      unfold FilterFields.toFilter at h
      split at h
      · cases h
      · next kind hkind =>
        dsimp only at h
        split at h
        · cases h
        · next hkey =>
          split at h
          · next op hop =>
            cases h
            exact ⟨by simpa using hkey, Operation.valid_of_ofJson hop⟩
          · cases h
    · cases h

theorem Concatenation.valid_of_ofJson {v : Json} {c : Concatenation} (h : ofJson v = .ok c) :
    c.Valid := by
  unfold ofJson at h
  split at h
  · next fields hfields =>
    unfold ConcatenationFields.toConcatenation at h
    split at h
    · cases h
    · next combinator hcombinator =>
      split at h
      · cases h
      · next hne =>
        obtain ⟨filters, hfilters, rfl⟩ := Traversal.map_eq_ok_iff.mp h
        refine ⟨?_, ?_⟩
        · rintro rfl
          rw [Traversal.mapM_eq_ok_iff, List.forall₂_nil_right_iff] at hfilters
          exact hne (by rw [hfilters]; rfl)
        · intro f hf
          obtain ⟨u, -, hu⟩ := Traversal.exists_mem_of_mapM hfilters hf
          exact Filter.valid_of_ofJson hu
  · cases h

theorem FilterEntry.valid_of_ofJson {v : Json} {e : FilterEntry} (h : ofJson v = .ok e) :
    e.Valid := by
  unfold ofJson at h
  split at h
  · split at h
    · obtain ⟨c, hc, rfl⟩ := Traversal.map_eq_ok_iff.mp h
      exact Concatenation.valid_of_ofJson hc
    · obtain ⟨f, hf, rfl⟩ := Traversal.map_eq_ok_iff.mp h
      exact Filter.valid_of_ofJson hf
  · cases h

theorem valid_of_readEntries {index : Nat} {vs : List Json} {entries : List FilterEntry}
    (h : readEntries index vs = .ok entries) : ∀ e ∈ entries, e.Valid := by
  induction vs generalizing index entries with
  | nil =>
    cases h
    simp
  | cons v vs ih =>
    rw [readEntries] at h
    split at h
    · cases h
    · next e he =>
      obtain ⟨rest, hrest, rfl⟩ := Traversal.map_eq_ok_iff.mp h
      intro e' hmem
      rcases List.mem_cons.mp hmem with rfl | hmem
      · exact FilterEntry.valid_of_ofJson he
      · exact ih hrest e' hmem

/-- Every set that is read is valid. -/
theorem FilterSet.valid_of_ofJson {v : Json} {s : FilterSet} (h : ofJson v = .ok s) : s.Valid := by
  unfold ofJson at h
  split at h
  · split at h
    · obtain ⟨entries, hentries, rfl⟩ := Traversal.map_eq_ok_iff.mp h
      exact valid_of_readEntries hentries
    · cases h
    · cases h
  · cases h

end DocumentStore
