import DocumentStore.Proofs.Filter.Valid
import DocumentStore.Proofs.Reading

/-! Which JSON is an operand of an operation, and that this is all that is read as one. -/

namespace DocumentStore

/-- A position as it is written: two numerals, the longitude first. -/
def Position.IsWritten (p : Position) (v : Json) : Prop :=
  ∃ longitude latitude : Json.Numeral, v = .array [.number longitude, .number latitude] ∧
    p = ⟨longitude.toFloat, latitude.toFloat⟩ ∧ p.Valid

/-- What each operation takes as its operand. -/
def OperationKind.Fits (v : Json) : OperationKind → Prop
  | .contains => ∃ s, v = .string s ∧ (Pattern.ofText? {} s).isSome = true
  | .equals => ∃ s, v = .string s
  | .compare _ => ∃ n : Json.Numeral, v = .number n ∧
      (n.toInt64?.isSome = true ∨ n.toFloat.isFinite = true)
  | .is => ∃ b, v = .bool b
  | .radius => ∃ (center : Position) (place : Json) (kilometres : Json.Numeral),
      v.get? "center" = some place ∧ center.IsWritten place ∧
      (v.get? "radius").or (v.get? "radiusKm") = some (.number kilometres) ∧
      kilometres.toFloat.isFinite = true ∧ 0 ≤ kilometres.toFloat
  | .area => ∃ (vertices : List Json) (ring : List Position),
      v.get? "vertices" = some (.array vertices) ∧
      List.Forall₂ (fun v p => Position.IsWritten p v) vertices ring ∧ ValidRing ring

theorem asFloat?_eq_some_iff {v : Json} {x : Float} :
    v.asFloat? = some x ↔ ∃ n : Json.Numeral, v = .number n ∧ x = n.toFloat := by
  cases v <;> simp [Json.asFloat?, eq_comm]

theorem asArray?_eq_some_iff {v : Json} {items : List Json} :
    v.asArray? = some items ↔ v = .array items := by
  cases v <;> simp [Json.asArray?]

theorem readCoordinate_eq_some_iff {v : Json} {x : Float} : readCoordinate v = some x ↔
    ∃ n : Json.Numeral, v = .number n ∧ x = n.toFloat ∧ x.isFinite = true := by
  rw [readCoordinate, Option.filter_eq_some_iff, asFloat?_eq_some_iff]
  exact ⟨fun ⟨⟨n, hv, he⟩, hx⟩ => ⟨n, hv, he, hx⟩, fun ⟨n, hv, he, hx⟩ => ⟨⟨n, hv, he⟩, hx⟩⟩

theorem Position.ofJson_eq_ok_iff {v : Json} {p : Position} :
    ofJson v = .ok p ↔ p.IsWritten v := by
  constructor
  · intro h
    have hvalid := valid_of_ofJson h
    unfold ofJson at h
    split at h
    · next a b =>
      split at h
      · next longitude latitude hlon hlat =>
        obtain ⟨lon, rfl, rfl, -⟩ := readCoordinate_eq_some_iff.mp hlon
        obtain ⟨lat, rfl, rfl, -⟩ := readCoordinate_eq_some_iff.mp hlat
        dsimp only at h
        split at h
        · cases h
          exact ⟨lon, lat, rfl, rfl, hvalid⟩
        · cases h
      · cases h
    · cases h
    · cases h
  · rintro ⟨lon, lat, rfl, rfl, hvalid⟩
    have hlon := readCoordinate_eq_some_iff.mpr ⟨lon, rfl, rfl, hvalid.longitudeFinite⟩
    have hlat := readCoordinate_eq_some_iff.mpr ⟨lat, rfl, rfl, hvalid.latitudeFinite⟩
    have hrange := inRange_iff.mpr ⟨hvalid.longitudeRange, hvalid.latitudeRange⟩
    simp only [ofJson, hlon, hlat, hrange, if_true]

theorem reads_readPattern_iff {v : Json} :
    Reads (readPattern v) ↔ OperationKind.contains.Fits v := by
  cases v with
  | string s =>
    by_cases h : (Pattern.ofText? {} s).isSome = true <;>
      simp [readPattern, Reads, OperationKind.Fits, h]
  | _ => simp [readPattern, Reads, OperationKind.Fits]

theorem reads_readNumber_iff {c : Comparison} {v : Json} :
    Reads (readNumber (.compare c) v) ↔ (OperationKind.compare c).Fits v := by
  cases v with
  | number n =>
    by_cases h : (n.toInt64?.isSome || n.toFloat.isFinite) = true
    · refine iff_of_true ⟨.ofNumeral n, if_pos h⟩ ⟨n, rfl, by simpa using h⟩
    · refine iff_of_false ?_ ?_
      · rintro ⟨a, ha⟩
        rw [readNumber, if_neg h] at ha
        cases ha
      · rintro ⟨n', he, hn⟩
        cases he
        exact h (by simpa using hn)
  | _ => simp [readNumber, Reads, OperationKind.Fits]

theorem readRadius_object (members : List (String × Json)) :
    readRadius (.object members) = match members.lookup "center" with
      | some place => Position.ofJson place >>= fun center =>
        match ((members.lookup "radius").or (members.lookup "radiusKm")).bind Json.asFloat? with
        | none => .error .radiusKind
        | some kilometres =>
          if !kilometres.isFinite || kilometres < 0 then .error .radiusRange
          else .ok (center, kilometres)
      | none => .error .centerMissing :=
  rfl

theorem readRadius_eq_ok_iff {v : Json} {center : Position} {x : Float} :
    readRadius v = .ok (center, x) ↔ ∃ place kilometres,
      v.get? "center" = some place ∧ Position.ofJson place = .ok center ∧
      (v.get? "radius").or (v.get? "radiusKm") = some kilometres ∧
      kilometres.asFloat? = some x ∧ x.isFinite = true ∧ ¬ x < 0 := by
  cases v with
  | object members =>
    rw [readRadius_object]
    constructor
    · intro h
      split at h
      · next place hplace =>
        obtain ⟨center', hcenter, h⟩ := Traversal.bind_eq_ok_iff.mp h
        split at h
        · cases h
        · next hradius =>
          obtain ⟨kilometres, hkilometres, hx⟩ := Option.bind_eq_some_iff.mp hradius
          split at h
          · cases h
          · next hrange =>
            cases h
            simp only [Bool.or_eq_true, Bool.not_eq_true', decide_eq_true_eq, not_or] at hrange
            exact ⟨place, kilometres, hplace, hcenter, hkilometres, hx, by simpa using hrange.1,
              hrange.2⟩
      · cases h
    · rintro ⟨place, kilometres, hplace, hcenter, hradius, hx, hfinite, hneg⟩
      have hlookup : members.lookup "center" = some place := hplace
      have hkilometres : (members.lookup "radius").or (members.lookup "radiusKm") =
        some kilometres := hradius
      simp only [hlookup, hcenter, hkilometres, Option.bind_some, hx, hfinite, hneg]
      rfl
  | _ =>
    constructor
    · intro h
      cases h
    · rintro ⟨place, kilometres, hplace, -⟩
      cases hplace

theorem reads_readRadius_iff {v : Json} :
    Reads (readRadius v) ↔ OperationKind.radius.Fits v := by
  constructor
  · rintro ⟨⟨center, x⟩, h⟩
    obtain ⟨place, kilometres, hplace, hcenter, hradius, hx, hfinite, hneg⟩ :=
      readRadius_eq_ok_iff.mp h
    obtain ⟨n, rfl, rfl⟩ := asFloat?_eq_some_iff.mp hx
    exact ⟨center, place, n, hplace, Position.ofJson_eq_ok_iff.mp hcenter, hradius, hfinite,
      (Double.nonneg_iff_not_neg hfinite).mpr hneg⟩
  · rintro ⟨center, place, n, hplace, hcenter, hradius, hfinite, hnonneg⟩
    exact ⟨_, readRadius_eq_ok_iff.mpr ⟨place, .number n, hplace,
      Position.ofJson_eq_ok_iff.mpr hcenter, hradius, rfl, hfinite,
      (Double.nonneg_iff_not_neg hfinite).mp hnonneg⟩⟩

theorem readRing_of_get {v : Json} {vertices : List Json}
    (h : v.get? "vertices" = some (.array vertices)) :
    readRing v = vertices.mapM Position.ofJson >>= fun ring =>
      if ring.length < 4 then .error .ringTooShort
      else if !isClosed ring then .error .ringOpen
      else .ok ring := by
  rw [readRing, h]
  rfl

theorem readRing_eq_ok_iff {v : Json} {ring : List Position} :
    readRing v = .ok ring ↔ ∃ vertices, v.get? "vertices" = some (.array vertices) ∧
      vertices.mapM Position.ofJson = .ok ring ∧ 4 ≤ ring.length ∧ isClosed ring = true := by
  constructor
  · intro h
    cases hvertices : (v.get? "vertices").bind Json.asArray? with
    | none =>
      rw [readRing, hvertices] at h
      cases h
    | some vertices =>
      obtain ⟨items, hitems, hvertices⟩ := Option.bind_eq_some_iff.mp hvertices
      obtain rfl := asArray?_eq_some_iff.mp hvertices
      rw [readRing_of_get hitems] at h
      obtain ⟨ring', hring, h⟩ := Traversal.bind_eq_ok_iff.mp h
      split at h
      · cases h
      · next hlong =>
        split at h
        · cases h
        · next hclosed =>
          cases h
          exact ⟨vertices, hitems, hring, by omega, by simpa using hclosed⟩
  · rintro ⟨vertices, hvertices, hring, hlong, hclosed⟩
    rw [readRing_of_get hvertices]
    refine Traversal.bind_eq_ok_iff.mpr ⟨ring, hring, ?_⟩
    rw [if_neg (by omega), if_neg (by simp [hclosed])]

theorem reads_readRing_iff {v : Json} : Reads (readRing v) ↔ OperationKind.area.Fits v := by
  constructor
  · rintro ⟨ring, h⟩
    obtain ⟨vertices, hvertices, hread, -, -⟩ := readRing_eq_ok_iff.mp h
    exact ⟨vertices, ring, hvertices, (Traversal.mapM_eq_ok_iff.mp hread).imp fun _ _ h =>
      Position.ofJson_eq_ok_iff.mp h, valid_of_readRing h⟩
  · rintro ⟨vertices, ring, hvertices, hring, hvalid⟩
    have hread : vertices.mapM Position.ofJson = .ok ring :=
      Traversal.mapM_eq_ok_iff.mpr (hring.imp fun _ _ h => Position.ofJson_eq_ok_iff.mpr h)
    exact ⟨ring, readRing_eq_ok_iff.mpr ⟨vertices, hvertices, hread, hvalid.long, hvalid.closed⟩⟩

theorem Operation.reads_ofJson_iff {kind : OperationKind} {v : Json} :
    Reads (ofJson kind v) ↔ kind.Fits v := by
  cases kind with
  | contains => exact reads_map_iff.trans reads_readPattern_iff
  | equals =>
    refine reads_map_iff.trans ?_
    cases v <;> simp [readText, Reads, OperationKind.Fits]
  | compare c => exact reads_map_iff.trans reads_readNumber_iff
  | is =>
    refine reads_map_iff.trans ?_
    cases v <;> simp [readFlag, Reads, OperationKind.Fits]
  | radius => exact reads_map_iff.trans reads_readRadius_iff
  | area => exact reads_map_iff.trans reads_readRing_iff

end DocumentStore
