import Mathlib.Data.List.Rotate
import DocumentStore.Proofs.Filter.Evaluation

/-! A ring of vertices may start at any of them. The edges of a closed ring are the pairs of each
vertex and the next one around, so that another start only turns the list of edges; whether a point
is on an edge, and how many edges a ray from it crosses, does not depend on their order. -/

namespace DocumentStore

/-- The ring of some vertices, which ends with the first one again. -/
def closeRing (vertices : List Position) : List Position :=
  vertices ++ vertices.take 1

namespace Geo

theorem edges_closeRing (vertices : List Position) :
    edges (closeRing vertices) = vertices.zip (vertices.rotate 1) := by
  cases vertices with
  | nil => rfl
  | cons v rest =>
    have hring : closeRing (v :: rest) = (v :: rest) ++ [v] := rfl
    have htail : ((v :: rest) ++ [v]).tail = (rest ++ [v]) ++ [] := by simp
    rw [edges, hring, htail, List.zip_append (by simp), List.zip_nil_right, List.append_nil,
      List.rotate_cons_succ, List.rotate_zero]

theorem edges_closeRing_rotate (vertices : List Position) (k : Nat) :
    edges (closeRing (vertices.rotate k)) = (edges (closeRing vertices)).rotate k := by
  have hnext : (vertices.rotate k).rotate 1 = (vertices.rotate 1).rotate k := by
    rw [List.rotate_rotate, List.rotate_rotate, Nat.add_comm]
  rw [edges_closeRing, edges_closeRing, hnext]
  exact (List.zipWith_rotate_distrib Prod.mk vertices (vertices.rotate 1) k (by simp)).symm

variable (vertices : List Position) (k : Nat) (p : Position)

theorem isInside_rotate :
    isInside (closeRing (vertices.rotate k)) p = isInside (closeRing vertices) p := by
  rw [isInside, isInside, edges_closeRing_rotate, (List.rotate_perm _ k).countP_eq]

theorem isOnBoundary_rotate :
    isOnBoundary (closeRing (vertices.rotate k)) p = isOnBoundary (closeRing vertices) p := by
  rw [isOnBoundary, isOnBoundary, edges_closeRing_rotate, (List.rotate_perm _ k).any_eq]

end Geo

theorem Region.contains_rotate (vertices : List Position) (k : Nat) (p : Position) :
    (polygon (closeRing (vertices.rotate k))).contains p =
      (polygon (closeRing vertices)).contains p := by
  rw [contains, contains, Geo.isOnBoundary_rotate, Geo.isInside_rotate]

def Position.IsNumber (p : Position) : Prop :=
  p.longitude.isNaN = false ∧ p.latitude.isNaN = false

theorem Position.same_self {p : Position} (h : p.IsNumber) : p.same p = true := by
  rw [same, Double.beq_self h.1, Double.beq_self h.2, Bool.and_self]

theorem isClosed_closeRing {vertices : List Position} (h : ∀ p ∈ vertices, p.IsNumber) :
    isClosed (closeRing vertices) = true := by
  cases vertices with
  | nil => rfl
  | cons v rest =>
    have hlast : (closeRing (v :: rest)).getLast? = some v := List.getLast?_concat ..
    rw [isClosed, hlast]
    exact Position.same_self (h v List.mem_cons_self)

theorem length_closeRing {vertices : List Position} (h : 3 ≤ vertices.length) :
    4 ≤ (closeRing vertices).length := by
  simp only [closeRing, List.length_append, List.length_take]
  omega

namespace Filter

open Query

variable {key : FieldPath} {negate : Bool}

/-- An area whose ring is closed is never refused on a field. -/
theorem matches_area {ring : List Position} (hlong : 4 ≤ ring.length)
    (hclosed : isClosed ring = true) (key : FieldPath) (negate : Bool) :
    ∃ query, (Filter.mk key negate (.area ring)).toQuery = .ok query ∧ ∀ d : Document,
      d.matches query = atKey key.text (.ok ((d.reached key).any (fun v =>
        v.asPosition?.any (fun p => (Region.polygon ring).contains p)) != negate)) := by
  let f := Filter.mk key negate (.area ring)
  have hanswer (d : Document) : f.test.answer d = atKey key.text (.ok ((d.reached key).any
      (fun v => v.asPosition?.any (fun p => (Region.polygon ring).contains p)))) := by
    change atKey key.text (matchesOperators none (ringOperators ring)
      (d.reached (.ofString key.text)) 0 (ringOperators ring)) = _
    rw [key.ofString_text]
    exact congrArg _ (matchesOperators_region _ (ofDocument_ring hlong hclosed))
  obtain ⟨query, hquery, hmatches⟩ := matches_test (f := f) rfl
  refine ⟨query, hquery, fun d => ?_⟩
  rw [hmatches, hanswer, map_atKey]
  rfl

/-- An area does not depend on where its ring starts. The filters are answered alike on every
document, and so are their negations; on a field there is an answer. -/
theorem area_rotate {vertices : List Position} (hlong : 3 ≤ vertices.length)
    (hnumbers : ∀ p ∈ vertices, p.IsNumber) (k : Nat) (key : FieldPath) (negate : Bool) :
    ∃ query query',
      (Filter.mk key negate (.area (closeRing vertices))).toQuery = .ok query ∧
      (Filter.mk key negate (.area (closeRing (vertices.rotate k)))).toQuery = .ok query' ∧
      ∀ d : Document, d.matches query = d.matches query' ∧
        (isOperatorName key.text = false → ∃ b, d.matches query = .ok b) := by
  have hrotated : ∀ p ∈ vertices.rotate k, p.IsNumber :=
    fun p hp => hnumbers p (List.mem_rotate.mp hp)
  have hlength : 3 ≤ (vertices.rotate k).length := by rwa [List.length_rotate]
  obtain ⟨query, hquery, hmatches⟩ :=
    matches_area (length_closeRing hlong) (isClosed_closeRing hnumbers) key negate
  obtain ⟨query', hquery', hmatches'⟩ :=
    matches_area (length_closeRing hlength) (isClosed_closeRing hrotated) key negate
  refine ⟨query, query', hquery, hquery', fun d => ⟨?_, fun hkey => ?_⟩⟩
  · rw [hmatches, hmatches']
    simp only [Region.contains_rotate]
  · exact ⟨_, (hmatches d).trans (atKey_of_field _ hkey)⟩

/-- A ring that crosses itself, from its first and from its third vertex. -/
theorem area_rotate_crossed :
    let vertices : List Position := [⟨0, 0⟩, ⟨4, 4⟩, ⟨4, 0⟩, ⟨0, 4⟩]
    let d : Document := [("place", .array [.double 3, .double 2])]
    let area (ring : List Position) : Filter := .mk (.ofString "place") false (.area ring)
    3 ≤ vertices.length ∧ (∀ p ∈ vertices, p.IsNumber) ∧
      ∃ query query', (area (closeRing vertices)).toQuery = .ok query ∧
        (area (closeRing [⟨4, 0⟩, ⟨0, 4⟩, ⟨0, 0⟩, ⟨4, 4⟩])).toQuery = .ok query' ∧
        d.matches query = .ok true ∧ d.matches query' = .ok true := by
  intro vertices d area
  have hnumbers : ∀ p ∈ vertices, p.IsNumber := by
    have hall : ∀ p ∈ vertices, p.longitude.isNaN = false ∧ p.latitude.isNaN = false := by
      decide +kernel
    exact hall
  have hlong : 3 ≤ vertices.length := by decide
  obtain ⟨query, query', hquery, hquery', hsame⟩ :=
    area_rotate hlong hnumbers 2 (.ofString "place") false
  obtain ⟨hequal, hanswer⟩ := hsame d
  obtain ⟨b, hb⟩ := hanswer (by decide +kernel)
  have hinside : (d.matches query).toOption = some true := by
    rw [← Except.ok.inj hquery]
    decide +kernel
  rw [hb] at hinside
  obtain rfl := Option.some.inj hinside
  exact ⟨hlong, hnumbers, query, query', hquery, hquery', hb, hequal ▸ hb⟩

end Filter

end DocumentStore
