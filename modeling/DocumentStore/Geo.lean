import DocumentStore.Filter.Basic

/-! Geometry on the sphere and in the plane of longitudes and latitudes. A region is a cap around a
centre or the inside of a ring; both include their boundary. -/

namespace DocumentStore

namespace Geo

/-- The mean radius of the Earth at the equator, in kilometres. -/
def earthRadius : Float := 6378.1

def tolerance : Float := 1e-12

def pi : Float := 3.141592653589793

def radians (degrees : Float) : Float :=
  degrees * (pi / 180)

def square (x : Float) : Float := x * x

/-- The lesser of a number and one; what is no number counts as one. -/
def atMostOne (x : Float) : Float :=
  if x < 1 then x else 1

/-- The angle between two positions as seen from the centre of the sphere, in radians. -/
def centralAngle (a b : Position) : Float :=
  let lon₁ := radians a.longitude
  let lat₁ := radians a.latitude
  let lon₂ := radians b.longitude
  let lat₂ := radians b.latitude
  let h := square (Float.sin ((lat₂ - lat₁) / 2)) +
    Float.cos lat₁ * Float.cos lat₂ * square (Float.sin ((lon₂ - lon₁) / 2))
  2 * Float.asin (atMostOne h.sqrt)

/-- The lesser of two numbers; one that is no number is left out. -/
def lesser (a b : Float) : Float :=
  if a.isNaN then b else if b.isNaN then a else if b < a then b else a

def greater (a b : Float) : Float :=
  if a.isNaN then b else if b.isNaN then a else if a < b then b else a

def edges (ring : List Position) : List (Position × Position) :=
  ring.zip ring.tail

/-- Whether a ray from a point to the east crosses an edge. -/
def crosses (p : Position) (edge : Position × Position) : Bool :=
  let (a, b) := edge
  (p.latitude < a.latitude) != (p.latitude < b.latitude) &&
    p.longitude <
      a.longitude + (p.latitude - a.latitude) * (b.longitude - a.longitude) /
        (b.latitude - a.latitude)

def onEdge (p : Position) (edge : Position × Position) : Bool :=
  let (a, b) := edge
  let cross := (b.longitude - a.longitude) * (p.latitude - a.latitude) -
    (b.latitude - a.latitude) * (p.longitude - a.longitude)
  cross.abs ≤ tolerance &&
    lesser a.longitude b.longitude - tolerance ≤ p.longitude &&
    p.longitude ≤ greater a.longitude b.longitude + tolerance &&
    lesser a.latitude b.latitude - tolerance ≤ p.latitude &&
    p.latitude ≤ greater a.latitude b.latitude + tolerance

/-- A point is inside a ring if a ray from it crosses the ring an odd number of times. -/
def isInside (ring : List Position) (p : Position) : Bool :=
  (edges ring).countP (crosses p) % 2 == 1

def isOnBoundary (ring : List Position) (p : Position) : Bool :=
  (edges ring).any (onEdge p)

end Geo

/-- The size of a cap is an angle in radians. -/
inductive Region where
  | cap (center : Position) (angle : Float)
  | polygon (ring : List Position)

def Region.contains (p : Position) : Region → Bool
  | cap center angle => Geo.centralAngle center p ≤ angle + Geo.tolerance
  | polygon ring => Geo.isOnBoundary ring p || Geo.isInside ring p

end DocumentStore
