import DocumentStore.Geo
import DocumentStore.Query.Fault

/-! Positions and regions as stored values. A position is a point object or a pair of numbers. -/

namespace DocumentStore

namespace Value

def pair? : List Value → Option Position
  | [a, b] => do
    let longitude ← a.asDouble?
    let latitude ← b.asDouble?
    return ⟨longitude, latitude⟩
  | _ => none

def asPosition? : Value → Option Position
  | document fields =>
    if (Document.get fields "type").bind asString? = some "Point" then
      ((Document.get fields "coordinates").bind asArray?).bind pair?
    else none
  | array items => pair? items
  | _ => none

end Value

namespace Region

def readCap (v : Value) : Except QueryFault Region :=
  match v with
  | .array [c, r] =>
    match c.asPosition? with
    | none => .error .capCenter
    | some center =>
      match r.asDouble?.filter (fun r => 0 ≤ r) with
      | none => .error .capRadius
      | some angle => .ok (.cap center angle)
  | _ => .error .capShape

def readVertex (v : Value) : Except QueryFault Position :=
  match v.asPosition? with
  | some p => .ok p
  | none => .error .vertex

/-- A ring has at least four vertices and ends where it begins. -/
def checkRing (ring : List Position) : Except QueryFault Region :=
  if 4 ≤ ring.length && isClosed ring then .ok (.polygon ring) else .error .ringOpen

def readPolygon (geometry : Document) : Except QueryFault Region := do
  if (Document.get geometry "type").bind Value.asString? = some "Polygon" then
    let rings := (Document.get geometry "coordinates").bind Value.asArray?
    match (rings.bind List.head?).bind Value.asArray? with
    | none => .error .ringMissing
    | some vertices => checkRing (← vertices.mapM readVertex)
  else .error .geometryType

/-- A cap takes precedence over a polygon. -/
def ofDocument (spec : Document) : Except QueryFault Region :=
  match Document.get spec "$centerSphere" with
  | some v => readCap v
  | none =>
    match (Document.get spec "$geometry").bind Value.asDocument? with
    | some geometry => readPolygon geometry
    | none => .error .unknownRegion

end Region

end DocumentStore
