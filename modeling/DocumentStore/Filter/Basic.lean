import DocumentStore.Decimal.Shortest
import DocumentStore.FieldPath

/-! The filter algebra. A filter is one typed predicate on one field, possibly negated. A
concatenation combines filters, and a filter set is a list of filters and concatenations of which a
document must pass all. -/

namespace DocumentStore

/-- A longitude and a latitude in degrees. -/
structure Position where
  longitude : Float
  latitude : Float

def Position.same (p q : Position) : Bool :=
  p.longitude == q.longitude && p.latitude == q.latitude

def isClosed (ring : List Position) : Bool :=
  match ring.head?, ring.getLast? with
  | some a, some b => a.same b
  | _, _ => ring.isEmpty

inductive Number where
  | int (n : Int64)
  | float (x : Float)

namespace Number

def toFloat : Number → Float
  | int n => Float.ofInt n.toInt
  | float x => x

def text : Number → String
  | int n => toString n.toInt
  | float x => Decimal.text x

end Number

inductive Comparison where
  | eq
  | gt
  | gte
  | lt
  | lte
deriving DecidableEq

inductive Operation where
  | contains (pattern : String)
  | equals (text : String)
  | compare (comparison : Comparison) (operand : Number)
  | is (flag : Bool)
  | radius (center : Position) (kilometres : Float)
  | area (ring : List Position)

inductive OperationKind where
  | contains
  | equals
  | compare (comparison : Comparison)
  | is
  | radius
  | area
deriving DecidableEq

namespace OperationKind

def all : List OperationKind :=
  [contains, equals, compare .eq, compare .gt, compare .gte, compare .lt, compare .lte, is,
    radius, area]

def name : OperationKind → String
  | contains => "CONTAINS"
  | equals => "MATCHES"
  | compare .eq => "EQ"
  | compare .gt => "GT"
  | compare .gte => "GTE"
  | compare .lt => "LT"
  | compare .lte => "LTE"
  | is => "IS"
  | radius => "RADIUS"
  | area => "AREA"

def named? (s : String) : Option OperationKind :=
  all.find? (fun kind => kind.name == s)

end OperationKind

def Operation.kind : Operation → OperationKind
  | contains _ => .contains
  | equals _ => .equals
  | compare c _ => .compare c
  | is _ => .is
  | radius _ _ => .radius
  | area _ => .area

structure Filter where
  key : FieldPath
  negate : Bool
  operation : Operation

namespace Filter

def new (key : FieldPath) (operation : Operation) : Filter :=
  ⟨key, false, operation⟩

def negated (f : Filter) : Filter :=
  { f with negate := !f.negate }

end Filter

inductive Combinator where
  | and
  | or
deriving DecidableEq

namespace Combinator

def name : Combinator → String
  | and => "AND"
  | or => "OR"

def named? (s : String) : Option Combinator :=
  if s == "AND" then some and else if s == "OR" then some or else none

end Combinator

structure Concatenation where
  combinator : Combinator
  filters : List Filter

inductive FilterEntry where
  | leaf (f : Filter)
  | concatenation (c : Concatenation)

structure FilterSet where
  entries : List FilterEntry

namespace FilterSet

def empty : FilterSet := ⟨[]⟩

def size (s : FilterSet) : Nat :=
  s.entries.length

end FilterSet

end DocumentStore
