import DocumentStore.Filter.Reading

/-! Filters as JSON. A double that is not finite has no numeral and is written as null, so that a
set with such an operand is not read back. -/

namespace DocumentStore

def Position.toJson (p : Position) : Json :=
  .array [.float p.longitude, .float p.latitude]

def Number.toJson : Number → Json
  | int n => .int n
  | float x => .float x

def Operation.toJson : Operation → Json
  | contains pattern => .string pattern
  | equals text => .string text
  | compare _ operand => operand.toJson
  | is flag => .bool flag
  | radius center kilometres =>
    .object [("center", center.toJson), ("radius", .float kilometres)]
  | area ring => .object [("vertices", .array (ring.map Position.toJson))]

def Filter.toJson (f : Filter) : Json :=
  .object [("key", .string f.key.text), ("operation", .string f.operation.kind.name),
    ("negate", .bool f.negate), ("value", f.operation.toJson)]

def Concatenation.toJson (c : Concatenation) : Json :=
  .object [("booleanOperation", .string c.combinator.name),
    ("filters", .array (c.filters.map Filter.toJson))]

def FilterEntry.toJson : FilterEntry → Json
  | leaf f => f.toJson
  | concatenation c => c.toJson

def FilterSet.toJson (s : FilterSet) : Json :=
  .object [("filterSet", .array (s.entries.map FilterEntry.toJson))]

end DocumentStore
