import DocumentStore.Filter.Reading
import DocumentStore.Identifier
import DocumentStore.Query.Matching

/-! Filters as queries. A filter becomes a query on its key, and a negated filter the query that
holds for all other documents. A plan is the conjunction of the queries of a set's entries. -/

namespace DocumentStore

def Position.toValue (p : Position) : Value :=
  .array [.double p.longitude, .double p.latitude]

def Number.toValue : Number → Value
  | int n => .int64 n
  | float x => .double x

def Comparison.operator : Comparison → String
  | eq => "$eq"
  | gt => "$gt"
  | gte => "$gte"
  | lt => "$lt"
  | lte => "$lte"

def Combinator.operator : Combinator → String
  | and => "$and"
  | or => "$or"

namespace Filter

def negatable (key : FieldPath) (negate : Bool) (operators : Document) : Document :=
  [(key.text, if negate then .document [("$not", .document operators)] else .document operators)]

def equality (key : String) (negate : Bool) (value : Value) : Document :=
  [(key, if negate then .document [("$ne", value)] else value)]

def patternOperators (pattern : String) : Document :=
  [("$regex", .string pattern), ("$options", .string "i")]

def capOperators (center : Position) (kilometres : Float) : Document :=
  [("$geoWithin", .document [("$centerSphere",
    .array [center.toValue, .double (kilometres / Geo.earthRadius)])])]

def ringOperators (ring : List Position) : Document :=
  [("$geoWithin", .document [("$geometry", .document [("type", .string "Polygon"),
    ("coordinates", .array [.array (ring.map Position.toValue)])])])]

/-- The query of a filter. Texts on the identifier are identifiers and not patterns. -/
def toQuery (f : Filter) : Except FilterFault Document :=
  match f.operation with
  | .contains pattern =>
    if f.key.isIdentifier then .ok (equality idKey f.negate (ObjectId.valueOfText pattern))
    else if (Pattern.ofText? {} pattern).isSome then
      .ok (negatable f.key f.negate (patternOperators pattern))
    else .error (.operand f.key .notAPattern)
  | .equals text =>
    if f.key.isIdentifier then .ok (equality idKey f.negate (ObjectId.valueOfText text))
    else .ok (equality f.key.text f.negate (.string text))
  | .compare c operand => .ok (negatable f.key f.negate [(c.operator, operand.toValue)])
  | .is flag => .ok (negatable f.key f.negate [("$eq", .bool flag)])
  | .radius center kilometres => .ok (negatable f.key f.negate (capOperators center kilometres))
  | .area ring => .ok (negatable f.key f.negate (ringOperators ring))

end Filter

def Concatenation.toQuery (c : Concatenation) : Except FilterFault Document := do
  let queries ← c.filters.mapM Filter.toQuery
  return [(c.combinator.operator, .array (queries.map .document))]

def FilterEntry.toQuery : FilterEntry → Except FilterFault Document
  | leaf f => f.toQuery
  | concatenation c => c.toQuery

structure MatchPlan where
  conjuncts : List Document

namespace MatchPlan

def all : MatchPlan := ⟨[]⟩

def ofFilterSet (s : FilterSet) : Except FilterFault MatchPlan :=
  (s.entries.mapM FilterEntry.toQuery).map MatchPlan.mk

def and (plan : MatchPlan) (query : Document) : MatchPlan :=
  ⟨plan.conjuncts ++ [query]⟩

def isEmpty (plan : MatchPlan) : Bool :=
  plan.conjuncts.isEmpty

def single (plan : MatchPlan) : Document :=
  match plan.conjuncts with
  | [] => []
  | [query] => query
  | queries => [("$and", .array (queries.map .document))]

end MatchPlan

end DocumentStore
