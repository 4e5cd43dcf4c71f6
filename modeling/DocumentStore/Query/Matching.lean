import DocumentStore.Pattern.Matching
import DocumentStore.Query.Order
import DocumentStore.Query.Reached
import DocumentStore.Query.Region

/-! Matching documents against queries. A query is a document: its keys are field paths with a value
or operators to satisfy, or combinators of further queries. Entries are tried in order, and the
first that fails or is refused decides. The nesting of combinators may be limited. -/

namespace DocumentStore

/-- The nesting of combinators that queries of the store may have. -/
def maxQueryDepth : Nat := 32

def isOperatorName (key : String) : Bool :=
  key.toList.head? == some '$'

/-- Whether a document holds operators rather than a value to be equal to. -/
def Document.isOperators : Document → Bool
  | (key, _) :: _ => isOperatorName key
  | [] => false

namespace Query

def all : Document := []

def byId (id : ObjectId) : Document :=
  [(idKey, .objectId id)]

def byIds (ids : List ObjectId) : Document :=
  [(idKey, .document [("$in", .array (ids.map .objectId))])]

def comparison? (operator : String) : Option Comparison :=
  match operator with
  | "$gt" => some .gt
  | "$gte" => some .gte
  | "$lt" => some .lt
  | "$lte" => some .lte
  | _ => none

def readPattern (pattern options : String) : Except QueryFault Pattern :=
  match Pattern.ofText? (.ofOptions options) pattern with
  | some p => .ok p
  | none => .error .malformedPattern

def patternMatchesAny (p : Pattern) (values : List Value) : Bool :=
  values.any (fun v => v.asString?.any p.isMatch)

def optionsOf (operators : Document) : String :=
  ((Document.get operators "$options").bind Value.asString?).getD ""

/-- An operator that holds no further query. -/
def matchesOperator (operators : Document) (values : List Value) (operator : String) (arg : Value) :
    Except QueryFault Bool :=
  match operator with
  | "$eq" => .ok (Value.equalsAny values arg)
  | "$ne" => .ok (!Value.equalsAny values arg)
  | "$in" =>
    match arg with
    | .array candidates => .ok (candidates.any (Value.equalsAny values))
    | _ => .error .candidatesNotAnArray
  | "$regex" =>
    match arg with
    | .string pattern =>
      (readPattern pattern (optionsOf operators)).map (patternMatchesAny · values)
    | .regex pattern options => (readPattern pattern options).map (patternMatchesAny · values)
    | _ => .error .patternNotAString
  | "$options" =>
    if Document.contains operators "$regex" then .ok true else .error .optionsWithoutPattern
  | "$geoWithin" =>
    match arg with
    | .document spec =>
      (Region.ofDocument spec).map
        (fun region => (values.filterMap Value.asPosition?).any (region.contains ·))
    | _ => .error (.notADocument "$geoWithin")
  | operator =>
    match comparison? operator with
    | some c => .ok (c.holdsOfAny values arg)
    | none => .error (.unknownOperator operator)

def isBeyond (limit : Option Nat) (depth : Nat) : Bool :=
  limit.any (· < depth)

mutual

/-- Whether the values of a field satisfy operators. `operators` is the document they come from. -/
def matchesOperators (limit : Option Nat) (operators : Document) (values : List Value)
    (depth : Nat) : List (String × Value) → Except QueryFault Bool
  | [] => .ok true
  | (operator, arg) :: rest => do
    let holds ←
      if operator = "$not" then matchesNot limit values depth arg
      else matchesOperator operators values operator arg
    if holds then matchesOperators limit operators values depth rest else return false

def matchesNot (limit : Option Nat) (values : List Value) (depth : Nat) :
    Value → Except QueryFault Bool
  | .document fields =>
    if isBeyond limit (depth + 1) then .error .nestedTooDeep
    else if Document.isOperators fields then
      (matchesOperators limit fields values (depth + 1) fields).map (!·)
    else .error .notWithoutOperators
  | .regex pattern options =>
    if isBeyond limit (depth + 1) then .error .nestedTooDeep
    else (readPattern pattern options).map (fun p => !patternMatchesAny p values)
  | _ =>
    if isBeyond limit (depth + 1) then .error .nestedTooDeep else .error .notWithoutOperators

end

def matchesField (limit : Option Nat) (values : List Value) (depth : Nat) (condition : Value) :
    Except QueryFault Bool :=
  match condition with
  | .document fields =>
    if Document.isOperators fields then matchesOperators limit fields values depth fields
    else .ok (Value.equalsAny values condition)
  | _ => .ok (Value.equalsAny values condition)

mutual

def matchesAll (limit : Option Nat) (d : Document) (depth : Nat) :
    List (String × Value) → Except QueryFault Bool
  | [] => .ok true
  | (key, condition) :: rest => do
    if ← matchesEntry limit d depth key condition then matchesAll limit d depth rest
    else return false

def matchesEntry (limit : Option Nat) (d : Document) (depth : Nat) (key : String) :
    Value → Except QueryFault Bool
  | .array clauses =>
    if key = "$and" ∨ key = "$or" then
      if clauses.isEmpty then .error (.noClauses key)
      else if clauses.all (fun c => c.asDocument?.isSome) then
        if key = "$and" then matchesEach limit d (depth + 1) clauses
        else matchesSome limit d (depth + 1) clauses
      else .error (.notADocument key)
    else if isOperatorName key then .error (.unknownTopLevelOperator key)
    else matchesField limit (Document.reached d (.ofString key)) depth (.array clauses)
  | condition =>
    if key = "$and" ∨ key = "$or" then .error (.noClauses key)
    else if isOperatorName key then .error (.unknownTopLevelOperator key)
    else matchesField limit (Document.reached d (.ofString key)) depth condition

def matchesEach (limit : Option Nat) (d : Document) (depth : Nat) :
    List Value → Except QueryFault Bool
  | [] => .ok true
  | clause :: rest => do
    if ← matchesClause limit d depth clause then matchesEach limit d depth rest
    else return false

def matchesSome (limit : Option Nat) (d : Document) (depth : Nat) :
    List Value → Except QueryFault Bool
  | [] => .ok false
  | clause :: rest => do
    if ← matchesClause limit d depth clause then return true
    else matchesSome limit d depth rest

def matchesClause (limit : Option Nat) (d : Document) (depth : Nat) :
    Value → Except QueryFault Bool
  | .document fields =>
    if isBeyond limit depth then .error (.depthExceeded (limit.getD 0))
    else matchesAll limit d depth fields
  | _ => .error (.notADocument "clause")

end

def matchesWithin (limit : Option Nat) (query d : Document) : Except QueryFault Bool :=
  matchesAll limit d 0 query

end Query

def Document.matches (d query : Document) : Except QueryFault Bool :=
  Query.matchesWithin (some maxQueryDepth) query d

end DocumentStore
