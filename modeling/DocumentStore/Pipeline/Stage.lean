import DocumentStore.Decimal.Shortest
import DocumentStore.Query.Matching

/-! Stages of a pipeline. Each takes the documents the stage before it left. Stages are written as
documents with one field, which names the stage. -/

namespace DocumentStore

inductive Stage where
  | filter (query : Document)
  | skip (n : Nat)
  | limit (n : Nat)
  | unset (fields : List String)
  | count (field : String)

namespace Stage

/-- Whole numbers that are not negative, written as any numeric type. All of them are read as
doubles, so that one of more than fifty-three bits is rounded. -/
def natural? (v : Value) : Option Nat :=
  match v.asDouble? with
  | some x => if 0 ≤ x && Decimal.isIntegral x then some x.toUInt64.toNat else none
  | none => none

/-- Counts are written with a sign, so that they end at the largest such number. -/
def countValue (n : Nat) : Value :=
  .int64 (Int64.ofNat (min n Int64.maxValue.toNatClampNeg))

def toDocument : Stage → Document
  | filter query => [("$match", .document query)]
  | skip n => [("$skip", countValue n)]
  | limit n => [("$limit", countValue n)]
  | unset fields => [("$unset", .array (fields.map .string))]
  | count field => [("$count", .string field)]

def readNatural (stage : String) (arg : Value) : Except QueryFault Nat :=
  match natural? arg with
  | some n => .ok n
  | none => .error (.notANatural stage)

def readFieldName : Value → Except QueryFault String
  | .string name => .ok name
  | _ => .error .unsetNames

def isCountName (name : String) : Bool :=
  name ≠ "" && !isOperatorName name

def read (name : String) (arg : Value) : Except QueryFault Stage :=
  match name with
  | "$match" =>
    match arg with
    | .document query => .ok (filter query)
    | _ => .error (.notADocument "$match")
  | "$skip" => (readNatural "$skip" arg).map skip
  | "$limit" => do
    let n ← readNatural "$limit" arg
    if n = 0 then .error .zeroLimit else .ok (limit n)
  | "$unset" =>
    match arg with
    | .string field => .ok (unset [field])
    | .array items => (items.mapM readFieldName).map unset
    | _ => .error .unsetShape
  | "$count" =>
    match arg with
    | .string field => if isCountName field then .ok (count field) else .error .countName
    | _ => .error .countName
  | name => .error (.unknownStage name)

def ofDocument : Document → Except QueryFault Stage
  | [(name, arg)] => read name arg
  | _ => .error .stageFields

/-- The documents that satisfy a query. -/
def keep (query : Document) : List Document → Except QueryFault (List Document)
  | [] => .ok []
  | d :: ds => do
    let holds ← d.matches query
    let rest ← keep query ds
    return if holds then d :: rest else rest

/-- Nothing is written for a count of zero. -/
def run : Stage → List Document → Except QueryFault (List Document)
  | filter query, ds => keep query ds
  | skip n, ds => .ok (ds.drop n)
  | limit n, ds => .ok (ds.take n)
  | unset fields, ds =>
    .ok (ds.map (fun d =>
      fields.foldl (fun d field => (Document.removePath d (.ofString field)).2) d))
  | count field, ds =>
    .ok (if ds.isEmpty then [] else [[(field, .int32 (Int32.ofInt ds.length))]])

end Stage

abbrev Pipeline := List Document

namespace Pipeline

/-- A stage is read when its turn comes, so that faults of earlier stages are reported first. -/
def run : Pipeline → List Document → Except QueryFault (List Document)
  | [], ds => .ok ds
  | stage :: stages, ds => do
    let stage ← Stage.ofDocument stage
    run stages (← stage.run ds)

def ofStages (stages : List Stage) : Pipeline :=
  stages.map Stage.toDocument

end Pipeline

end DocumentStore
