import DocumentStore.MatchPlan
import DocumentStore.Pagination
import DocumentStore.Pipeline.Stage

/-! Pipelines of listings: the filters of a plan, a page of what they leave, and optionally the
removal of bulk data. The number of all matches is counted by a pipeline of its own. -/

namespace DocumentStore

inductive Projection where
  | full
  | metadataOnly
deriving DecidableEq

namespace Projection

def ofOnlyMetadata (onlyMetadata : Bool) : Projection :=
  if onlyMetadata then metadataOnly else full

def stages (bulkField : Option String) : Projection → List Stage
  | full => []
  | metadataOnly => bulkField.toList.map (fun field => .unset [field])

end Projection

namespace MatchPlan

def stages (plan : MatchPlan) : List Stage :=
  plan.conjuncts.map .filter

end MatchPlan

namespace Pagination

def stages (page : Pagination) : List Stage :=
  [.skip page.skip.toNat, .limit page.limit.toNat]

end Pagination

namespace Pipeline

def countField : String := "totalCount"

def bulkDataField : String := "content.data"

def listing (plan : MatchPlan) (page : Pagination) (projection : Projection)
    (bulkField : Option String) : Pipeline :=
  ofStages (plan.stages ++ page.stages ++ projection.stages bulkField)

def counting (plan : MatchPlan) : Pipeline :=
  ofStages (plan.stages ++ [.count countField])

def ofFilterSet (s : FilterSet) (page : Pagination) (projection : Projection)
    (bulkField : Option String) : Except FilterFault Pipeline :=
  (MatchPlan.ofFilterSet s).map (fun plan => listing plan page projection bulkField)

def countingOfFilterSet (s : FilterSet) : Except FilterFault Pipeline :=
  (MatchPlan.ofFilterSet s).map counting

/-- The number a counting pipeline found; no document means none. -/
def readCount (results : List Document) : UInt64 :=
  match ((results.head?.bind (Document.get · countField)).bind Value.asDouble?) with
  | some x => x.toUInt64
  | none => 0

end Pipeline

end DocumentStore
