import DocumentStore.ErrorReport
import DocumentStore.Json.Shape

/-! Pages of a listing. A page says how many results to skip and how many to return at most, and a
listing holds the results of a page beside the number of all results. -/

namespace DocumentStore

/-- The largest number of sixty-four bits, at which counts stop growing. -/
def maxCount : Nat := UInt64.size - 1

structure Pagination where
  skip : UInt64
  limit : UInt64
  limit_pos : 0 < limit
deriving DecidableEq

inductive PaginationFault where
  | noLimit
deriving DecidableEq

def PaginationFault.report : PaginationFault → ErrorReport
  | noLimit => .invalidInput "limit" "must be at least 1"

namespace Pagination

def new (skip limit : UInt64) : Except PaginationFault Pagination :=
  if h : 0 < limit then .ok ⟨skip, limit, h⟩ else .error .noLimit

def first (limit : UInt64) : Except PaginationFault Pagination :=
  new 0 limit

/-- The page of a number, counted from one; the page before the first is the first. -/
def page (number size : UInt64) : Except PaginationFault Pagination :=
  new (UInt64.ofNat (min ((number.toNat - 1) * size.toNat) maxCount)) size

def default : Pagination :=
  ⟨0, 10, by decide⟩

end Pagination

structure Listing (α : Type) where
  skip : UInt64
  limit : UInt64
  total : UInt64
  results : List α

namespace Listing

variable {α β ε : Type}

def new (page : Pagination) (total : UInt64) (results : List α) : Listing α :=
  ⟨page.skip, page.limit, total, results⟩

def map (f : α → β) (l : Listing α) : Listing β :=
  ⟨l.skip, l.limit, l.total, l.results.map f⟩

def mapResult (f : α → Except ε β) (l : Listing α) : Except ε (Listing β) :=
  (l.results.mapM f).map (fun results => ⟨l.skip, l.limit, l.total, results⟩)

def hasNext (l : Listing α) : Bool :=
  l.skip.toNat + l.results.length < l.total.toNat

def size (l : Listing α) : Nat :=
  l.results.length

def isEmpty (l : Listing α) : Bool :=
  l.results.isEmpty

def toJson (item : α → Json) (l : Listing α) : Json :=
  .object [("skip", .number (.unsigned l.skip)), ("limit", .number (.unsigned l.limit)),
    ("totalCount", .number (.unsigned l.total)), ("results", .array (l.results.map item))]

def text (item : α → String) (l : Listing α) : String :=
  s!"\x7b\"skip\":{l.skip.toNat},\"limit\":{l.limit.toNat},\"totalCount\":{l.total.toNat}," ++
    s!"\"results\":[" ++ ",".intercalate (l.results.map item) ++ "]\x7d"

def checkMember (item : Json.Reader α) (key : String) : Json.Reader Unit :=
  match key with
  | "skip" => Members.readable Json.readUInt64
  | "limit" => Members.readable Json.readUInt64
  | "totalCount" => Members.readable Json.readUInt64
  | "results" => Members.readable (readItems item)
  | _ => fun _ => .ok ()
where
  readItems (item : Json.Reader α) : Json.Reader (List α) := fun v => do
    (← Json.readArray v).mapM item

def ofJson (item : Json.Reader α) : Json.Reader (Listing α) :=
  Json.readRecord "PaginationResult" ["skip", "limit", "totalCount", "results"]
    fun missing members => do
      Members.check (checkMember item) members
      return {
        skip := ← Members.required Json.readUInt64 missing members "skip"
        limit := ← Members.required Json.readUInt64 missing members "limit"
        total := ← Members.required Json.readUInt64 missing members "totalCount"
        results := ← Members.required (checkMember.readItems item) missing members "results" }

end Listing

end DocumentStore
