/-! JSON values. Objects keep the order of their members. Numerals are kept as they were written: a
whole number of sixty-four bits, with or without a sign, or a double. -/

namespace DocumentStore

inductive Json.Numeral where
  | unsigned (n : UInt64)
  | signed (n : Int64)
  | float (x : Float)

inductive Json where
  | null
  | bool (b : Bool)
  | number (n : Json.Numeral)
  | string (s : String)
  | array (items : List Json)
  | object (members : List (String × Json))

instance : Inhabited Json := ⟨.null⟩

namespace Json

namespace Numeral

def ofInt64 (n : Int64) : Numeral :=
  if 0 ≤ n then .unsigned n.toInt.toNat.toUInt64 else .signed n

def toInt64? : Numeral → Option Int64
  | unsigned n =>
    if n.toNat ≤ Int64.maxValue.toNatClampNeg then some (Int64.ofNat n.toNat) else none
  | signed n => some n
  | float _ => none

def toFloat : Numeral → Float
  | unsigned n => Float.ofNat n.toNat
  | signed n => Float.ofInt n.toInt
  | float x => x

end Numeral

def int (n : Int64) : Json := number (.ofInt64 n)

/-- JSON has no numeral for a double that is not finite; null stands for it. -/
def float (x : Float) : Json :=
  if x.isFinite then number (.float x) else null

def asFloat? : Json → Option Float
  | number n => some n.toFloat
  | _ => none

def asArray? : Json → Option (List Json)
  | array items => some items
  | _ => none

def asObject? : Json → Option (List (String × Json))
  | object members => some members
  | _ => none

def get? (v : Json) (key : String) : Option Json :=
  v.asObject?.bind (fun members => members.lookup key)

/-- A member written twice keeps its first place and takes its last value. -/
def insertMember : List (String × Json) → String → Json → List (String × Json)
  | [], key, value => [(key, value)]
  | (k, v) :: rest, key, value =>
    if k = key then (k, value) :: rest else (k, v) :: insertMember rest key value

end Json

end DocumentStore
