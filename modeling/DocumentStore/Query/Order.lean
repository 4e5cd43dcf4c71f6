import DocumentStore.Filter.Basic
import DocumentStore.Value.Basic

/-! Equality and order of values in queries. Numbers of all types are compared as doubles; other
values are comparable only with values of their own type. -/

namespace DocumentStore

namespace Value

def equals (a b : Value) : Bool :=
  match a.asDouble?, b.asDouble? with
  | some x, some y => x == y
  | _, _ => a.same b

/-- Two doubles are in no order if one of them is no number. -/
def orderOfDoubles (x y : Float) : Option Ordering :=
  if x < y then some .lt else if y < x then some .gt else if x == y then some .eq else none

def order? (a b : Value) : Option Ordering :=
  match a.asDouble?, b.asDouble? with
  | some x, some y => orderOfDoubles x y
  | _, _ =>
    match a, b with
    | string s, string t => some (compare s t)
    | dateTime s, dateTime t => some (compare s.toInt t.toInt)
    | objectId i, objectId j => some (i.compare j)
    | bool a, bool b => some (compare a b)
    | _, _ => none

/-- A missing field equals null. -/
def equalsAny (values : List Value) (target : Value) : Bool :=
  if values.isEmpty then target.same null else values.any (fun v => v.equals target)

end Value

/-- The orders of a value and an operand that a comparison accepts. -/
def Comparison.accepts : Comparison → Ordering → Bool
  | eq, o => o == .eq
  | gt, o => o == .gt
  | gte, o => o != .lt
  | lt, o => o == .lt
  | lte, o => o != .gt

def Comparison.holdsOfAny (c : Comparison) (values : List Value) (target : Value) : Bool :=
  values.any (fun v => (v.order? target).any c.accepts)

end DocumentStore
