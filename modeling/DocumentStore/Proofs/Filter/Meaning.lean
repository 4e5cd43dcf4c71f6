import DocumentStore.MatchPlan
import DocumentStore.Proofs.Identifier

/-! The meaning of filters without queries. A filter looks at the values its key reaches and asks
whether one of them is accepted. Concatenations and sets are made of their filters. -/

namespace DocumentStore

/-- Numbers of all types are compared as doubles. -/
def Comparison.holds : Comparison → Float → Float → Bool
  | eq, x, y => x == y
  | gt, x, y => y < x
  | gte, x, y => y ≤ x
  | lt, x, y => x < y
  | lte, x, y => x ≤ y

/-- How patterns are read when they are run. -/
def readCaseless? (pattern : String) : Option Pattern :=
  Pattern.ofText? { ignoreCase := true } pattern

def Operation.accepts : Operation → Value → Bool
  | contains pattern, v =>
    v.asString?.any (fun text => (readCaseless? pattern).any (fun p => p.isMatch text))
  | equals text, v => v.asString? == some text
  | compare c operand, v => v.asDouble?.any (fun x => c.holds x operand.toFloat)
  | is flag, .bool b => b == flag
  | is _, _ => false
  | radius center kilometres, v =>
    v.asPosition?.any (fun p =>
      Geo.centralAngle center p ≤ kilometres / Geo.earthRadius + Geo.tolerance)
  | area ring, v => v.asPosition?.any (fun p => Geo.isOnBoundary ring p || Geo.isInside ring p)

namespace Filter

def identifierText? (f : Filter) : Option String :=
  match f.operation with
  | .contains text => if f.key.isIdentifier then some text else none
  | .equals text => if f.key.isIdentifier then some text else none
  | _ => none

def accepts (f : Filter) (v : Value) : Bool :=
  match f.identifierText? with
  | some text => v.isIdentifier text
  | none => f.operation.accepts v

def holds (f : Filter) (d : Document) : Bool :=
  (d.reached f.key).any f.accepts != f.negate

end Filter

def Concatenation.holds (c : Concatenation) (d : Document) : Bool :=
  match c.combinator with
  | .and => c.filters.all (fun f => f.holds d)
  | .or => c.filters.any (fun f => f.holds d)

def FilterEntry.holds (e : FilterEntry) (d : Document) : Bool :=
  match e with
  | leaf f => f.holds d
  | concatenation c => c.holds d

def FilterSet.holds (s : FilterSet) (d : Document) : Bool :=
  s.entries.all (fun e => e.holds d)

def FilterEntry.leaves : FilterEntry → List Filter
  | leaf f => [f]
  | concatenation c => c.filters

def FilterSet.leaves (s : FilterSet) : List Filter :=
  s.entries.flatMap FilterEntry.leaves

/-- A pattern is read with regard to case when it is checked and without when it is run, and it may
be too large only then. -/
def Filter.isUnreadable (f : Filter) : Bool :=
  match f.operation with
  | .contains pattern => !f.key.isIdentifier && (readCaseless? pattern).isNone
  | _ => false

/-- Whether an item is stuck that is met before one decides. -/
def stuckFirst {α : Type} (stuck decides : α → Bool) (xs : List α) : Bool :=
  (xs.find? (fun x => stuck x || decides x)).any stuck

@[simp]
theorem stuckFirst_cons {α : Type} (stuck decides : α → Bool) (x : α) (xs : List α) :
    stuckFirst stuck decides (x :: xs) =
      (stuck x || (!decides x && stuckFirst stuck decides xs)) := by
  cases hs : stuck x <;> cases hd : decides x <;> simp [stuckFirst, hs, hd]

def Concatenation.isStuck (c : Concatenation) (d : Document) : Bool :=
  match c.combinator with
  | .and => stuckFirst Filter.isUnreadable (fun f => !f.holds d) c.filters
  | .or => stuckFirst Filter.isUnreadable (fun f => f.holds d) c.filters

def FilterEntry.isStuck (e : FilterEntry) (d : Document) : Bool :=
  match e with
  | leaf f => f.isUnreadable
  | concatenation c => c.isStuck d

def FilterSet.isStuck (s : FilterSet) (d : Document) : Bool :=
  stuckFirst (fun e => e.isStuck d) (fun e => !e.holds d) s.entries

end DocumentStore
