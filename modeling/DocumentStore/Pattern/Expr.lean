import DocumentStore.Pattern.CharSet

/-! Pattern expressions. Repetitions of no round and of one round are left out. Two measures bound
what is accepted: how deep expressions are nested, and how large the machine would be that runs
them. -/

namespace DocumentStore.Pattern

inductive Look where
  | start
  | finish
  | lineStart
  | lineEnd
  | breakStart
  | breakEnd
  | wordBoundary
  | notWordBoundary
  | wordStart
  | wordEnd
  | wordStartHalf
  | wordEndHalf
deriving DecidableEq

inductive Expr where
  | empty
  | char (c : Char)
  | set (s : CharSet)
  | look (l : Look)
  | repeated (e : Expr) (least : Nat) (most : Option Nat)
  | group (number : Nat) (name : Option String) (e : Expr)
  | concat (es : List Expr)
  | choice (es : List Expr)

namespace Expr

/-- Several expressions in a row; one alone stands for itself. -/
def ofItems : List Expr → Expr
  | [] => empty
  | [e] => e
  | es => concat es

def ofBranches : List Expr → Expr
  | [e] => e
  | es => choice es

/-- An expression several times in a row. -/
def times (e : Expr) (least : Nat) (most : Option Nat) : Expr :=
  if most = some 0 then empty
  else if least = 1 ∧ most = some 1 then e
  else repeated e least most

mutual

def depth : Expr → Nat
  | repeated e _ _ => depth e + 1
  | group _ _ e => depth e + 1
  | concat es => depthOfAll es + 1
  | choice es => depthOfAll es + 1
  | _ => 0

def depthOfAll : List Expr → Nat
  | [] => 0
  | e :: es => max (depth e) (depthOfAll es)

end

mutual

/-- Whether an expression may match without a character, conditions left aside. -/
def mayBeEmpty : Expr → Bool
  | empty => true
  | char _ => false
  | set _ => false
  | look _ => true
  | repeated e least _ => least == 0 || mayBeEmpty e
  | group _ _ e => mayBeEmpty e
  | concat es => allMayBeEmpty es
  | choice es => someMayBeEmpty es

def allMayBeEmpty : List Expr → Bool
  | [] => true
  | e :: es => mayBeEmpty e && allMayBeEmpty es

def someMayBeEmpty : List Expr → Bool
  | [] => false
  | e :: es => mayBeEmpty e || someMayBeEmpty es

end

/-- Bytes of a state of the machine, of a branch, of a range, of a group and of a name's number. -/
def stateBytes : Nat := 32
def branchBytes : Nat := 4
def rangeBytes : Nat := 8
def groupBytes : Nat := 16
def numberBytes : Nat := 4

def splitBytes : Nat := stateBytes + 2 * branchBytes

/-- Bytes of a repetition whose body takes `body` bytes. -/
def repeatedBytes (body : Nat) (mayBeEmpty : Bool) (least : Nat) : Option Nat → Nat
  | none =>
    if least = 0 then
      if mayBeEmpty then body + 2 * splitBytes + stateBytes else body + splitBytes
    else least * body + splitBytes
  | some most =>
    if least = 0 ∧ most = 1 then body + splitBytes + stateBytes
    else if least = most then least * body
    else
      (if least = 0 then stateBytes else least * body) + stateBytes +
        (most - least) * (body + splitBytes)

mutual

def bytes : Expr → Nat
  | empty => stateBytes
  | char _ => stateBytes
  | set s => stateBytes + rangeBytes * s.length
  | look _ => stateBytes
  | repeated e least most => repeatedBytes (bytes e) (mayBeEmpty e) least most
  | group _ _ e => bytes e + 2 * stateBytes
  | concat es => bytesOfAll es
  | choice es => bytesOfAll es + branchBytes * es.length + 2 * stateBytes

def bytesOfAll : List Expr → Nat
  | [] => 0
  | e :: es => bytes e + bytesOfAll es

end

mutual

/-- The numbers and names of the groups that are left. -/
def groups : Expr → List (Nat × Option String)
  | repeated e _ _ => groups e
  | group number name e => (number, name) :: groups e
  | concat es => groupsOfAll es
  | choice es => groupsOfAll es
  | _ => []

def groupsOfAll : List Expr → List (Nat × Option String)
  | [] => []
  | e :: es => groups e ++ groupsOfAll es

end

/-- Bytes of a table of groups up to the last one that is left. -/
def tableBytes (groups : List (Nat × Option String)) : Nat :=
  groupBytes * (groups.foldl (fun last (number, _) => max last number) 0 + 1) +
    (groups.filterMap (·.2)).foldl (fun bytes name => bytes + name.utf8ByteSize + numberBytes) 0

/-- Bytes of the machine for a whole pattern, which is a group of its own before the final state. -/
def machineBytes (e : Expr) : Nat :=
  bytes e + 3 * stateBytes + tableBytes (groups e)

end Expr

end DocumentStore.Pattern
