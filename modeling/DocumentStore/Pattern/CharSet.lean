/-! Sets of characters, kept as ranges of character numbers. Sets that a pattern spells out are in
normal order: ranges ascend and neither touch nor overlap. -/

namespace DocumentStore.Pattern

abbrev CharSet := List (Nat × Nat)

namespace CharSet

def lastChar : Nat := 0x10FFFF

def contains (s : CharSet) (c : Char) : Bool :=
  s.any (fun (lo, hi) => lo ≤ c.toNat && c.toNat ≤ hi)

def single (c : Char) : CharSet := [(c.toNat, c.toNat)]

def full : CharSet := [(0, lastChar)]

/-- Joins ascending ranges that touch or overlap. -/
def join : Nat × Nat → CharSet → CharSet
  | r, [] => [r]
  | (lo, hi), (lo', hi') :: rest =>
    if lo' ≤ hi + 1 then join (lo, max hi hi') rest
    else (lo, hi) :: join (lo', hi') rest

def normal (s : CharSet) : CharSet :=
  match s.mergeSort (fun a b => a.1 < b.1 || (a.1 == b.1 && a.2 ≤ b.2)) with
  | [] => []
  | r :: rest => join r rest

/-- The next character number; surrogates are no characters. -/
def next (n : Nat) : Nat :=
  if n = 0xD7FF then 0xE000 else n + 1

def previous (n : Nat) : Nat :=
  if n = 0xE000 then 0xD7FF else n - 1

/-- The ranges between those of a set in normal order, from a number on. -/
def gapsFrom : Nat → CharSet → CharSet
  | n, [] => if n ≤ lastChar then [(n, lastChar)] else []
  | n, (lo, hi) :: rest =>
    if n < lo ∧ n ≤ previous lo then (n, previous lo) :: gapsFrom (next hi) rest
    else gapsFrom (next hi) rest

def complement (s : CharSet) : CharSet :=
  gapsFrom 0 s

/-- The letters of the other case beside the ones in a range. A range with lower-case letters
stands for those alone, even if it has upper-case letters as well. -/
def otherCase? (range : Nat × Nat) : Option (Nat × Nat) :=
  let (lo, hi) := range
  if lo ≤ 'z'.toNat ∧ 'a'.toNat ≤ hi then
    some (max lo 'a'.toNat - 32, min hi 'z'.toNat - 32)
  else if lo ≤ 'Z'.toNat ∧ 'A'.toNat ≤ hi then
    some (max lo 'A'.toNat + 32, min hi 'Z'.toNat + 32)
  else none

def foldCase (s : CharSet) : CharSet :=
  normal (s ++ s.filterMap otherCase?)

def ofChars (ranges : List (Char × Char)) : CharSet :=
  ranges.map (fun (lo, hi) => (lo.toNat, hi.toNat))

def digits : CharSet := ofChars [('0', '9')]

def spaces : CharSet := ofChars [('\t', '\r'), (' ', ' ')]

def word : CharSet := ofChars [('0', '9'), ('A', 'Z'), ('_', '_'), ('a', 'z')]

def named? (name : String) : Option CharSet :=
  match name with
  | "alnum" => some (ofChars [('0', '9'), ('A', 'Z'), ('a', 'z')])
  | "alpha" => some (ofChars [('A', 'Z'), ('a', 'z')])
  | "ascii" => some [(0, 0x7F)]
  | "blank" => some (ofChars [('\t', '\t'), (' ', ' ')])
  | "cntrl" => some [(0, 0x1F), (0x7F, 0x7F)]
  | "digit" => some digits
  | "graph" => some (ofChars [('!', '~')])
  | "lower" => some (ofChars [('a', 'z')])
  | "print" => some (ofChars [(' ', '~')])
  | "punct" => some (ofChars [('!', '/'), (':', '@'), ('[', '\x60'), ('\x7b', '~')])
  | "space" => some spaces
  | "upper" => some (ofChars [('A', 'Z')])
  | "word" => some word
  | "xdigit" => some (ofChars [('0', '9'), ('A', 'F'), ('a', 'f')])
  | _ => none

end CharSet

end DocumentStore.Pattern
