/-! Bytes as text in UTF-8. A lenient reading puts the replacement character in the place of each
run of bytes that begins a character but does not complete it, and of each byte that begins none. -/

namespace DocumentStore.Text.Utf8

def ofChars (cs : List Char) : List UInt8 :=
  (String.ofList cs).toUTF8.toList

def decode? (bytes : List UInt8) : Option String :=
  String.fromUTF8? (ByteArray.mk bytes.toArray)

def replacement : Char := '\ufffd'

/-- A character under way: the ranges its further bytes are in, and its bits so far. -/
structure Pending where
  ranges : List (Nat × Nat)
  bits : Nat

def tail : Nat × Nat := (0x80, 0xBF)

/-- What the first byte of a character of several bytes begins. Overlong forms, surrogates and
numbers beyond the last character are excluded by the range of the second byte. -/
def begin? (b : Nat) : Option Pending :=
  if 0xC2 ≤ b ∧ b ≤ 0xDF then some ⟨[tail], b % 0x20⟩
  else if b = 0xE0 then some ⟨[(0xA0, 0xBF), tail], 0⟩
  else if b = 0xED then some ⟨[(0x80, 0x9F), tail], 0xD⟩
  else if 0xE1 ≤ b ∧ b ≤ 0xEF then some ⟨[tail, tail], b % 0x10⟩
  else if b = 0xF0 then some ⟨[(0x90, 0xBF), tail, tail], 0⟩
  else if 0xF1 ≤ b ∧ b ≤ 0xF3 then some ⟨[tail, tail, tail], b % 8⟩
  else if b = 0xF4 then some ⟨[(0x80, 0x8F), tail, tail], 4⟩
  else none

/-- What a byte at the start of a character gives, and the character that it begins. -/
def first (b : Nat) : List Char × Option Pending :=
  if b < 0x80 then ([Char.ofNat b], none)
  else
    match begin? b with
    | some p => ([], some p)
    | none => ([replacement], none)

/-- What the next byte gives to a character under way. -/
def next (p : Pending) (b : Nat) : List Char × Option Pending :=
  match p.ranges with
  | (low, high) :: ranges =>
    if low ≤ b ∧ b ≤ high then
      let bits := p.bits * 0x40 + b % 0x40
      if ranges.isEmpty then ([Char.ofNat bits], none) else ([], some ⟨ranges, bits⟩)
    else
      let (cs, p) := first b
      (replacement :: cs, p)
  | [] => first b

def lenientFrom : Option Pending → List UInt8 → List Char
  | none, [] => []
  | some _, [] => [replacement]
  | p, b :: bytes =>
    let (cs, p) := match p with
      | none => first b.toNat
      | some p => next p b.toNat
    cs ++ lenientFrom p bytes

def lenient (bytes : List UInt8) : String :=
  String.ofList (lenientFrom none bytes)

end DocumentStore.Text.Utf8
