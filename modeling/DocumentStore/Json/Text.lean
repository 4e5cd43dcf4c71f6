import DocumentStore.Decimal.Shortest
import DocumentStore.Json.Basic
import DocumentStore.Text.Digits
import DocumentStore.Text.Hex

/-! Reading JSON text. The reader takes a bound on the nesting of arrays and objects and refuses
text after the value, raw control characters in strings, lone surrogate escapes, and numerals beyond
the range of doubles. Whole numbers of sixty-four bits stay exact. -/

namespace DocumentStore.Json

def skipBlanks : List Char → List Char
  | [] => []
  | c :: cs =>
    if c == ' ' || c == '\n' || c == '\t' || c == '\r' then skipBlanks cs else c :: cs

def readUnit : List Char → Option (Nat × List Char)
  | a :: b :: c :: d :: rest => do
    let a ← Text.hexValue? a
    let b ← Text.hexValue? b
    let c ← Text.hexValue? c
    let d ← Text.hexValue? d
    return (((a * 16 + b) * 16 + c) * 16 + d, rest)
  | _ => none

def escaped? (c : Char) : Option Char :=
  match c with
  | '"' => some '"'
  | '\\' => some '\\'
  | '/' => some '/'
  | 'b' => some '\x08'
  | 'f' => some '\x0c'
  | 'n' => some '\n'
  | 'r' => some '\r'
  | 't' => some '\t'
  | _ => none

/-- The character of an escape after its `u`; a high surrogate takes the escape after it along. -/
def readEscapedUnit (cs : List Char) : Option (Char × List Char) := do
  let (unit, rest) ← readUnit cs
  if 0xD800 ≤ unit ∧ unit < 0xDC00 then
    match rest with
    | '\\' :: 'u' :: more =>
      let (second, rest) ← readUnit more
      if 0xDC00 ≤ second ∧ second < 0xE000 then
        return (Char.ofNat (0x10000 + (unit - 0xD800) * 0x400 + (second - 0xDC00)), rest)
      else none
    | _ => none
  else if 0xDC00 ≤ unit ∧ unit < 0xE000 then none
  else return (Char.ofNat unit, rest)

/-- The rest of a string whose opening quote is read. -/
def scanString : (fuel : Nat) → List Char → List Char → Option (String × List Char)
  | 0, _, _ => none
  | _ + 1, _, [] => none
  | fuel + 1, acc, c :: cs =>
    if c == '"' then some (String.ofList acc.reverse, cs)
    else if c == '\\' then
      match cs with
      | [] => none
      | 'u' :: rest =>
        match readEscapedUnit rest with
        | some (ch, rest) => scanString fuel (ch :: acc) rest
        | none => none
      | e :: rest =>
        match escaped? e with
        | some ch => scanString fuel (ch :: acc) rest
        | none => none
    else if c.toNat < 0x20 then none
    else scanString fuel (c :: acc) cs

def takeDigits (cs : List Char) : List Char × List Char :=
  (cs.takeWhile Char.isDigit, cs.dropWhile Char.isDigit)

def readFraction : List Char → Option (List Char × List Char)
  | '.' :: cs =>
    let (digits, rest) := takeDigits cs
    if digits.isEmpty then none else some (digits, rest)
  | cs => some ([], cs)

def readExponentDigits (negative : Bool) (cs : List Char) : Option (Int × List Char) :=
  let (digits, rest) := takeDigits cs
  if digits.isEmpty then none
  else
    let n : Int := Text.natOfDigits digits
    some (if negative then -n else n, rest)

def readExponent : List Char → Option (Option Int × List Char)
  | c :: cs =>
    if c == 'e' || c == 'E' then
      let read := match cs with
        | '+' :: rest => readExponentDigits false rest
        | '-' :: rest => readExponentDigits true rest
        | rest => readExponentDigits false rest
      read.map (fun (e, rest) => (some e, rest))
    else some (none, c :: cs)
  | [] => some (none, [])

def negateIf (negative : Bool) (x : Float) : Float :=
  if negative then -x else x

/-- Whole numbers out of range become doubles, and so does minus zero. -/
def wholeNumeral? (negative : Bool) (n : Nat) : Option Numeral :=
  if negative then
    if 0 < n ∧ Int64.minValue.toInt ≤ -(n : Int) then some (.signed (Int64.ofInt (-(n : Int))))
    else (Decimal.ofDecimal? n 0).map (fun x => .float (-x))
  else if n < UInt64.size then some (.unsigned n.toUInt64)
  else (Decimal.ofDecimal? n 0).map .float

def readMagnitude (negative : Bool) (cs : List Char) : Option (Numeral × List Char) := do
  let (whole, rest) := takeDigits cs
  if whole.isEmpty || (whole.head? == some '0' && whole.length != 1) then none
  let (fraction, rest) ← readFraction rest
  let (exponent, rest) ← readExponent rest
  if fraction.isEmpty && exponent.isNone then
    let n ← wholeNumeral? negative (Text.natOfDigits whole)
    return (n, rest)
  else
    let x ← Decimal.ofDecimal? (Text.natOfDigits (whole ++ fraction))
      (exponent.getD 0 - fraction.length)
    return (.float (negateIf negative x), rest)

def readNumeral : List Char → Option (Numeral × List Char)
  | '-' :: cs => readMagnitude true cs
  | cs => readMagnitude false cs

mutual

/-- One value, with blanks before it allowed. `depth` bounds the arrays and objects inside each
other, and `fuel` the calls. -/
def readValue : (fuel depth : Nat) → List Char → Option (Json × List Char)
  | 0, _, _ => none
  | fuel + 1, depth, cs =>
    match skipBlanks cs with
    | 'n' :: 'u' :: 'l' :: 'l' :: rest => some (.null, rest)
    | 't' :: 'r' :: 'u' :: 'e' :: rest => some (.bool true, rest)
    | 'f' :: 'a' :: 'l' :: 's' :: 'e' :: rest => some (.bool false, rest)
    | '"' :: rest =>
      (scanString fuel [] rest).map (fun (s, rest) => (.string s, rest))
    | '[' :: rest =>
      if depth = 0 then none
      else
        match skipBlanks rest with
        | ']' :: rest => some (.array [], rest)
        | rest => readItems fuel (depth - 1) [] rest
    | '\x7b' :: rest =>
      if depth = 0 then none
      else
        match skipBlanks rest with
        | '\x7d' :: rest => some (.object [], rest)
        | rest => readMembers fuel (depth - 1) [] rest
    | rest => (readNumeral rest).map (fun (n, rest) => (.number n, rest))

def readItems : (fuel depth : Nat) → List Json → List Char → Option (Json × List Char)
  | 0, _, _, _ => none
  | fuel + 1, depth, acc, cs =>
    match readValue fuel depth cs with
    | none => none
    | some (item, rest) =>
      match skipBlanks rest with
      | ',' :: rest => readItems fuel depth (item :: acc) rest
      | ']' :: rest => some (.array (item :: acc).reverse, rest)
      | _ => none

def readMembers : (fuel depth : Nat) → List (String × Json) → List Char →
    Option (Json × List Char)
  | 0, _, _, _ => none
  | fuel + 1, depth, acc, cs =>
    match skipBlanks cs with
    | '"' :: rest =>
      match scanString fuel [] rest with
      | none => none
      | some (key, rest) =>
        match skipBlanks rest with
        | ':' :: rest =>
          match readValue fuel depth rest with
          | none => none
          | some (value, rest) =>
            match skipBlanks rest with
            | ',' :: rest => readMembers fuel depth (insertMember acc key value) rest
            | '\x7d' :: rest => some (.object (insertMember acc key value), rest)
            | _ => none
        | _ => none
    | _ => none

end

/-- The value of a text whose arrays and objects are nested at most `depth` deep. -/
def ofText? (depth : Nat) (text : String) : Option Json :=
  let cs := text.toList
  match readValue (2 * cs.length + 2) depth cs with
  | some (v, rest) => if (skipBlanks rest).isEmpty then some v else none
  | none => none

end DocumentStore.Json
