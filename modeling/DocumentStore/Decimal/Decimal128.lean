import DocumentStore.Text.Numeral

/-! Decimal numbers in sixteen bytes, the format decimal128 of IEEE 754 with binary coefficients. A
number is a coefficient of at most thirty-four digits times a power of ten, and trailing zeros are
kept. A text is only read if it can be held without rounding. -/

namespace DocumentStore

inductive Decimal128 where
  | finite (negative : Bool) (coefficient : Nat) (exponent : Int)
  | infinite (negative : Bool)
  | nan (negative signalling : Bool)
deriving DecidableEq

namespace Decimal128

def maxDigits : Nat := 34
def minExponent : Int := -6176
def maxExponent : Int := 6111

/-! ### Bytes -/

/-- The number that bytes stand for, the least significant byte first. -/
def natOfBytes (bytes : List UInt8) : Nat :=
  bytes.foldr (fun b n => n * 0x100 + b.toNat) 0

def bytesOfNat (n : Nat) : List UInt8 :=
  (List.range 16).map (fun i => UInt8.ofNat (n >>> (8 * i)))

def bits (n position width : Nat) : Nat :=
  (n >>> position) % (1 <<< width)

/-- A coefficient with too many digits counts as zero. -/
def bounded (coefficient : Nat) : Nat :=
  if coefficient < Decimal.tenTo maxDigits then coefficient else 0

/-- Five bits after the sign tell the kinds apart. With the first two of them set, the exponent
comes two bits later and the coefficient is too large. -/
def ofBytes (bytes : List UInt8) : Decimal128 :=
  let n := natOfBytes bytes
  let negative := bits n 127 1 == 1
  let kind := bits n 122 5
  if kind = 31 then nan negative (bits n 121 1 == 1)
  else if kind = 30 then infinite negative
  else if 24 ≤ kind then finite negative 0 (bits n 111 14 + minExponent)
  else finite negative (bounded (bits n 0 113)) (bits n 113 14 + minExponent)

def signed (negative : Bool) (n : Nat) : Nat :=
  if negative then (1 <<< 127) + n else n

def toBytes : Decimal128 → List UInt8
  | finite negative coefficient exponent =>
    bytesOfNat (signed negative (((exponent - minExponent).toNat <<< 113) + coefficient))
  | infinite negative => bytesOfNat (signed negative (30 <<< 122))
  | nan negative signalling =>
    bytesOfNat (signed negative ((if signalling then 63 else 62) <<< 121))

/-- The bytes of the number that is written for a number: what is no number has one form. -/
def canonical (bytes : List UInt8) : List UInt8 :=
  match ofBytes bytes with
  | nan _ _ => toBytes (nan false false)
  | d => toBytes d

/-! ### Text -/

/-- The exponent after the letter, which fits sixteen bits. -/
def exponent? (cs : List Char) : Option Int :=
  (Text.int? cs).filter (fun e => -0x8000 ≤ e ∧ e < 0x8000)

/-- A coefficient without some trailing digits, which have to be zeros. -/
def dropZeros? (coefficient places : Nat) : Option Nat :=
  if coefficient % Decimal.tenTo places = 0 then some (coefficient / Decimal.tenTo places) else none

/-- A number with an exponent in range, brought there by zeros at the end of the coefficient. -/
def inRange? (negative : Bool) (coefficient : Nat) (exponent : Int) : Option Decimal128 :=
  if exponent < minExponent then
    if coefficient = 0 then some (finite negative 0 minExponent)
    else (dropZeros? coefficient (minExponent - exponent).toNat).map (finite negative · minExponent)
  else if maxExponent < exponent then
    if coefficient = 0 then some (finite negative 0 maxExponent)
    else
      let places := (exponent - maxExponent).toNat
      if maxDigits < (Nat.toDigits 10 coefficient).length + places then none
      else some (finite negative (coefficient * Decimal.tenTo places) maxExponent)
  else some (finite negative coefficient exponent)

def finite? (negative : Bool) (cs : List Char) : Option Decimal128 := do
  let exponent ← match cs.dropWhile (· != 'e') with
    | [] => some 0
    | _ :: digits => exponent? digits
  let (digits, places) ← Text.pointed? (cs.takeWhile (· != 'e'))
  if 0x8000 ≤ places ∨ exponent - places < -0x8000 then none
  let coefficient := Text.natOfDigits digits
  let excess := (digits.dropWhile (· == '0')).length - maxDigits
  let coefficient ← dropZeros? coefficient excess
  if 0x8000 ≤ exponent - places + excess then none
  inRange? negative coefficient (exponent - places + excess)

def unsigned? (negative : Bool) (cs : List Char) : Option Decimal128 :=
  match String.ofList cs with
  | "nan" => some (nan negative false)
  | "snan" => some (nan negative true)
  | "inf" => some (infinite negative)
  | "infinity" => some (infinite negative)
  | _ => finite? negative cs

/-- A numeral after an optional sign, in any case. -/
def ofText? (text : String) : Option Decimal128 :=
  match text.toList.map Char.toLower with
  | '-' :: cs => unsigned? true cs
  | '+' :: cs => unsigned? false cs
  | cs => unsigned? false cs

/-- One digit before the point, and the exponent with its sign. -/
def scientific (digits : List Char) (exponent : Int) : List Char :=
  let point := if 1 < digits.length then ['.'] else []
  let sign := if 0 < exponent then ['+'] else []
  digits.take 1 ++ point ++ digits.drop 1 ++ ['E'] ++ sign ++ (toString exponent).toList

/-- Numbers that are not whole multiples of ten and have few zeros after the point are written
without an exponent. -/
def magnitudeText (coefficient : Nat) (exponent : Int) : String :=
  let digits := Nat.toDigits 10 coefficient
  let adjusted := exponent + digits.length - 1
  if exponent ≤ 0 ∧ -6 ≤ adjusted then Decimal.positional coefficient exponent
  else String.ofList (scientific digits adjusted)

def text : Decimal128 → String
  | nan _ _ => "NaN"
  | infinite negative => if negative then "-Infinity" else "Infinity"
  | finite negative coefficient exponent =>
    (if negative then "-" else "") ++ magnitudeText coefficient exponent

end Decimal128

end DocumentStore
