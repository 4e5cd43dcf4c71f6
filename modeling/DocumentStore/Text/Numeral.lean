import DocumentStore.Decimal.Shortest
import DocumentStore.Text.Digits

/-! Numerals as they are written in texts: whole numbers of fixed width, and doubles. -/

namespace DocumentStore.Text

def int32? (text : String) : Option Int32 :=
  ((int? text.toList).filter (fun n => Int32.minValue.toInt ≤ n ∧ n ≤ Int32.maxValue.toInt)).map
    Int32.ofInt

def int64? (text : String) : Option Int64 :=
  ((int? text.toList).filter (fun n => Int64.minValue.toInt ≤ n ∧ n ≤ Int64.maxValue.toInt)).map
    Int64.ofInt

/-- The digits of a numeral without a point it may have, and how many of them stand after it. -/
def pointed? (cs : List Char) : Option (List Char × Nat) :=
  let whole := cs.takeWhile Char.isDigit
  match cs.dropWhile Char.isDigit with
  | [] => if whole.isEmpty then none else some (whole, 0)
  | '.' :: fraction =>
    if fraction.all Char.isDigit ∧ ¬(whole ++ fraction).isEmpty then
      some (whole ++ fraction, fraction.length)
    else none
  | _ => none

/-- A double without its sign; one that is out of range is infinite. -/
def magnitude? (cs : List Char) : Option Float :=
  let infinity := Float.ofNat 1 / 0
  if ["inf".toList, "infinity".toList].contains cs then some infinity
  else if cs = "nan".toList then some (0 / 0)
  else do
    let (digits, places) ← pointed? (cs.takeWhile (· ≠ 'e'))
    let exponent ← match cs.dropWhile (· ≠ 'e') with
      | [] => some 0
      | _ :: digits => int? digits
    return (Decimal.ofDecimal? (natOfDigits digits) (exponent - places)).getD infinity

def double? (text : String) : Option Float :=
  match text.toList.map Char.toLower with
  | '-' :: cs => (magnitude? cs).map (fun x => -x)
  | '+' :: cs => magnitude? cs
  | cs => magnitude? cs

end DocumentStore.Text
