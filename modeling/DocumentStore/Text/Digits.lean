/-! Whole numbers in decimal digits. -/

namespace DocumentStore.Text

def natOfDigits (cs : List Char) : Nat :=
  cs.foldl (fun n c => n * 10 + (c.toNat - '0'.toNat)) 0

def nat? (cs : List Char) : Option Nat :=
  if cs.isEmpty || !cs.all Char.isDigit then none else some (natOfDigits cs)

/-- A number below a bound, after an optional plus sign. -/
def natBelow? (bound : Nat) (s : String) : Option Nat :=
  let digits := match s.toList with
    | '+' :: cs => cs
    | cs => cs
  (nat? digits).filter (fun n => decide (n < bound))

def int? : List Char → Option Int
  | '-' :: cs => (nat? cs).map (fun n => -(n : Int))
  | '+' :: cs => (nat? cs).map Int.ofNat
  | cs => (nat? cs).map Int.ofNat

end DocumentStore.Text
