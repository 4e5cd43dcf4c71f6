/-! The decimal text of a double. Among the decimals that lie between the two midpoints beside a
double, and so read back as that double, the text shows one with the fewest digits, and of those the
nearest. It is written without an exponent. -/

namespace DocumentStore.Decimal

/-- A finite double is `± mantissa * 2 ^ exponent`; the sign is read apart. -/
structure Parts where
  mantissa : Nat
  exponent : Int

def signBit (x : Float) : Bool :=
  x.toBits.toNat >>> 63 == 1

/-- The leading bit of a normal mantissa, which is not stored. -/
def hiddenBit : Nat := 0x10000000000000

/-- Subnormal doubles share the exponent of the smallest normal ones. -/
def parts (x : Float) : Parts :=
  let bits := x.toBits.toNat
  let biased : Nat := bits / hiddenBit % 0x800
  let fraction : Nat := bits % hiddenBit
  if biased = 0 then ⟨fraction, -1074⟩
  else ⟨hiddenBit + fraction, (biased : Int) - 1075⟩

/-- A power of two, which is one for a negative exponent. -/
def twoTo (e : Int) : Nat := Nat.pow 2 e.toNat

/-- A power of ten, which is one for a negative exponent. -/
def tenTo (e : Int) : Nat := Nat.pow 10 e.toNat

def isIntegral (x : Float) : Bool :=
  x.isFinite &&
    let p := parts x
    (decide (0 ≤ p.exponent) || p.mantissa % twoTo (-p.exponent) == 0)

/-- `a * 2 ^ s ≤ c * 10 ^ u`, for whole or negative exponents. -/
def binaryLe (a : Nat) (s : Int) (c : Nat) (u : Int) : Bool :=
  a * twoTo s * tenTo (-u) ≤ c * tenTo u * twoTo (-s)

/-- `c * 10 ^ u ≤ a * 2 ^ s`. -/
def decimalLe (c : Nat) (u : Int) (a : Nat) (s : Int) : Bool :=
  c * tenTo u * twoTo (-s) ≤ a * twoTo s * tenTo (-u)

/-- The values that read back as a double lie between two odd multiples of half its last place, in
quarters of that place here; the midpoints belong to the double when its mantissa is even. -/
structure Interval where
  low : Nat
  high : Nat
  scale : Int
  closed : Bool

def Parts.interval (p : Parts) : Interval :=
  let narrow := p.mantissa == hiddenBit && -1074 < p.exponent
  { low := 4 * p.mantissa - (if narrow then 1 else 2)
    high := 4 * p.mantissa + 2
    scale := p.exponent - 2
    closed := p.mantissa % 2 == 0 }

def Interval.contains (i : Interval) (c : Nat) (u : Int) : Bool :=
  if i.closed then binaryLe i.low i.scale c u && decimalLe c u i.high i.scale
  else !decimalLe c u i.low i.scale && !binaryLe i.high i.scale c u

/-- The largest multiple of `10 ^ u` that is not above the double. -/
def Parts.floorAt (p : Parts) (u : Int) : Nat :=
  p.mantissa * twoTo p.exponent * tenTo (-u) / (tenTo u * twoTo (-p.exponent))

/-- Whether the upper neighbour of `c` on the grid of `10 ^ u` is the nearer one. -/
def Parts.nearerAbove (p : Parts) (c : Nat) (u : Int) : Bool :=
  decimalLe (2 * c + 1) u (2 * p.mantissa) p.exponent

/-- The neighbour of the double on the grid of `10 ^ u` that reads back, the nearer if both do. -/
def Parts.onGrid? (p : Parts) (u : Int) : Option Nat :=
  let c := p.floorAt u
  let below := 0 < c && p.interval.contains c u
  let above := p.interval.contains (c + 1) u
  if below && above then some (if p.nearerAbove c u then c + 1 else c)
  else if below then some c
  else if above then some (c + 1)
  else none

/-- The least `u` with the double below `10 ^ u`. -/
def Parts.magnitude (p : Parts) : Int :=
  ((Nat.toDigits 10 (p.floorAt (-400))).length : Int) - 400

/-- The coarsest of the finer and finer grids on which a neighbour reads back. -/
def Parts.search (p : Parts) : Nat → Int → Nat × Int
  | 0, u => (p.floorAt u, u)
  | fuel + 1, u =>
    match p.onGrid? u with
    | some c => (c, u)
    | none => p.search fuel (u - 1)

/-- Digits `c` and an exponent `u` for a positive double, which is near `c * 10 ^ u`. -/
def Parts.shortest (p : Parts) : Nat × Int :=
  p.search 18 p.magnitude

def positional (c : Nat) (u : Int) : String :=
  let digits := Nat.toDigits 10 c
  if 0 ≤ u then String.ofList (digits ++ List.replicate u.toNat '0')
  else
    let places := (-u).toNat
    let padded := List.replicate (places + 1 - digits.length) '0' ++ digits
    let whole := padded.length - places
    String.ofList (padded.take whole ++ '.' :: padded.drop whole)

def text (x : Float) : String :=
  if x.isNaN then "NaN"
  else
    let sign := if signBit x then "-" else ""
    if x.isInf then sign ++ "inf"
    else
      let p := parts x
      if p.mantissa = 0 then sign ++ "0"
      else
        let (c, u) := p.shortest
        sign ++ positional c u

def pointedText (x : Float) : String :=
  let t := text x
  if t.toList.contains '.' then t else t ++ ".0"

/-- The double nearest to `mantissa * 10 ^ exponent`, unless it is out of range. -/
def ofDecimal? (mantissa : Nat) (exponent : Int) : Option Float :=
  let size := (Nat.toDigits 10 mantissa).length + exponent
  if mantissa = 0 ∨ size < -400 then some 0
  else if 400 < size then none
  else
    let x := Float.ofScientific mantissa (decide (exponent < 0)) exponent.natAbs
    if x.isFinite then some x else none

end DocumentStore.Decimal
