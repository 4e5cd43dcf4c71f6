/-! Bytes as text in base 64: each three bytes are four letters, and the last group is filled up
with equality signs. A text has to be exactly the one that is written for some bytes. -/

namespace DocumentStore.Text.Base64

def alphabet : List Char :=
  "ABCDEFGHIJKLMNOPQRSTUVWXYZabcdefghijklmnopqrstuvwxyz0123456789+/".toList

def letter (n : Nat) : Char :=
  alphabet.getD (n % 64) 'A'

def sextet? (c : Char) : Option Nat :=
  alphabet.idxOf? c

def letters (n : Nat) : List Char :=
  [letter (n >>> 18), letter (n >>> 12), letter (n >>> 6), letter n]

def encode : List UInt8 → List Char
  | [] => []
  | [a] => (letters (a.toNat <<< 16)).take 2 ++ ['=', '=']
  | [a, b] => (letters (a.toNat <<< 16 + b.toNat <<< 8)).take 3 ++ ['=']
  | a :: b :: c :: rest =>
    letters (a.toNat <<< 16 + b.toNat <<< 8 + c.toNat) ++ encode rest

def group? (a b c d : Char) : Option (List UInt8) := do
  let n := (← sextet? a) <<< 18 + (← sextet? b) <<< 12 + (← sextet? c) <<< 6 + (← sextet? d)
  return [UInt8.ofNat (n >>> 16), UInt8.ofNat (n >>> 8), UInt8.ofNat n]

/-- The bits behind the last byte of a filled group have to be zero. -/
def lastGroup? : Char → Char → Char → Char → Option (List UInt8)
  | a, b, '=', '=' =>
    (group? a b 'A' 'A').bind fun bytes =>
      if bytes.drop 1 = [0, 0] then some (bytes.take 1) else none
  | a, b, c, '=' =>
    (group? a b c 'A').bind fun bytes =>
      if bytes.drop 2 = [0] then some (bytes.take 2) else none
  | a, b, c, d => group? a b c d

def decode? : List Char → Option (List UInt8)
  | [] => some []
  | [a, b, c, d] => lastGroup? a b c d
  | a :: b :: c :: d :: rest => do return (← group? a b c d) ++ (← decode? rest)
  | _ => none

end DocumentStore.Text.Base64
