import DocumentStore.Text.Hex

/-! Object identifiers are twelve bytes, written as twenty-four hexadecimal digits. Both letter
cases are read and lower case is written. -/

namespace DocumentStore

structure ObjectId where
  bytes : List UInt8
  size : bytes.length = 12
deriving DecidableEq

namespace ObjectId

def hex (id : ObjectId) : String :=
  Text.Hex.text id.bytes

inductive Fault where
  | length (text : String)
  | digit (text : String) (index : Nat) (leading : Char)
deriving DecidableEq

/-- The first byte of a character's UTF-8 form, as the character of that number. -/
def leadingByte (c : Char) : Char :=
  let n := c.toNat
  if n < 0x80 then c
  else if n < 0x800 then Char.ofNat (0xC0 + n / 0x40)
  else if n < 0x10000 then Char.ofNat (0xE0 + n / 0x1000)
  else Char.ofNat (0xF0 + n / 0x40000)

def Fault.message : Fault → String
  | .length text =>
    "provided hex string representation must be exactly 12 bytes, instead got: \"" ++ text ++
      "\", length " ++ toString text.utf8ByteSize
  | .digit text index leading =>
    "invalid character '" ++ String.singleton leading ++ "' was found at index " ++
      toString index ++ " in the provided hex string: \"" ++ text ++ "\""

/-- The first character that is no hexadecimal digit, with its position. -/
def firstOther? : List Char → Nat → Option (Nat × Char)
  | [], _ => none
  | c :: cs, i => if (Text.hexValue? c).isSome then firstOther? cs (i + 1) else some (i, c)

/-- An odd number of bytes is reported before a wrong digit, and a wrong digit before an even but
wrong length. -/
def ofHex (text : String) : Except Fault ObjectId :=
  if text.utf8ByteSize % 2 = 1 then .error (.length text)
  else
    match firstOther? text.toList 0 with
    | some (index, c) => .error (.digit text index (leadingByte c))
    | none =>
      match Text.Hex.bytes? text.toList with
      | none => .error (.length text)
      | some bytes => if h : bytes.length = 12 then .ok ⟨bytes, h⟩ else .error (.length text)

/-- The identifier whose bytes are the digits of a number in base 256. -/
def ofNat (n : Nat) : ObjectId :=
  ⟨(List.range 12).map (fun i => UInt8.ofNat (n >>> (8 * (11 - i)))), by simp⟩

def compare (a b : ObjectId) : Ordering :=
  compareOn (·.bytes.map UInt8.toNat) a b

end ObjectId

end DocumentStore
