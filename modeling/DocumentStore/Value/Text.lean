import DocumentStore.Decimal.Decimal128
import DocumentStore.Decimal.Shortest
import DocumentStore.Text.Base64
import DocumentStore.Text.Instant
import DocumentStore.Value.Basic

/-! Values as they are shown in messages. Texts are put in quotes as they are. -/

namespace DocumentStore.Value

def inQuotes (s : String) : String :=
  "\"" ++ s ++ "\""

/-- A number in hexadecimal digits without leading zeros. -/
def hexText (n : Nat) : String :=
  "0x" ++ String.ofList (Nat.toDigits 16 n)

mutual

def text : Value → String
  | null => "null"
  | bool b => if b then "true" else "false"
  | string s => inQuotes s
  | int32 n => toString n.toInt
  | int64 n => toString n.toInt
  | double x => Decimal.text x
  | array items => "[" ++ ", ".intercalate (itemTexts items) ++ "]"
  | document [] => "\x7b\x7d"
  | document fields => "\x7b " ++ ", ".intercalate (fieldTexts fields) ++ " \x7d"
  | objectId id => "ObjectId(" ++ inQuotes id.hex ++ ")"
  | dateTime t => "DateTime(" ++ inQuotes (Text.Instant.text t.toInt) ++ ")"
  | regex pattern options => "/" ++ pattern ++ "/" ++ options
  | timestamp t i => "Timestamp(" ++ toString t.toNat ++ ", " ++ toString i.toNat ++ ")"
  | binary subtype bytes =>
    "Binary(" ++ hexText subtype.toNat ++ ", " ++ String.ofList (Text.Base64.encode bytes) ++ ")"
  | symbol s => "Symbol(" ++ inQuotes s ++ ")"
  | code s => s
  | scopedCode s _ => s
  | pointer collection id => "DbPointer(" ++ collection ++ ", " ++ id.hex ++ ")"
  | decimal bytes => (Decimal128.ofBytes bytes).text
  | undefined => "undefined"
  | minKey => "MinKey"
  | maxKey => "MaxKey"

def itemTexts : List Value → List String
  | [] => []
  | v :: vs => text v :: itemTexts vs

def fieldTexts : List (String × Value) → List String
  | [] => []
  | (key, v) :: rest => (inQuotes key ++ ": " ++ text v) :: fieldTexts rest

end

end DocumentStore.Value
