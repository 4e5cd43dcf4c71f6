import DocumentStore.Text.Hex
import DocumentStore.Text.Utf8

/-! Percent escapes: in an escaped text a percent sign and two hexadecimal digits stand for a byte
of its UTF-8 form. A percent sign before anything else stands for itself. -/

namespace DocumentStore.Text.Percent

def bytes : List Char → List UInt8
  | [] => []
  | '%' :: a :: b :: rest =>
    match Hex.byte? a b with
    | some byte => byte :: bytes rest
    | none => 0x25 :: bytes (a :: b :: rest)
  | c :: rest => Utf8.ofChars [c] ++ bytes rest

def decode? (cs : List Char) : Option String :=
  Utf8.decode? (bytes cs)

/-- The text with what is no UTF-8 replaced. -/
def lenient (cs : List Char) : String :=
  Utf8.lenient (bytes cs)

/-- Whether each percent sign begins an escape. -/
def isEscaped : List Char → Bool
  | [] => true
  | '%' :: a :: b :: rest => (Hex.byte? a b).isSome && isEscaped rest
  | '%' :: _ => false
  | _ :: rest => isEscaped rest

end DocumentStore.Text.Percent
