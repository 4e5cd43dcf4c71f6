import DocumentStore.Text.Hex

/-! Universally unique identifiers as text: thirty-two hexadecimal digits, or groups of them with
hyphens between, which may stand in braces or after `urn:uuid:`. -/

namespace DocumentStore.Text.Uuid

/-- Digits with a hyphen between groups of the given lengths. -/
def ungrouped? : List Nat → List Char → Option (List Char)
  | [], cs => if cs.isEmpty then some [] else none
  | [n], cs => if cs.length = n then some cs else none
  | n :: ns, cs =>
    match cs.drop n with
    | '-' :: rest => (ungrouped? ns rest).map (cs.take n ++ ·)
    | _ => none

def grouped? (cs : List Char) : Option (List UInt8) :=
  (ungrouped? [8, 4, 4, 4, 12] cs).bind Hex.bytes?

def urn : List Char := "urn:uuid:".toList

def ofText? (text : String) : Option (List UInt8) :=
  let cs := text.toList
  if cs.length = 32 then Hex.bytes? cs
  else if (cs.take urn.length).map Char.toLower = urn then grouped? (cs.drop urn.length)
  else
    match cs with
    | '\x7b' :: rest => if rest.getLast? = some '\x7d' then grouped? rest.dropLast else none
    | cs => grouped? cs

end DocumentStore.Text.Uuid
