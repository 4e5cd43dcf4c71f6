import DocumentStore.Identifier
import DocumentStore.Query.Order

/-! Texts as identifiers. A text of twenty-four hexadecimal digits, in either letter case, stands
for the identifier with the bytes they write, and every other text for itself. -/

namespace DocumentStore

namespace Text.Hex

def AllDigits (cs : List Char) : Prop :=
  ∀ c ∈ cs, (hexValue? c).isSome = true

theorem utf8Size_of_digit {c : Char} (h : (hexValue? c).isSome = true) : c.utf8Size = 1 := by
  have hle : c.val ≤ 'f'.val := by
    unfold hexValue? at h
    split at h
    · next hd => exact UInt32.le_trans hd.2 (by decide)
    · split at h
      · next hl => exact hl.2
      · split at h
        · next hu => exact UInt32.le_trans hu.2 (by decide)
        · cases h
  exact Char.utf8Size_eq_one_iff.mpr (UInt32.le_trans hle (by decide))

theorem utf8ByteSize_of_allDigits {cs : List Char} (h : AllDigits cs) :
    (String.ofList cs).utf8ByteSize = cs.length := by
  induction cs with
  | nil => rfl
  | cons c cs ih =>
    have hcs := ih (fun d hd => h d (by simp [hd]))
    rw [String.ofList_cons, String.utf8ByteSize_append, String.utf8ByteSize_singleton,
      utf8Size_of_digit (h c (by simp)), hcs, List.length_cons, Nat.add_comm]

theorem toNat_lt_of_digit {c : Char} (h : (hexValue? c).isSome = true) : c.toNat < 128 := by
  have hc : c.val ≤ 127 := Char.utf8Size_eq_one_iff.mp (utf8Size_of_digit h)
  exact Nat.lt_succ_of_le (UInt32.le_iff_toNat_le.mp hc)

theorem not_blank_of_digit {c : Char} (h : (hexValue? c).isSome = true) : isBlank c = false := by
  have hascii : ∀ i : Fin 128, (hexValue? (Char.ofNat i)).isSome = true →
      isBlank (Char.ofNat i) = false := by decide +kernel
  simpa [h] using hascii ⟨c.toNat, toNat_lt_of_digit h⟩

theorem byte?_of_digits {high low : Char} (hh : (hexValue? high).isSome = true)
    (hl : (hexValue? low).isSome = true) : ∃ b, byte? high low = some b := by
  obtain ⟨m, hm⟩ := Option.isSome_iff_exists.mp hh
  obtain ⟨n, hn⟩ := Option.isSome_iff_exists.mp hl
  exact ⟨UInt8.ofNat (m * 16 + n), by simp [byte?, hm, hn]⟩

theorem bytes?_of_allDigits {n : Nat} {cs : List Char} (h : AllDigits cs)
    (hn : cs.length = 2 * n) : ∃ bytes, bytes? cs = some bytes := by
  induction n generalizing cs with
  | zero =>
    obtain rfl := List.eq_nil_of_length_eq_zero hn
    exact ⟨[], rfl⟩
  | succ n ih =>
    match cs, hn, h with
    | high :: low :: rest, hn, h =>
      obtain ⟨b, hb⟩ := byte?_of_digits (h high (by simp)) (h low (by simp))
      have hrest : AllDigits rest := fun c hc => h c (by simp [hc])
      have hlength : rest.length = 2 * n := by
        simp only [List.length_cons] at hn
        omega
      obtain ⟨bytes, hbytes⟩ := ih hrest hlength
      exact ⟨b :: bytes, by simp [bytes?, hb, hbytes]⟩

theorem allDigits_of_bytes? {cs : List Char} {bytes : List UInt8} (h : bytes? cs = some bytes) :
    AllDigits cs := by
  fun_induction bytes? cs generalizing bytes with
  | case1 => simp [AllDigits]
  | case2 c => cases h
  | case3 high low rest ih =>
    obtain ⟨b, hb, h⟩ := Option.bind_eq_some_iff.mp h
    obtain ⟨bs, hbs, -⟩ := Option.bind_eq_some_iff.mp h
    obtain ⟨m, hm, hb⟩ := Option.bind_eq_some_iff.mp hb
    obtain ⟨n, hn, -⟩ := Option.bind_eq_some_iff.mp hb
    simpa [AllDigits, hm, hn] using ih hbs

theorem hexValue?_toLower (c : Char) : hexValue? c.toLower = hexValue? c := by
  have hascii : ∀ i : Fin 128, hexValue? (Char.ofNat i).toLower = hexValue? (Char.ofNat i) := by
    decide +kernel
  by_cases hupper : c.val ≥ 'A'.val ∧ c.val ≤ 'Z'.val
  · have hc : c.val < 128 := UInt32.lt_of_le_of_lt hupper.2 (by decide)
    simpa using hascii ⟨c.toNat, UInt32.lt_iff_toNat_lt.mp hc⟩
  · have hsame : c.toLower = c := dif_neg hupper
    rw [hsame]

theorem toLower_of_hexValue? {c : Char} {n : Nat} (h : hexValue? c = some n) :
    n < 16 ∧ c.toLower = hexDigit n := by
  have hascii : ∀ i : Fin 128, (hexValue? (Char.ofNat i)).all
      (fun n => n < 16 ∧ (Char.ofNat i).toLower = hexDigit n) = true := by decide +kernel
  simpa [h] using hascii ⟨c.toNat, toNat_lt_of_digit (Option.isSome_of_eq_some h)⟩

theorem toLower_of_byte? {high low : Char} {b : UInt8} (h : byte? high low = some b) :
    [high.toLower, low.toLower] = ofByte b := by
  obtain ⟨m, hm, h⟩ := Option.bind_eq_some_iff.mp h
  obtain ⟨n, hn, h⟩ := Option.bind_eq_some_iff.mp h
  cases h
  obtain ⟨hm16, hhigh⟩ := toLower_of_hexValue? hm
  obtain ⟨hn16, hlow⟩ := toLower_of_hexValue? hn
  have hb : (UInt8.ofNat (m * 16 + n)).toNat = m * 16 + n :=
    UInt8.toNat_ofNat_of_lt' (show m * 16 + n < 256 by omega)
  rw [ofByte, hb, hhigh, hlow, show (m * 16 + n) / 16 = m by omega,
    show (m * 16 + n) % 16 = n by omega]

theorem bytes?_toLower (cs : List Char) : bytes? (cs.map Char.toLower) = bytes? cs := by
  fun_induction bytes? cs with
  | case1 => rfl
  | case2 c => rfl
  | case3 high low rest ih => simp only [List.map_cons, bytes?, byte?, hexValue?_toLower, ih]

/-- Digits are read as bytes exactly if they are how the bytes are written, but for the letter
case. -/
theorem bytes?_eq_some_iff {cs : List Char} {bytes : List UInt8} :
    bytes? cs = some bytes ↔ cs.map Char.toLower = ofBytes bytes := by
  constructor
  · intro h
    fun_induction bytes? cs generalizing bytes with
    | case1 =>
      cases h
      rfl
    | case2 c => cases h
    | case3 high low rest ih =>
      obtain ⟨b, hb, h⟩ := Option.bind_eq_some_iff.mp h
      obtain ⟨bs, hbs, h⟩ := Option.bind_eq_some_iff.mp h
      cases h
      rw [ofBytes, List.flatMap_cons, ← toLower_of_byte? hb, ← ofBytes, ← ih hbs]
      rfl
  · intro h
    rw [← bytes?_toLower, h, bytes?_ofBytes]

theorem length_of_bytes? {cs : List Char} {bytes : List UInt8} (h : bytes? cs = some bytes) :
    cs.length = 2 * bytes.length := by
  rw [← length_ofBytes, ← bytes?_eq_some_iff.mp h, List.length_map]

end Text.Hex

namespace ObjectId

/-- Whether a text is twenty-four hexadecimal digits. -/
def isHex (text : String) : Bool :=
  text.toList.length == 24 && text.toList.all (fun c => (Text.hexValue? c).isSome)

theorem firstOther?_eq_none_iff {cs : List Char} {i : Nat} :
    firstOther? cs i = none ↔ Text.Hex.AllDigits cs := by
  induction cs generalizing i with
  | nil => simp [firstOther?, Text.Hex.AllDigits]
  | cons c cs ih =>
    cases h : (Text.hexValue? c).isSome <;> simp [firstOther?, h, ih, Text.Hex.AllDigits]

theorem ofHex_of_isHex {text : String} (h : isHex text = true) :
    ∃ id, ofHex text = .ok id ∧ Text.Hex.bytes? text.toList = some id.bytes := by
  simp only [isHex, Bool.and_eq_true, beq_iff_eq, List.all_eq_true] at h
  obtain ⟨hlength, hdigits⟩ := h
  have hsize : text.utf8ByteSize = 24 := by
    rw [← String.ofList_toList (s := text), Text.Hex.utf8ByteSize_of_allDigits hdigits, hlength]
  obtain ⟨bytes, hbytes⟩ := Text.Hex.bytes?_of_allDigits (n := 12) hdigits hlength
  have hcount : bytes.length = 12 := by
    have := Text.Hex.length_of_bytes? hbytes
    omega
  refine ⟨⟨bytes, hcount⟩, ?_, hbytes⟩
  simp [ofHex, hsize, firstOther?_eq_none_iff.mpr hdigits, hbytes, hcount]

theorem isHex_of_ofHex {text : String} {id : ObjectId} (h : ofHex text = .ok id) :
    isHex text = true := by
  unfold ofHex at h
  split at h
  · cases h
  · split at h
    · cases h
    · next hdigits =>
      split at h
      · cases h
      · next bytes hbytes =>
        split at h
        · next hcount =>
          have hlength := Text.Hex.length_of_bytes? hbytes
          have hall := firstOther?_eq_none_iff.mp hdigits
          simp only [isHex, Bool.and_eq_true, beq_iff_eq, List.all_eq_true]
          exact ⟨by omega, hall⟩
        · cases h

/-- A text is how an identifier is written, but for the letter case. -/
def IsSpelled (id : ObjectId) (text : String) : Prop :=
  text.toList.map Char.toLower = id.hex.toList

instance (id : ObjectId) (text : String) : Decidable (id.IsSpelled text) :=
  inferInstanceAs (Decidable (_ = _))

theorem isSpelled_iff {id : ObjectId} {text : String} :
    id.IsSpelled text ↔ Text.Hex.bytes? text.toList = some id.bytes := by
  rw [IsSpelled, hex, Text.Hex.text, String.toList_ofList, Text.Hex.bytes?_eq_some_iff]

theorem allDigits_of_isSpelled {id : ObjectId} {text : String} (h : id.IsSpelled text) :
    Text.Hex.AllDigits text.toList :=
  Text.Hex.allDigits_of_bytes? (isSpelled_iff.mp h)

/-- A text is read as the identifier it spells. -/
theorem ofHex_eq_ok_iff {id : ObjectId} {text : String} :
    ofHex text = .ok id ↔ id.IsSpelled text := by
  rw [isSpelled_iff]
  constructor
  · intro h
    obtain ⟨id', hid', hbytes⟩ := ofHex_of_isHex (isHex_of_ofHex h)
    obtain rfl := Except.ok.inj (h.symm.trans hid')
    exact hbytes
  · intro h
    have hlength : text.toList.length = 24 := by rw [Text.Hex.length_of_bytes? h, id.size]
    have hhex : isHex text = true := by
      simp only [isHex, Bool.and_eq_true, beq_iff_eq, List.all_eq_true]
      exact ⟨hlength, Text.Hex.allDigits_of_bytes? h⟩
    obtain ⟨⟨bytes, size⟩, hread, hbytes⟩ := ofHex_of_isHex hhex
    obtain ⟨bytes', size'⟩ := id
    obtain rfl := Option.some.inj (h.symm.trans hbytes)
    exact hread

end ObjectId

namespace Value

/-- Whether a value is the identifier a text stands for. -/
def isIdentifier (text : String) (v : Value) : Bool :=
  if ObjectId.isHex text then
    v.asObjectId?.any (fun id => Text.Hex.bytes? text.toList == some id.bytes)
  else v.asString? == some text

theorem equals_string (v : Value) (text : String) :
    v.equals (.string text) = (v.asString? == some text) := by
  cases v <;> simp [equals, asDouble?, asString?, same]

theorem equals_objectId (v : Value) (id : ObjectId) :
    v.equals (.objectId id) = (v.asObjectId? == some id) := by
  cases v <;> simp [equals, asDouble?, asObjectId?, same]

theorem equals_valueOfText (v : Value) (text : String) :
    v.equals (ObjectId.valueOfText text) = v.isIdentifier text := by
  unfold isIdentifier ObjectId.valueOfText
  cases h : ObjectId.isHex text with
  | true =>
    obtain ⟨id, hid, hbytes⟩ := ObjectId.ofHex_of_isHex h
    rw [hid, hbytes, if_pos rfl]
    change v.equals (.objectId id) = _
    rw [equals_objectId]
    cases v.asObjectId? with
    | none => rfl
    | some other =>
      obtain ⟨bytes, size⟩ := id
      obtain ⟨bytes', size'⟩ := other
      change (some (ObjectId.mk bytes' size') == some ⟨bytes, size⟩) = (some bytes == some bytes')
      rw [Bool.eq_iff_iff, beq_iff_eq, beq_iff_eq]
      simp only [Option.some.injEq, ObjectId.mk.injEq]
      exact eq_comm
  | false =>
    cases hr : ObjectId.ofHex text with
    | ok id =>
      rw [ObjectId.isHex_of_ofHex hr] at h
      cases h
    | error fault => exact equals_string v text

theorem isIdentifier_objectId (text : String) (id : ObjectId) :
    (objectId id).isIdentifier text = decide (id.IsSpelled text) := by
  rw [← equals_valueOfText, ObjectId.valueOfText, Bool.eq_iff_iff, decide_eq_true_eq,
    ← ObjectId.ofHex_eq_ok_iff]
  cases ObjectId.ofHex text with
  | ok id' =>
    rw [equals_objectId, beq_iff_eq, Except.ok.injEq]
    exact Option.some_inj.trans eq_comm
  | error fault => simp [equals_string, asString?]

end Value

end DocumentStore
