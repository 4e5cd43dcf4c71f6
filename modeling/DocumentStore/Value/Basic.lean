import DocumentStore.ObjectId

/-! Values are what a stored document holds. A document is a list of keys with values in the order
they were written, and a key that is written again keeps its place. Equality of documents is
indifferent to the order of keys, and equality of doubles is the one of IEEE 754. -/

namespace DocumentStore

inductive Value where
  | null
  | bool (b : Bool)
  | string (s : String)
  | int32 (n : Int32)
  | int64 (n : Int64)
  | double (x : Float)
  | array (items : List Value)
  | document (fields : List (String × Value))
  | objectId (id : ObjectId)
  | dateTime (milliseconds : Int64)
  | regex (pattern : String) (options : String)
  | timestamp (time : UInt32) (increment : UInt32)
  | binary (subtype : UInt8) (bytes : List UInt8)
  | symbol (s : String)
  | code (s : String)
  | scopedCode (s : String) (scope : List (String × Value))
  | pointer (collection : String) (id : ObjectId)
  | decimal (bytes : List UInt8)
  | undefined
  | minKey
  | maxKey

abbrev Document := List (String × Value)

instance : Inhabited Value := ⟨.null⟩

namespace Document

def get (d : Document) (key : String) : Option Value :=
  List.lookup key d

def contains (d : Document) (key : String) : Bool :=
  (get d key).isSome

/-- A present key keeps its place and takes the new value; a new key goes to the end. -/
def insert : Document → String → Value → Document
  | [], key, value => [(key, value)]
  | (k, v) :: rest, key, value =>
    if k = key then (k, value) :: rest else (k, v) :: insert rest key value

/-- A key is taken out, and the entries after it move up. -/
def erase : Document → String → Document
  | [], _ => []
  | (k, v) :: rest, key => if k = key then erase rest key else (k, v) :: erase rest key

def insertAll (d entries : Document) : Document :=
  entries.foldl (fun d (key, value) => insert d key value) d

def ofList (entries : List (String × Value)) : Document :=
  insertAll [] entries

end Document

namespace Value

def typeName : Value → String
  | null => "Null"
  | bool _ => "Boolean"
  | string _ => "String"
  | int32 _ => "Int32"
  | int64 _ => "Int64"
  | double _ => "Double"
  | array _ => "Array"
  | document _ => "EmbeddedDocument"
  | objectId _ => "ObjectId"
  | dateTime _ => "DateTime"
  | regex _ _ => "RegularExpression"
  | timestamp _ _ => "Timestamp"
  | binary _ _ => "Binary"
  | symbol _ => "Symbol"
  | code _ => "JavaScriptCode"
  | scopedCode _ _ => "JavaScriptCodeWithScope"
  | pointer _ _ => "DbPointer"
  | decimal _ => "Decimal128"
  | undefined => "Undefined"
  | minKey => "MinKey"
  | maxKey => "MaxKey"

/-- A number of any of the three numeric types, rounded to a double. -/
def asDouble? : Value → Option Float
  | double x => some x
  | int32 n => some (Float.ofInt n.toInt)
  | int64 n => some (Float.ofInt n.toInt)
  | _ => none

def asInt? : Value → Option Int
  | int32 n => some n.toInt
  | int64 n => some n.toInt
  | _ => none

def asString? : Value → Option String
  | string s => some s
  | _ => none

def asArray? : Value → Option (List Value)
  | array items => some items
  | _ => none

def asDocument? : Value → Option Document
  | document fields => some fields
  | _ => none

def asObjectId? : Value → Option ObjectId
  | objectId id => some id
  | _ => none

mutual

/-- Equality of stored values. The three numeric types are kept apart. -/
def same : Value → Value → Bool
  | null, null => true
  | bool a, bool b => a == b
  | string a, string b => a == b
  | int32 a, int32 b => a == b
  | int64 a, int64 b => a == b
  | double a, double b => a == b
  | array a, array b => sameItems a b
  | document a, document b => a.length == b.length && sameFields a b
  | objectId a, objectId b => a == b
  | dateTime a, dateTime b => a == b
  | regex p o, regex q r => p == q && o == r
  | timestamp t i, timestamp u j => t == u && i == j
  | binary s a, binary t b => s == t && a == b
  | symbol a, symbol b => a == b
  | code a, code b => a == b
  | scopedCode a s, scopedCode b t => a == b && s.length == t.length && sameFields s t
  | pointer c a, pointer d b => c == d && a == b
  | decimal a, decimal b => a == b
  | undefined, undefined => true
  | minKey, minKey => true
  | maxKey, maxKey => true
  | _, _ => false

def sameItems : List Value → List Value → Bool
  | [], [] => true
  | a :: as, b :: bs => same a b && sameItems as bs
  | _, _ => false

/-- Every entry of the first document has an equal value under its key in the second. -/
def sameFields : List (String × Value) → Document → Bool
  | [], _ => true
  | (key, value) :: rest, d =>
    (match Document.get d key with
      | some other => same value other
      | none => false) && sameFields rest d

end

end Value

namespace Document

def same (a b : Document) : Bool :=
  Value.same (.document a) (.document b)

@[simp]
theorem get_nil (key : String) : get [] key = none := rfl

theorem get_cons (k : String) (v : Value) (rest : Document) (key : String) :
    get ((k, v) :: rest) key = if k = key then some v else get rest key := by
  rw [get, List.lookup_cons]
  by_cases h : k = key
  · simp [h]
  · have h' : (key == k) = false := by simpa using fun e => h e.symm
    simp [h, h', get]

theorem get_insert_self (d : Document) (key : String) (value : Value) :
    get (insert d key value) key = some value := by
  induction d with
  | nil => simp [insert, get_cons]
  | cons entry rest ih =>
    obtain ⟨k, v⟩ := entry
    by_cases h : k = key
    · simp [insert, h, get_cons]
    · simp [insert, h, get_cons, ih]

theorem get_insert_of_ne (d : Document) {key other : String} (value : Value) (h : other ≠ key) :
    get (insert d key value) other = get d other := by
  induction d with
  | nil => simp [insert, get_cons, h.symm]
  | cons entry rest ih =>
    obtain ⟨k, v⟩ := entry
    by_cases hk : k = key
    · subst hk
      simp [insert, get_cons, h.symm]
    · simp [insert, hk, get_cons, ih]

theorem get_erase_of_ne (d : Document) {key other : String} (h : other ≠ key) :
    get (erase d key) other = get d other := by
  induction d with
  | nil => rfl
  | cons entry rest ih =>
    obtain ⟨k, v⟩ := entry
    by_cases hk : k = key
    · subst hk
      simp [erase, get_cons, h.symm, ih]
    · simp [erase, hk, get_cons, ih]

theorem get_erase_self (d : Document) (key : String) : get (erase d key) key = none := by
  induction d with
  | nil => rfl
  | cons entry rest ih =>
    obtain ⟨k, v⟩ := entry
    by_cases hk : k = key
    · simp [erase, hk, ih]
    · simp [erase, hk, get_cons, ih]

end Document

end DocumentStore
