import DocumentStore.Settings.ConnectionOptions
import DocumentStore.Settings.Credential
import DocumentStore.Text.Blank
import DocumentStore.Text.Digits
import DocumentStore.Text.Percent

/-! The options at the end of a connection string, as pairs `key=value` with an ampersand between
them. Keys are known in any case. Some options are only checked, and some restrict each other. -/

namespace DocumentStore

/-- Whether a connection is encrypted, and whether any certificate is trusted then. -/
inductive Encryption where
  | off
  | on (trustAny : Option Bool)
deriving DecidableEq

structure UriOptions where
  options : ConnectionOptions := {}
  mechanism : Option Mechanism := none
  authSource : Option String := none
  journaled : Bool := false
  loadBalanced : Bool := false
  replicaSet : Bool := false
  maxConnecting : Option UInt32 := none
  encryption : Option Encryption := none
  /-- Whether servers are chosen by their tags or by how far they may lag behind. -/
  selective : Bool := false
deriving DecidableEq

namespace UriOptions

def flag? (s : String) : Option Bool :=
  if s == "true" then some true else if s == "false" then some false else none

def word32? (s : String) : Option UInt32 :=
  (Text.natBelow? UInt32.size s).map Nat.toUInt32

def time? (s : String) : Option UInt64 :=
  (Text.natBelow? UInt64.size s).map Nat.toUInt64

def intBetween? (least most : Int) (s : String) : Option Int :=
  (Text.int? s.toList).filter (fun n => least ≤ n ∧ n ≤ most)

/-- A number of nodes is not negative; what is no number of thirty-two bits names a tag. -/
def writeConcern? (s : String) : Option WriteConcern :=
  match intBetween? Int32.minValue.toInt Int32.maxValue.toInt s with
  | some n => if n < 0 then none else some (.nodes n.toNat.toUInt32)
  | none => some (if s == "majority" then .majority else .custom s)

def readPreference? (s : String) : Option ReadPreference :=
  [ReadPreference.primary, .primaryPreferred, .secondary, .secondaryPreferred, .nearest].find?
    (fun p => Text.lower p.name == Text.lower s)

/-- A tag of servers has a name and a value; no tags at all may be asked for. -/
def isTags (s : String) : Bool :=
  s.isEmpty || (Text.pieces (· == ',') s.toList).all (·.contains ':')

/-- Properties of a mechanism have a name and a value, neither of them empty. -/
def isProperties (s : String) : Bool :=
  (Text.pieces (· == ',') s.toList).all fun pair =>
    match pair.takeWhile (· != ':'), pair.dropWhile (· != ':') with
    | _ :: _, _ :: _ :: _ => true
    | _, _ => false

/-- The shortest time between two looks at a server, in milliseconds. -/
def leastHeartbeat : UInt64 := 500

/-- Both spellings of this option have to agree. -/
def encrypt? (o : UriOptions) (on : Bool) : Option UriOptions :=
  match o.encryption, on with
  | some .off, true => none
  | some (.on _), false => none
  | some _, _ => some o
  | none, true => some { o with encryption := some (.on none) }
  | none, false => some { o with encryption := some .off }

/-- Any certificate can be trusted or not, on an encrypted connection. -/
def trust? (o : UriOptions) (trustAny : Bool) : Option UriOptions :=
  match o.encryption with
  | some .off => none
  | some (.on (some other)) => if other = trustAny then some o else none
  | _ => some { o with encryption := some (.on (some trustAny)) }

/-- A file of certificates needs an encrypted connection. -/
def certified? (o : UriOptions) : Option UriOptions :=
  match o.encryption with
  | some .off => none
  | some (.on _) => some o
  | none => some { o with encryption := some (.on none) }

/-- Sets an option that settings of a connection have too, if the key is the one of such an option;
the value may be unfit all the same. -/
def setOption? (o : ConnectionOptions) (key value : String) : Option (Option ConnectionOptions) :=
  match key with
  | "appname" => some (some { o with appName := some value })
  | "minpoolsize" => some ((word32? value).map fun n => { o with minPoolSize := some n })
  | "maxpoolsize" => some ((word32? value).map fun n => { o with maxPoolSize := some n })
  | "maxidletimems" => some ((time? value).map fun t => { o with maxIdleTime := some t })
  | "connecttimeoutms" => some ((time? value).map fun t => { o with connectTimeout := some t })
  | "serverselectiontimeoutms" =>
    some ((time? value).map fun t => { o with serverSelectionTimeout := some t })
  | "readpreference" =>
    some ((readPreference? value).map fun p => { o with readPreference := some p })
  | "w" => some ((writeConcern? value).map fun w => { o with writeConcern := some w })
  | "retrywrites" => some ((flag? value).map fun b => { o with retryWrites := some b })
  | "retryreads" => some ((flag? value).map fun b => { o with retryReads := some b })
  | "directconnection" => some ((flag? value).map fun b => { o with directConnection := some b })
  | _ => none

/-- Sets or checks an option of the other keys that are known. -/
def setOther? (o : UriOptions) (key value : String) : Option UriOptions :=
  let checked (fits : Bool) : Option UriOptions := if fits then some o else none
  match key with
  | "authmechanism" => (Mechanism.named? value).map fun m => { o with mechanism := some m }
  | "authsource" => some { o with authSource := some value }
  | "authmechanismproperties" => checked (isProperties value)
  | "compressors" => some o
  | "heartbeatfrequencyms" => checked ((time? value).any (leastHeartbeat ≤ ·))
  | "journal" => (flag? value).map fun b => { o with journaled := b }
  | "loadbalanced" => (flag? value).map fun b => { o with loadBalanced := b }
  | "localthresholdms" => checked (time? value).isSome
  | "maxconnecting" => (word32? value).map fun n => { o with maxConnecting := some n }
  | "maxstalenessseconds" =>
    (intBetween? (-1) Int64.maxValue.toInt value).map fun (n : Int) =>
      { o with selective := o.selective || 0 ≤ n }
  | "readconcernlevel" => some o
  | "readpreferencetags" => if isTags value then some { o with selective := true } else none
  | "replicaset" => some { o with replicaSet := true }
  | "servermonitoringmode" => checked (["stream", "poll", "auto"].contains (Text.lower value))
  | "sockettimeoutms" => checked (time? value).isSome
  | "ssl" => (flag? value).bind o.encrypt?
  | "tls" => (flag? value).bind o.encrypt?
  | "tlsallowinvalidcertificates" => (flag? value).bind o.trust?
  | "tlscafile" => o.certified?
  | "tlscertificatekeyfile" => o.certified?
  | "tlsinsecure" => (flag? value).bind fun b => o.trust? !b
  | "uuidrepresentation" =>
    checked (["csharplegacy", "javalegacy", "pythonlegacy"].contains (Text.lower value))
  | "waitqueuetimeoutms" => checked (time? value).isSome
  | "wtimeoutms" => checked (time? value).isSome
  | "zlibcompressionlevel" => checked (intBetween? (-1) 9 value).isSome
  | _ => none

/-- Takes an option over; a key that is not known is refused. -/
def set? (o : UriOptions) (key value : String) : Option UriOptions :=
  match setOption? o.options key value with
  | some options => options.map fun options => { o with options := options }
  | none => setOther? o key value

/-- Tags may be given several times, in the order they are tried in. -/
def mayRepeat (key : String) : Bool :=
  Text.lower key == "readpreferencetags"

/-- No key is given twice in the same letters. -/
def readFrom (o : UriOptions) (seen : List String) : List (List Char) → Option UriOptions
  | [] => some o
  | pair :: pairs =>
    match pair.dropWhile (· != '=') with
    | [] => none
    | _ :: value =>
      let key := String.ofList (pair.takeWhile (· != '='))
      if seen.contains key && !mayRepeat key then none
      else
        match o.set? (Text.lower key) (Text.Percent.lenient value) with
        | some o => o.readFrom (key :: seen) pairs
        | none => none

/-- Which servers are chosen can only be said where others than the primary one are read from. -/
def isSelectable (o : UriOptions) : Bool :=
  !o.selective || o.options.readPreference.any (· != .primary)

def read? (cs : List Char) : Option UriOptions := do
  let o ← if cs.isEmpty then some {} else readFrom {} [] (Text.pieces (· == '&') cs)
  if o.isSelectable then some o else none

def allowsSeveralHosts (o : UriOptions) : Bool :=
  o.options.directConnection != some true && !o.loadBalanced

/-- Whether the options go together for a number of hosts. -/
def isConsistent (o : UriOptions) (hosts : Nat) : Bool :=
  (hosts ≤ 1 || o.allowsSeveralHosts) &&
    !(o.journaled && o.options.writeConcern == some (.nodes 0)) &&
    !(o.loadBalanced && (o.replicaSet || o.options.directConnection == some true)) &&
    o.options.maxPoolSize != some 0 && o.maxConnecting != some 0

end UriOptions

end DocumentStore
