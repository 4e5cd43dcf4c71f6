/-! Who a client says it is. A connection string that asks for authentication names a user or a
mechanism, and a mechanism may ask for more. -/

namespace DocumentStore

inductive Mechanism where
  | scramSha1
  | scramSha256
  | certificate
  | kerberos
  | plain
deriving DecidableEq

namespace Mechanism

def name : Mechanism → String
  | scramSha1 => "SCRAM-SHA-1"
  | scramSha256 => "SCRAM-SHA-256"
  | certificate => "MONGODB-X509"
  | kerberos => "GSSAPI"
  | plain => "PLAIN"

def named? (word : String) : Option Mechanism :=
  [scramSha1, scramSha256, certificate, kerberos, plain].find? (fun m => m.name == word)

end Mechanism

structure Credential where
  user : Option String := none
  password : Option String := none
  source : Option String := none
  mechanism : Option Mechanism := none
deriving DecidableEq

namespace Credential

/-- Where users are kept that no database of the server holds. -/
def externalSource : String := "$external"

def serves (c : Credential) : Mechanism → Bool
  | .scramSha1 => c.user.isSome
  | .scramSha256 => c.user.isSome
  | .certificate => c.password.isNone && c.source.all (· == externalSource)
  | .kerberos => true
  | .plain => c.user.isSome && c.password.isSome

def isComplete (c : Credential) (requested : Bool) : Bool :=
  c.source != some "" &&
    match c.mechanism with
    | some m => c.serves m
    | none => !requested || c.user.isSome

end Credential

end DocumentStore
