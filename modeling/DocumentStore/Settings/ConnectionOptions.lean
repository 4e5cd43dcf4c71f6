/-! Options of a connection. An option that is not set has no say. -/

namespace DocumentStore

inductive ReadPreference where
  | primary
  | primaryPreferred
  | secondary
  | secondaryPreferred
  | nearest
deriving DecidableEq

namespace ReadPreference

def name : ReadPreference → String
  | primary => "Primary"
  | primaryPreferred => "PrimaryPreferred"
  | secondary => "Secondary"
  | secondaryPreferred => "SecondaryPreferred"
  | nearest => "Nearest"

def named? (word : String) : Option ReadPreference :=
  [primary, primaryPreferred, secondary, secondaryPreferred, nearest].find?
    (fun p => p.name == word)

end ReadPreference

inductive WriteConcern where
  | nodes (n : UInt32)
  | majority
  | custom (tag : String)
deriving DecidableEq

/-- Options of a connection; times are in milliseconds. -/
structure ConnectionOptions where
  appName : Option String := none
  minPoolSize : Option UInt32 := none
  maxPoolSize : Option UInt32 := none
  maxIdleTime : Option UInt64 := none
  connectTimeout : Option UInt64 := none
  serverSelectionTimeout : Option UInt64 := none
  readPreference : Option ReadPreference := none
  writeConcern : Option WriteConcern := none
  retryWrites : Option Bool := none
  retryReads : Option Bool := none
  directConnection : Option Bool := none
deriving DecidableEq

namespace ConnectionOptions

/-- Options that are set take precedence over those of a default. -/
def orElse (a b : ConnectionOptions) : ConnectionOptions where
  appName := a.appName.or b.appName
  minPoolSize := a.minPoolSize.or b.minPoolSize
  maxPoolSize := a.maxPoolSize.or b.maxPoolSize
  maxIdleTime := a.maxIdleTime.or b.maxIdleTime
  connectTimeout := a.connectTimeout.or b.connectTimeout
  serverSelectionTimeout := a.serverSelectionTimeout.or b.serverSelectionTimeout
  readPreference := a.readPreference.or b.readPreference
  writeConcern := a.writeConcern.or b.writeConcern
  retryWrites := a.retryWrites.or b.retryWrites
  retryReads := a.retryReads.or b.retryReads
  directConnection := a.directConnection.or b.directConnection

end ConnectionOptions

end DocumentStore
