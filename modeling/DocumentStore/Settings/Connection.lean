import DocumentStore.Settings.ConnectionString
import DocumentStore.Settings.Environment
import DocumentStore.StoreError

/-! Settings of a connection: where the server is, which database is used, and options that override
those of the connection string. -/

namespace DocumentStore

structure ConnectionSettings where
  uri : String
  database : String
  options : ConnectionOptions
deriving DecidableEq

inductive ConnectionFault where
  | scheme
  | databaseMissing
  | malformed
deriving DecidableEq

namespace ConnectionSettings

def urlVariable : String := "MONGODB_URL"
def databaseVariable : String := "TRAILSTORE_DATABASE"
def defaultUri : String := "mongodb://localhost:27017/datastore"
def defaultDatabase : String := "datastore"

end ConnectionSettings

def ConnectionFault.message : ConnectionFault → String
  | scheme =>
    ConnectionSettings.urlVariable ++ " must be a mongodb:// or mongodb+srv:// URI"
  | databaseMissing => "database name is required"
  | malformed => "failed to parse URI"

def ConnectionFault.toStoreError (fault : ConnectionFault) : StoreError :=
  .configuration fault.message

namespace ConnectionSettings

def defaultOptions : ConnectionOptions where
  appName := some "trailstore"
  maxPoolSize := some 10
  maxIdleTime := some 300000
  connectTimeout := some 10000
  serverSelectionTimeout := some 30000
  readPreference := some .primary

def ofUri (uri database : String) : ConnectionSettings :=
  ⟨uri, database, defaultOptions⟩

def default : ConnectionSettings :=
  ofUri defaultUri defaultDatabase

def hasScheme (uri : String) : Bool :=
  "mongodb://".toList.isPrefixOf uri.toList || "mongodb+srv://".toList.isPrefixOf uri.toList

/-- A database named in the environment takes precedence over the one of the connection string. -/
def ofEnvironment (env : Environment) : Except ConnectionFault ConnectionSettings :=
  let uri := (env.getNonBlank urlVariable).getD defaultUri
  if hasScheme uri then
    let database := (env.getNonBlank databaseVariable).or (ConnectionString.database? uri)
    .ok (ofUri uri (database.getD defaultDatabase))
  else .error .scheme

/-- Settings put together from what is given; a database that is not given is the one of the
connection string. -/
def build (uri database : Option String) (options : ConnectionOptions) :
    Except ConnectionFault ConnectionSettings :=
  let uri := uri.getD defaultUri
  match (database.filter (· ≠ "")).or (ConnectionString.database? uri) with
  | some database => .ok ⟨uri, database, options.orElse defaultOptions⟩
  | none => .error .databaseMissing

def clientOptions (s : ConnectionSettings) : Except ConnectionFault ConnectionOptions :=
  match ConnectionString.options? s.uri with
  | some o => .ok (s.options.orElse o)
  | none => .error .malformed

end ConnectionSettings

end DocumentStore
