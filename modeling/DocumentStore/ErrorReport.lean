/-! Error reports are what a caller of the store sees: a code with its category, a message, and what
is known about the operation, the model and the field. Suggestions say how to mend the request. -/

namespace DocumentStore

inductive ErrorCode where
  | recordNotFound
  | operationNotSupported
  | invalidFilter
  | invalidInput
  | wrongObjectType
  | failedToParse
  | connectionFailed
  | connectionTimeout
  | databaseError
  | queryTimeout
  | serializationError
  | deserializationError
  | invalidConfiguration
  | internal
deriving DecidableEq

namespace ErrorCode

/-- The thousands are the category: requests, connections, execution, data, configuration and the
library itself. -/
def number : ErrorCode → Nat
  | recordNotFound => 1001
  | operationNotSupported => 1002
  | invalidFilter => 1003
  | invalidInput => 1004
  | wrongObjectType => 1005
  | failedToParse => 1006
  | connectionFailed => 3001
  | connectionTimeout => 3002
  | databaseError => 5001
  | queryTimeout => 5002
  | serializationError => 6001
  | deserializationError => 6002
  | invalidConfiguration => 7001
  | internal => 9001

def text (c : ErrorCode) : String :=
  "T" ++ toString c.number

def name : ErrorCode → String
  | recordNotFound => "RecordNotFound"
  | operationNotSupported => "OperationNotSupported"
  | invalidFilter => "InvalidFilter"
  | invalidInput => "InvalidInput"
  | wrongObjectType => "WrongObjectType"
  | failedToParse => "FailedToParse"
  | connectionFailed => "ConnectionFailed"
  | connectionTimeout => "ConnectionTimeout"
  | databaseError => "DatabaseError"
  | queryTimeout => "QueryTimeout"
  | serializationError => "SerializationError"
  | deserializationError => "DeserializationError"
  | invalidConfiguration => "InvalidConfiguration"
  | internal => "Internal"

def all : List ErrorCode :=
  [recordNotFound, operationNotSupported, invalidFilter, invalidInput, wrongObjectType,
    failedToParse, connectionFailed, connectionTimeout, databaseError, queryTimeout,
    serializationError, deserializationError, invalidConfiguration, internal]

def named? (s : String) : Option ErrorCode :=
  all.find? (fun code => code.name == s)

def description : ErrorCode → String
  | recordNotFound => "Not found"
  | operationNotSupported => "Operation not supported"
  | invalidFilter => "Invalid filter value"
  | invalidInput => "Invalid input"
  | wrongObjectType => "Wrong type of object selected"
  | failedToParse => "Failed to parse input"
  | connectionFailed => "Database connection failed"
  | connectionTimeout => "Connection timeout"
  | databaseError => "Database error"
  | queryTimeout => "Query timeout"
  | serializationError => "Serialization error"
  | deserializationError => "Deserialization error"
  | invalidConfiguration => "Invalid configuration"
  | internal => "Internal error"

def httpStatus : ErrorCode → Nat
  | recordNotFound => 404
  | operationNotSupported => 400
  | invalidFilter => 400
  | invalidInput => 400
  | wrongObjectType => 400
  | failedToParse => 400
  | _ => 500

end ErrorCode

/-- A report; `source` is the text of the error that caused it. -/
structure ErrorReport where
  code : ErrorCode
  message : String
  operation : Option String
  model : Option String
  field : Option String
  suggestions : List String
  source : Option String
deriving DecidableEq

namespace ErrorReport

def new (code : ErrorCode) (message : String) : ErrorReport :=
  ⟨code, message, none, none, none, [], none⟩

def withOperation (e : ErrorReport) (operation : String) : ErrorReport :=
  { e with operation := some operation }

def withModel (e : ErrorReport) (model : String) : ErrorReport :=
  { e with model := some model }

def withField (e : ErrorReport) (field : String) : ErrorReport :=
  { e with field := some field }

def withSuggestion (e : ErrorReport) (suggestion : String) : ErrorReport :=
  { e with suggestions := e.suggestions ++ [suggestion] }

def withSource (e : ErrorReport) (source : String) : ErrorReport :=
  { e with source := some source }

def notFound (model : String) : ErrorReport :=
  (new .recordNotFound s!"No {model} found for the given identifier").withModel model

def operationNotSupported (operation : String) : ErrorReport :=
  (new .operationNotSupported s!"Operation not supported: {operation}").withSuggestion
    "Use one of CONTAINS, MATCHES, EQ, GT, GTE, LT, LTE, IS, RADIUS, AREA or AND, OR"

def invalidFilter (key message : String) : ErrorReport :=
  (new .invalidFilter s!"Invalid filter on '{key}': {message}").withField key

def invalidInput (field message : String) : ErrorReport :=
  (new .invalidInput s!"Invalid input for {field}: {message}").withField field

def wrongObjectType (message : String) : ErrorReport :=
  new .wrongObjectType message

def failedToParse (message : String) : ErrorReport :=
  new .failedToParse s!"Failed to parse: {message}"

def connection (message : String) : ErrorReport :=
  ((new .connectionFailed s!"Connection error: {message}").withSuggestion
    "Check that the database server is running").withSuggestion
    "Verify the connection URL is correct"

def timeout (milliseconds : Nat) : ErrorReport :=
  new .queryTimeout s!"Operation timed out after {milliseconds}ms"

def database (message : String) : ErrorReport :=
  new .databaseError message

def serialization (message : String) : ErrorReport :=
  new .serializationError message

def deserialization (message : String) : ErrorReport :=
  (new .deserializationError s!"Failed to decode stored document: {message}").withSuggestion
    "Check that the stored documents match the entity model"

def configuration (message : String) : ErrorReport :=
  new .invalidConfiguration s!"Configuration error: {message}"

def internal (message : String) : ErrorReport :=
  new .internal s!"Internal error: {message}"

def isNotFound (e : ErrorReport) : Bool :=
  e.code == .recordNotFound

def isOperationNotSupported (e : ErrorReport) : Bool :=
  e.code == .operationNotSupported

def isTimeout (e : ErrorReport) : Bool :=
  e.code == .queryTimeout || e.code == .connectionTimeout

def isConnectionError (e : ErrorReport) : Bool :=
  e.code == .connectionFailed || e.code == .connectionTimeout

/-- Whether the caller has to change the request to succeed. -/
def isCallerError (e : ErrorReport) : Bool :=
  400 ≤ e.code.httpStatus && e.code.httpStatus < 500

def text (e : ErrorReport) : String :=
  s!"[{e.code.text}] {e.message}"

def contextLine (label : String) : Option String → String
  | some context => s!"  -> {label}: {context}\n"
  | none => ""

def numbered : Nat → List String → String
  | _, [] => ""
  | n, line :: lines => s!"  {n}. {line}\n" ++ numbered (n + 1) lines

def fullText (e : ErrorReport) : String :=
  s!"Error [{e.code.text}]: {e.message}\n" ++ contextLine "While" e.operation ++
    contextLine "Model" e.model ++ contextLine "Field" e.field ++
    (if e.suggestions.isEmpty then "" else "\nSuggestions:\n" ++ numbered 1 e.suggestions)

end ErrorReport

end DocumentStore
