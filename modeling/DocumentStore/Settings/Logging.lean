import DocumentStore.Settings.Environment

/-! Logging settings. Logging is off unless it is asked for, and unknown words fall back to the
defaults. -/

namespace DocumentStore

inductive LogLevel where
  | trace
  | debug
  | info
  | warn
  | error
deriving DecidableEq

inductive LogFormat where
  | json
  | pretty
  | compact
deriving DecidableEq

namespace LogLevel

def name : LogLevel → String
  | trace => "trace"
  | debug => "debug"
  | info => "info"
  | warn => "warn"
  | error => "error"

def named? (word : String) : Option LogLevel :=
  [trace, debug, info, warn, error].find? (fun level => level.name == word)

end LogLevel

namespace LogFormat

def name : LogFormat → String
  | json => "Json"
  | pretty => "Pretty"
  | compact => "Compact"

def ofWord (word : String) : LogFormat :=
  if word == "pretty" then pretty else if word == "compact" then compact else json

end LogFormat

structure LogSettings where
  enabled : Bool
  level : LogLevel
  format : LogFormat
deriving DecidableEq

namespace LogSettings

def debugVariable : String := "TRAILSTORE_DEBUG"
def levelVariable : String := "TRAILSTORE_LOG_LEVEL"
def formatVariable : String := "TRAILSTORE_LOG_FORMAT"

def isDebugEnabled (env : Environment) : Bool :=
  env.flag debugVariable

def defaultLevel (env : Environment) : LogLevel :=
  if isDebugEnabled env then .debug else .warn

def ofEnvironment (env : Environment) : LogSettings where
  enabled := isDebugEnabled env || env.contains levelVariable
  level := ((env.get levelVariable).bind (fun v => LogLevel.named? (Environment.word v))).getD
    (defaultLevel env)
  format := (env.get formatVariable).elim .json (fun v => LogFormat.ofWord (Environment.word v))

/-- The level of each part of the library, in the form log filters take. -/
def directive (s : LogSettings) : String :=
  ",".intercalate (["trailstore", "trailstore_query", "trailstore_mongodb"].map
    (fun target => target ++ "=" ++ s.level.name))

end LogSettings

end DocumentStore
