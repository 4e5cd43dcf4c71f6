import DocumentStore.Text.Blank

/-! Environment variables, from which settings are read. A variable that is set twice has its last
value. -/

namespace DocumentStore

structure Environment where
  settings : List (String × String)

namespace Environment

def get (env : Environment) (name : String) : Option String :=
  env.settings.reverse.lookup name

def contains (env : Environment) (name : String) : Bool :=
  (env.get name).isSome

def getNonBlank (env : Environment) (name : String) : Option String :=
  (env.get name).filter (fun value => Text.trim value ≠ "")

def word (value : String) : String :=
  Text.lower (Text.trim value)

def isYes (value : String) : Bool :=
  ["true", "1", "yes"].contains (word value)

def flag (env : Environment) (name : String) : Bool :=
  (env.get name).any isYes

end Environment

end DocumentStore
