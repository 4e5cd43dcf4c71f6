/-! Members of a record: names with values in the order written. All members that a record knows are
checked in that order before any is used, so that the first one of a wrong type decides the report
and missing ones come last. -/

namespace DocumentStore.Members

variable {ν ε α : Type}

def readable (read : ν → Except ε α) (v : ν) : Except ε Unit :=
  (read v).map (fun _ => ())

/-- The first fault among the members, in the order written. -/
def check (checkMember : String → ν → Except ε Unit) : List (String × ν) → Except ε Unit
  | [] => .ok ()
  | (key, value) :: rest =>
    match checkMember key value with
    | .ok () => check checkMember rest
    | .error e => .error e

def required (read : ν → Except ε α) (missing : String → ε) (members : List (String × ν))
    (key : String) : Except ε α :=
  match members.lookup key with
  | some v => read v
  | none => .error (missing key)

def optional (read : ν → Except ε α) (default : α) (members : List (String × ν)) (key : String) :
    Except ε α :=
  match members.lookup key with
  | some v => read v
  | none => .ok default

end DocumentStore.Members
