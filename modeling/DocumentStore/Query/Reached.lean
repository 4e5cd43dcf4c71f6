import DocumentStore.FieldPath
import DocumentStore.Value.Basic

/-! The values a field path reaches in a document. A segment is a key of a document or an index of
an array, and in front of an array it is tried on each document of the array as well. -/

namespace DocumentStore

namespace Value

/-- The values one segment below a value. -/
def steps (segment : String) : Value → List Value
  | document fields => (Document.get fields segment).toList
  | array items =>
    ((FieldPath.index? segment).bind (fun i => items[i]?)).toList ++
      items.flatMap (fun item => (item.asDocument?.bind (Document.get · segment)).toList)
  | _ => []

/-- An array at the end of a path stands for itself and for its elements. -/
def ends : Value → List Value
  | array items => array items :: items
  | v => [v]

def reached : List String → Value → List Value
  | [], v => v.ends
  | segment :: rest, v => (v.steps segment).flatMap (reached rest)

end Value

/-- An empty path reaches nothing. -/
def Document.reached (d : Document) (path : FieldPath) : List Value :=
  match path.segments with
  | [] => []
  | segments => Value.reached segments (.document d)

end DocumentStore
