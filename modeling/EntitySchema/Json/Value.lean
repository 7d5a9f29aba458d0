import EntitySchema.Number.Binary64

/-!
JSON values. The fields of an object stand in a list in the order in which they are written, and no
key is there twice.
-/

namespace EntitySchema

open Number

inductive JsonValue where
  | null
  | bool (b : Bool)
  | integer (n : Int)
  | double (x : Binary64)
  | string (s : String)
  | array (items : List JsonValue)
  | object (fields : List (String × JsonValue))
  deriving Repr, Inhabited

namespace JsonValue

/-- Puts a field into a list with ascending keys; a field of the same key is replaced. -/
def insertField (key : String) (value : JsonValue) :
    List (String × JsonValue) → List (String × JsonValue)
  | [] => [(key, value)]
  | (k, v) :: rest =>
    if key = k then (key, value) :: rest
    else if key < k then (key, value) :: (k, v) :: rest
    else (k, v) :: insertField key value rest

/-- The fields in ascending order of their keys. Of two with one key the last counts. -/
def sortFields (fields : List (String × JsonValue)) : List (String × JsonValue) :=
  fields.foldl (fun sorted (key, value) => insertField key value sorted) []

end JsonValue

end EntitySchema
