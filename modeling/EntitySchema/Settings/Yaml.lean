import EntitySchema.Settings.Value
import EntitySchema.Yaml.Node

/-!
Settings written in YAML.
-/

namespace EntitySchema

open Number

namespace SettingValue

/-- The key of a field: a text, or the digits of a number. -/
def yamlKey : Yaml.Node → Except SourceError String
  | .text s => .ok s
  | .integer n => .ok (signedDecimal n)
  | _ => .error .badKey

mutual

def ofYaml : Yaml.Node → Except SourceError SettingValue
  | .null => .ok unset
  | .invalid => .ok unset
  | .bool b => .ok (bool b)
  | .integer n => .ok (integer n)
  | .real s =>
    match Double.read? s with
    | some x => .ok (double x)
    | none => .error .unreadable
  | .text s => .ok (text s)
  | .sequence items => (ofYamlItems items).map list
  | .mapping fields => (ofYamlFields fields).map (fun fields => table (lastOfEach fields))

def ofYamlItems : List Yaml.Node → Except SourceError (List SettingValue)
  | [] => .ok []
  | item :: rest => do
    let first ← ofYaml item
    let others ← ofYamlItems rest
    .ok (first :: others)

def ofYamlFields : List (Yaml.Node × Yaml.Node) → Except SourceError Fields
  | [] => .ok []
  | (key, value) :: rest => do
    let key ← yamlKey key
    let first ← ofYaml value
    let others ← ofYamlFields rest
    .ok ((key, first) :: others)

end

/-- Reads a text of at most one document. Without a document it is an empty table. -/
def readYaml (text : String) : Except SourceError SettingValue :=
  match Yaml.Node.read? text with
  | some [] => .ok (table [])
  | some [node] => ofYaml node
  | _ => .error .unreadable

end SettingValue

end EntitySchema
