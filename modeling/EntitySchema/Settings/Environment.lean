import EntitySchema.Settings.Value

/-!
Settings in environment variables. `SCHEMAGEN_SQL__DIALECT` is the key `sql.dialect`, whatever the
case of its letters.
-/

namespace EntitySchema

open Text Number

/-- Variables by name. -/
abbrev Environment := List (String × String)

namespace Environment

/-- What the name of a variable starts with. -/
def namePrefix : List Char := "schemagen_".toList

/-- Writes every pair of underscores as a dot. -/
def dots : List Char → List Char
  | '_' :: '_' :: rest => '.' :: dots rest
  | c :: rest => c :: dots rest
  | [] => []

/-- The key that a variable sets, if it is one of settings. -/
def key? (name : String) : Option String :=
  let cs := (lowercase name).toList
  if cs.take namePrefix.length = namePrefix then
    some (String.ofList (dots (cs.drop namePrefix.length)))
  else none

/-- The keys whose values are lists, written with commas. -/
def listKeys : List String := ["generators", "plugins"]

/-- The value of a variable: a switch, a number, a list for the keys that take one, or text. -/
def value (key text : String) : SettingValue :=
  let word := lowercase text
  if word == "true" then .bool true
  else if word == "false" then .bool false
  else
    match readSigned text, Double.read? text with
    | some n, _ => .integer n
    | none, some x => .double x
    | none, none =>
      if listKeys.contains key then
        .list ((text.toList.splitOn ',').map (fun item => .text (String.ofList item)))
      else .text text

/-- The settings in an environment. -/
def settings (env : Environment) : SettingValue.Fields :=
  env.filterMap (fun (name, text) => (key? name).map (fun key => (key, value key text)))

end Environment

end EntitySchema
