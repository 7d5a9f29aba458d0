import EntitySchema.Model.Enumeration
import EntitySchema.Number.Decimal
import EntitySchema.Rust.StructModule

/-!
The module of an enum: its names, the number of each name, and the name of each number.
-/

namespace EntitySchema

namespace Rust

open Number

structure EnumModule where
  name : String
  names : List String
  /-- The number of each name. -/
  values : List (String × Int)
  /-- The name of each number that has one. Any other number is unknown. -/
  ofValues : List (Int × String)
  deriving DecidableEq, Repr, Inhabited

/-- The first value of each number, leaving out the numbers in `seen`. -/
def firstOfEach (seen : List Int) : List EnumValue → List EnumValue
  | [] => []
  | v :: rest =>
    if seen.contains v.value then firstOfEach seen rest
    else v :: firstOfEach (v.value :: seen) rest

/-- A number has the first name declared for it; the unknown name stands for all others. -/
def EnumModule.ofEnum (e : Enumeration) : EnumModule where
  name := e.name
  names := e.values.map EnumValue.name
  values := e.values.map (fun v => (v.name, v.value))
  ofValues := (firstOfEach [] (e.values.filter (fun v => v.name != unknownName))).map
    (fun v => (v.value, v.name))

/-- A name in the list of names. The unknown one is what an enum is by default. -/
def renderName (name : String) : String :=
  (if name == unknownName then "    #[default]\n" else "") ++ "    " ++ name ++ ",\n"

def renderArm (pattern value : String) : String :=
  "            " ++ pattern ++ " => " ++ value ++ ",\n"

def EnumModule.render (e : EnumModule) : String :=
  String.join [
    header,
    "\n#[allow(non_camel_case_types)]\n",
    "#[derive(Debug, Clone, Copy, Default, PartialEq, Eq, Hash, ",
    "serde::Serialize, serde::Deserialize)]\n",
    "pub enum " ++ e.name ++ " \x7b\n",
    String.join (e.names.map renderName),
    "\x7d\n\n",
    "impl " ++ e.name ++ " \x7b\n",
    "    pub fn value(self) -> i64 \x7b\n        match self \x7b\n",
    String.join (e.values.map (fun (name, n) => renderArm ("Self::" ++ name) (signedDecimal n))),
    "        \x7d\n    \x7d\n\n",
    "    pub fn from_value(value: i64) -> Self \x7b\n        match value \x7b\n",
    String.join (e.ofValues.map (fun (n, name) => renderArm (signedDecimal n) ("Self::" ++ name))),
    "            _ => Self::Unknown,\n        \x7d\n    \x7d\n\x7d\n"]

end Rust

end EntitySchema
