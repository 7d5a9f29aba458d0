import EntitySchema.Token

/-!
Enums: names with whole numbers. Several names may share a number, but no two values share a name.
-/

namespace EntitySchema

/-- The name of the value that every enum ends with, for numbers that stand for nothing else. -/
def unknownName : String := "Unknown"

structure EnumValue where
  name : String
  value : Int
  deriving DecidableEq, Repr, Inhabited

structure Enumeration where
  name : String
  values : List EnumValue := []
  position : Option Position := none
  deriving DecidableEq, Repr, Inhabited

namespace Enumeration

/-- The number of a name. -/
def value? (e : Enumeration) (name : String) : Option Int :=
  (e.values.find? (fun v => v.name == name)).map EnumValue.value

/-- Appends a value, unless the name is taken. -/
def addValue? (e : Enumeration) (name : String) (value : Int) : Option Enumeration :=
  if e.values.any (fun v => v.name == name) then none
  else some { e with values := e.values ++ [⟨name, value⟩] }

def addValue (e : Enumeration) (name : String) (value : Int) : Enumeration :=
  (e.addValue? name value).getD e

/-- Closes the enum: `Unknown`, which stands for -1, is appended. -/
def close (e : Enumeration) : Enumeration :=
  e.addValue unknownName (-1)

/-- The values that the schema declares. -/
def declaredValues (e : Enumeration) : List EnumValue :=
  e.values.filter (fun v => v.name != unknownName)

end Enumeration

end EntitySchema
