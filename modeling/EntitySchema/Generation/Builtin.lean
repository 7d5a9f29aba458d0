import EntitySchema.JsonSchema.Generator
import EntitySchema.Rust.Generator
import EntitySchema.Sql.Generator

/-!
The generators that come with the program.
-/

namespace EntitySchema

inductive Builtin where
  | sql (options : Sql.Options)
  | jsonSchema
  | rust
  deriving DecidableEq, Repr, Inhabited

namespace Builtin

/-- All generators with their default options, in the order of registration. -/
def all : List Builtin := [sql {}, jsonSchema, rust]

def name : Builtin → String
  | sql _ => Sql.generatorName
  | jsonSchema => JsonSchema.generatorName
  | rust => Rust.generatorName

def names : List String := all.map name

def ofName? (name : String) : Option Builtin :=
  all.find? (fun b => b.name == name)

/-- Reads the arguments of a generator. Only that of SQL has any. -/
def configure (b : Builtin) (arguments : String → Option String) : Except GeneratorError Builtin :=
  match b with
  | sql options => (options.configure arguments).map sql
  | b => .ok b

def generator : Builtin → Generator
  | sql options => Sql.generator options
  | jsonSchema => JsonSchema.generator
  | rust => Rust.generator

end Builtin

end EntitySchema
