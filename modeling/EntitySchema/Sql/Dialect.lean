import EntitySchema.Model.TypeExpr
import EntitySchema.Number.Decimal
import EntitySchema.Text.Doubled
import EntitySchema.Text.LetterCase

/-!
The dialects of SQL: how each quotes names, numbers the values of a statement and spells the types
of columns.
-/

namespace EntitySchema

namespace Sql

open Text Number

inductive Dialect where
  | sqlite
  | postgres
  | mysql
  deriving DecidableEq, Repr, Inhabited

/-- The type of a column. A list is stored encoded, and a link is the key of a row elsewhere. -/
inductive ColumnType where
  | scalar (s : Scalar)
  | list
  | link
  deriving DecidableEq, Repr, Inhabited

namespace Dialect

/-- The dialect of a name, in any case of letters. -/
def ofName? (name : String) : Option Dialect :=
  match lowercase name with
  | "sqlite" | "sqlite3" => some sqlite
  | "postgres" | "postgresql" | "pg" => some postgres
  | "mysql" | "mariadb" => some mysql
  | _ => none

def name : Dialect → String
  | sqlite => "sqlite"
  | postgres => "postgres"
  | mysql => "mysql"

/-- The character that stands around names. -/
def quoteMark : Dialect → Char
  | mysql => '\x60'
  | _ => '"'

def quote (d : Dialect) (name : String) : String :=
  Doubled.quote d.quoteMark name

/-- The place of the `n`th value of a statement, counted from one. -/
def placeholder : Dialect → Nat → String
  | postgres, n => "$" ++ decimal n
  | _, _ => "?"

/-- What follows the name of a table's own key. -/
def keyColumn : Dialect → String
  | sqlite => "INTEGER PRIMARY KEY AUTOINCREMENT"
  | postgres => "BIGINT GENERATED BY DEFAULT AS IDENTITY PRIMARY KEY"
  | mysql => "BIGINT NOT NULL AUTO_INCREMENT PRIMARY KEY"

/-- The clause for a column other than the key that counts up by itself. SQLite counts up the key
only, and MySQL only a column that is a key. -/
def autoIncrement? : Dialect → Option String
  | postgres => some "GENERATED BY DEFAULT AS IDENTITY"
  | sqlite | mysql => none

/-- The type of a scalar column. SQLite has one kind of integer; Postgres has none of a single byte
and none without sign, so the next wider one is taken. -/
def scalarType : Dialect → Scalar → String
  | sqlite, .float | sqlite, .double => "REAL"
  | sqlite, .string | sqlite, .char => "TEXT"
  | sqlite, _ => "INTEGER"
  | postgres, .int8 | postgres, .int16 | postgres, .uint8 => "SMALLINT"
  | postgres, .int32 | postgres, .uint16 => "INTEGER"
  | postgres, .int64 | postgres, .uint32 => "BIGINT"
  | postgres, .uint64 => "NUMERIC(20)"
  | postgres, .float => "REAL"
  | postgres, .double => "DOUBLE PRECISION"
  | postgres, .bool => "BOOLEAN"
  | postgres, .string => "TEXT"
  | postgres, .char => "CHAR(1)"
  | mysql, .int8 => "TINYINT"
  | mysql, .int16 => "SMALLINT"
  | mysql, .int32 => "INT"
  | mysql, .int64 => "BIGINT"
  | mysql, .uint8 => "TINYINT UNSIGNED"
  | mysql, .uint16 => "SMALLINT UNSIGNED"
  | mysql, .uint32 => "INT UNSIGNED"
  | mysql, .uint64 => "BIGINT UNSIGNED"
  | mysql, .float => "FLOAT"
  | mysql, .double => "DOUBLE"
  | mysql, .bool => "TINYINT(1)"
  | mysql, .string => "TEXT"
  | mysql, .char => "CHAR(1)"

def columnType (d : Dialect) : ColumnType → String
  | .scalar s => d.scalarType s
  | .list =>
    match d with
    | sqlite => "TEXT"
    | postgres => "JSONB"
    | mysql => "JSON"
  | .link => d.scalarType .int64

end Dialect

end Sql

end EntitySchema
