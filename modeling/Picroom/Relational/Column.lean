import Mathlib.Data.List.Basic

/-!
# Columns

What a relational server checks when a value is stored in a column: the column
type, `NOT NULL` and the `CHECK` expression.  `ColumnType.assign` follows
PostgreSQL's assignment rules for typed statement parameters, where a text
parameter is not converted to `uuid` or `jsonb`.  On SQLite the declared type of
a column never refuses a value, so only the constraints are left to check.
-/

namespace Relational

inductive Value where
  | null
  | uuid (bits : BitVec 128)
  | text (content : String)
  | integer (number : Int)
  | timestamptz (microseconds : Int)
  deriving DecidableEq

/-- The text a `VARCHAR(width)` column stores.  Excess spaces are cut off, any
other excess is an error, and no text contains the zero character. -/
def storeVarchar (width : Nat) (text : String) : Option String :=
  if text.toList.contains '\x00' then none
  else if (text.toList.drop width).all (· == ' ') then
    some (String.ofList (text.toList.take width))
  else none

inductive ColumnType where
  | uuid
  | varchar (width : Nat)
  | text
  | jsonb
  | integer
  | timestamptz
  deriving DecidableEq

/-- The stored value, when the type accepts the parameter. -/
def ColumnType.assign : ColumnType → Value → Option Value
  | _, .null => some .null
  | .uuid, .uuid bits => some (.uuid bits)
  | .varchar width, .text content => (storeVarchar width content).map .text
  | .text, .text content => if content.toList.contains '\x00' then none else some (.text content)
  | .integer, .integer number =>
      if -2147483648 ≤ number ∧ number < 2147483648 then some (.integer number) else none
  | .timestamptz, .timestamptz microseconds => some (.timestamptz microseconds)
  | _, _ => none

inductive Affinity where
  | text
  | integer
  deriving DecidableEq

structure Column (StorageType : Type) where
  type : StorageType
  notNull : Bool := false
  check : Value → Bool := fun _ => true

/-- `NOT NULL` and `CHECK` on a stored value; a `CHECK` on `NULL` is not false. -/
def Column.constrains {StorageType : Type} (column : Column StorageType) (stored : Value) : Bool :=
  match stored with
  | .null => !column.notNull
  | value => column.check value

def Column.accepts (column : Column ColumnType) (value : Value) : Bool :=
  match column.type.assign value with
  | none => false
  | some stored => column.constrains stored

def Column.acceptsDynamic (column : Column Affinity) (value : Value) : Bool :=
  column.constrains value

end Relational
