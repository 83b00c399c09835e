import Mathlib.Data.List.Basic

/-!
# Unique constraints and their names

PostgreSQL keeps 63 bytes of an identifier.  A constraint declared without a name gets one from the
table, the columns and a label, where the longer of the first two parts is shortened until the whole
fits.  `DROP CONSTRAINT IF EXISTS` does nothing when no constraint has the name.
-/

namespace Relational

/-- The bytes of an identifier that count; names are ASCII. -/
def identifier (name : List Char) : List Char := name.take 63

/-- The lengths the two parts of a generated name are cut to. -/
def shrink : Nat → Nat → Nat → Nat → Nat × Nat
  | 0, _, first, second => (first, second)
  | fuel + 1, available, first, second =>
      if first + second ≤ available then (first, second)
      else if second < first then shrink fuel available (first - 1) second
      else shrink fuel available first (second - 1)

/-- `makeObjectName`. -/
def objectName (first second label : List Char) : List Char :=
  let lengths := shrink (first.length + second.length) (63 - (label.length + 2)) first.length
    second.length
  first.take lengths.1 ++ '_' :: (second.take lengths.2 ++ '_' :: label)

structure UniqueConstraint (Column : Type) where
  name : List Char
  columns : List Column

/-- `UNIQUE (…)` in a table definition. -/
def UniqueConstraint.unnamed {Column : Type} (columnName : Column → List Char) (table : List Char)
    (columns : List Column) : UniqueConstraint Column :=
  ⟨objectName table (['_'].intercalate (columns.map columnName)) "key".toList, columns⟩

inductive AlterTable (Column : Type) where
  | dropConstraintIfExists (name : List Char)
  | addUnique (name : List Char) (columns : List Column)

def alterTable {Column : Type} (constraints : List (UniqueConstraint Column)) :
    AlterTable Column → List (UniqueConstraint Column)
  | .dropConstraintIfExists name => constraints.filter (·.name ≠ identifier name)
  | .addUnique name columns => constraints ++ [⟨identifier name, columns⟩]

/-- Some constraint does not let the two rows stand in one table. -/
def collide {Row Column Value : Type} [DecidableEq Value] (value : Row → Column → Value)
    (constraints : List (UniqueConstraint Column)) (row other : Row) : Bool :=
  constraints.any fun constraint => constraint.columns.all fun column =>
    decide (value row column = value other column)

theorem collide_eq_true_iff {Row Column Value : Type} [DecidableEq Value]
    {value : Row → Column → Value} {constraints : List (UniqueConstraint Column)}
    {row other : Row} :
    collide value constraints row other = true ↔
      ∃ columns ∈ constraints.map UniqueConstraint.columns, ∀ column ∈ columns,
        value row column = value other column := by
  simp [collide]

end Relational
