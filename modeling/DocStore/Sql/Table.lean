import DocStore.Schema
import DocStore.Sql.Prefilter

/-!
# Tables

A table is a list of rows in the order of their row numbers. The first column is the primary key:
no two rows hold the same text there, while NULL cells never collide. Names of tables and columns
are compared without regard to the case of ASCII letters.
-/

namespace DocStore.Sql

/-- A row: a cell for each column, `none` for NULL. -/
abbrev Row := List (Option String)

/-- A table with its rows. -/
structure Table where
  name : String
  columns : List String
  rows : List Row
  deriving DecidableEq

/-- Equality of names of tables and columns. -/
def sameName (a b : String) : Bool :=
  a.toLower == b.toLower

def Row.primary (row : Row) : Option String :=
  row.head?.join

/-- Two rows that may not stand in one table. -/
def Row.collides (a b : Row) : Bool :=
  a.primary.isSome && a.primary == b.primary

namespace Table

def ofSchema (schema : Schema) : Table :=
  ⟨schema.table, schema.columnList, []⟩

/-- The name of a column as the table spells it. -/
def columnName? (table : Table) (column : String) : Option String :=
  table.columns.find? (sameName · column)

def hasColumn (table : Table) (column : String) : Bool :=
  (table.columnName? column).isSome

def hasColumns (table : Table) (columns : List String) : Bool :=
  columns.all table.hasColumn

def cell (table : Table) (row : Row) (column : String) : Option String :=
  ((table.columns.zip row).find? fun entry => sameName entry.1 column).bind (·.2)

def withCells (table : Table) (cells : List (String × Option String)) (row : Row) : Row :=
  (table.columns.zip row).map fun (column, old) =>
    match cells.find? fun entry => sameName entry.1 column with
    | some (_, new) => new
    | none => old

/-- The row with the given cells and NULL in all others. -/
def newRow (table : Table) (cells : List (String × Option String)) : Row :=
  table.withCells cells (table.columns.map fun _ => none)

/-- The rows that pass a prefilter, in row order. -/
def passing (table : Table) (prefilter : Prefilter) : List Row :=
  table.rows.filter fun row => prefilter.accepts (table.cell row)

/-- Whether a clause compares the primary key with a list. -/
def ranksByPrimary (table : Table) (prefilter : Prefilter) : Bool :=
  prefilter.clauses.any fun clause =>
    match clause, table.columns with
    | .isIn column _, primary :: _ => sameName column primary
    | _, _ => false

/-- The rows that a query visits, in its order: row order, but the order of the primary key when
that is compared with a list. -/
def visit (table : Table) (prefilter : Prefilter) : List Row :=
  let rows := table.passing prefilter
  if table.ranksByPrimary prefilter then
    rows.mergeSort fun a b => decide (a.primary.getD "" ≤ b.primary.getD "")
  else rows

/-- Adds a row behind the others, in place of the one that it collides with. -/
def insertOrReplace (table : Table) (cells : List (String × Option String)) : Table :=
  let row := table.newRow cells
  { table with rows := (table.rows.filter fun other => !row.collides other) ++ [row] }

/-- Changes the selected rows one after the other. A changed row keeps its place; any other row that
it collides with then disappears, among those passed and among those to come. `changed` holds the
rows changed so far. -/
def replaceRows (selects : Row → Bool) (change : Row → Row) (passed changed : List Row) :
    List Row → List Row
  | [] => passed
  | row :: rest =>
    if changed.any fun earlier => earlier.collides row then
      replaceRows selects change passed changed rest
    else if selects row then
      let new := change row
      replaceRows selects change ((passed.filter fun other => !new.collides other) ++ [new])
        (new :: changed) rest
    else replaceRows selects change (passed ++ [row]) changed rest

/-- Changes the cells of the rows whose cell in `column` is `text`. -/
def updateOrReplace (table : Table) (column text : String)
    (cells : List (String × Option String)) : Table :=
  { table with
    rows := replaceRows (fun row => table.cell row column == some text)
      (table.withCells cells) [] [] table.rows }

/-- Removes the rows that satisfy `drops`, and counts them. -/
def deleteWhere (table : Table) (drops : Row → Bool) : Table × Nat :=
  let kept := table.rows.filter fun row => !drops row
  ({ table with rows := kept }, table.rows.length - kept.length)

end Table

end DocStore.Sql
