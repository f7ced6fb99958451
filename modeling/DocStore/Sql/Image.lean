import DocStore.Sql.Table

/-!
# Images

An image is all tables of a database, as a file keeps them. Restoring one gives a table for every
schema: an image in which a table of that very name lacks a column is not used at all, a missing
table is made. A table whose name differs in the case of letters is not looked at, and takes the
place of the schema's table as it is.
-/

namespace DocStore.Sql

/-- The tables of a database. -/
structure Image where
  tables : List Table
  deriving DecidableEq

namespace Image

/-- The image without tables. -/
def empty : Image := ⟨[]⟩

def table? (image : Image) (name : String) : Option Table :=
  image.tables.find? fun table => sameName table.name name

/-- Whether each table with the name of a schema's table has the schema's columns. -/
def fits (image : Image) : Bool :=
  Schema.all.all fun schema =>
    image.tables.all fun table => table.name != schema.table || table.hasColumns schema.columnList

/-- The image with the table of a schema, made when it is missing. -/
def withSchema (image : Image) (schema : Schema) : Image :=
  match image.table? schema.table with
  | some _ => image
  | none => ⟨image.tables ++ [Table.ofSchema schema]⟩

/-- The image that a database starts with when it finds `found` in its file. -/
def restore (found : Option Image) : Image :=
  let usable := match found with
    | some image => if image.fits then image else empty
    | none => empty
  Schema.all.foldl withSchema usable

def setTable (image : Image) (table : Table) : Image :=
  ⟨image.tables.map fun old => if sameName old.name table.name then table else old⟩

end Image

end DocStore.Sql
