import DocStore.Store.Batch
import DocStore.Value.Text

/-!
# Documents in rows

A row holds the key of a document, its denormalized strings and its text. A query visits the rows
that pass the prefilter of its filter, and reads each one up to the last that it needs; where the
prefilter is exact the documents are not matched again. A table that lacks a column refuses what
needs it.
-/

namespace DocStore.Sql.Table

/-- The key and the document of a row. The key is looked at first. -/
def decode (schema : Schema) (table : Table) (row : Row) : Except StoreError (String × Document) :=
  let spelling (column : String) := (table.columnName? column).getD column
  match table.cell row schema.key.column, table.cell row Schema.dataColumn with
  | none, _ => .error (.nullCell 0 (spelling schema.key.column))
  | some _, none => .error (.nullCell 1 (spelling Schema.dataColumn))
  | some key, some text =>
    match Document.ofText? text with
    | some doc => .ok (key, doc)
    | none => .error .undecodable

def cellsOf (schema : Schema) (key : String) (doc : Document) : List (String × Option String) :=
  (schema.key.column, some key) ::
    schema.columns.map (fun mapping =>
      (mapping.column, (doc.get? mapping.path).bind Value.asString?)) ++
    [(Schema.dataColumn, some (doc.text .compact))]

/-- The documents of rows that satisfy `keeps`, with their keys. -/
def readAll (schema : Schema) (table : Table) (keeps : Document → Bool) :
    List Row → Except StoreError (List (String × Document))
  | [] => .ok []
  | row :: rest =>
    match table.decode schema row with
    | .error error => .error error
    | .ok (key, doc) =>
      if keeps doc then (readAll schema table keeps rest).map ((key, doc) :: ·)
      else readAll schema table keeps rest

/-- The first document of rows that satisfies `keeps`, with its key. The rows behind it are not
read. -/
def readFirst (schema : Schema) (table : Table) (keeps : Document → Bool) :
    List Row → Except StoreError (Option (String × Document))
  | [] => .ok none
  | row :: rest =>
    match table.decode schema row with
    | .error error => .error error
    | .ok (key, doc) =>
      if keeps doc then .ok (some (key, doc)) else readFirst schema table keeps rest

/-- What a query still has to ask of the documents of the rows that it visits. -/
def residual (prefilter : Prefilter) (filter : Filter) (doc : Document) : Bool :=
  prefilter.exact || filter.accepts doc

/-- The rows that a prefilter lets a query visit. -/
def query (schema : Schema) (table : Table) (prefilter : Prefilter) :
    Except StoreError (List Row) :=
  match (Statement.select schema prefilter).fault? table with
  | some fault => .error (.selectRefused fault)
  | none => .ok (table.visit prefilter)

def select (schema : Schema) (table : Table) (filter : Filter) :
    Except StoreError (List (String × Document)) := do
  let prefilter := Prefilter.ofFilter schema filter
  let rows ← table.query schema prefilter
  table.readAll schema (residual prefilter filter) rows

def selectFirst (schema : Schema) (table : Table) (filter : Filter) :
    Except StoreError (Option (String × Document)) := do
  let prefilter := Prefilter.ofFilter schema filter
  let rows ← table.query schema prefilter
  table.readFirst schema (residual prefilter filter) rows

/-- Writes a document: into the rows keyed `previous`, else into a new row. -/
def store (schema : Schema) (table : Table) (previous : Option String) (doc : Document) :
    Except StoreError Table :=
  match schema.keyOf? doc with
  | none => .error (.missingPrimaryKey schema.name schema.key.path)
  | some key =>
    let cells := cellsOf schema key doc
    match schema.columnList.find? (!table.hasColumn ·), previous with
    | some column, some _ => .error (.updateRefused schema.table column)
    | some column, none => .error (.insertRefused schema.table column)
    | none, some old => .ok (table.updateOrReplace schema.key.column old cells)
    | none, none => .ok (table.insertOrReplace cells)

/-- Removes the rows of a key, and counts them. -/
def deleteKey (schema : Schema) (table : Table) (key : String) : Table × Nat :=
  table.deleteWhere fun row => table.cell row schema.key.column == some key

/-- Removes the rows of keys one after the other, and counts them. -/
def deleteKeys (schema : Schema) : List String → Table → Table × Nat
  | [], table => (table, 0)
  | key :: rest, table =>
    let (table, count) := table.deleteKey schema key
    let (table, more) := deleteKeys schema rest table
    (table, count + more)

/-- Removes the matches of a filter, and counts them. An exact prefilter decides by itself, and then
no row is read. -/
def deleteMatches (schema : Schema) (table : Table) (filter : Filter) :
    Except StoreError (Nat × Table) :=
  let prefilter := Prefilter.ofFilter schema filter
  if prefilter.exact then
    match (Statement.delete schema prefilter).fault? table with
    | some fault => .error (.deleteRefused fault)
    | none =>
      let (table, count) := table.deleteWhere fun row => prefilter.accepts (table.cell row)
      .ok (count, table)
  else
    (table.select schema filter).map fun found =>
      let (table, count) := deleteKeys schema (found.map (·.1)) table
      (count, table)

end DocStore.Sql.Table
