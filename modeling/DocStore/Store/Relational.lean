import DocStore.Files.Tree
import DocStore.Store.Collection
import DocStore.Store.Rows

/-!
# Databases

A database keeps the tables of all schemas in memory. Its file is read when it is opened and written
by `Relational.flush` only. Collections without a schema read as empty and cannot be written.
-/

namespace DocStore

namespace Sql.Image

def tableOf (image : Image) (schema : Schema) : Table :=
  (image.table? schema.table).getD (.ofSchema schema)

/-- The schema of a collection that is to be written. -/
def writable (name : String) : Except StoreError Schema :=
  match Schema.for? name with
  | some schema => .ok schema
  | none => .error (.unknownCollection name)

/-- Stores a document in the table of a schema. -/
def store (image : Image) (schema : Schema) (previous : Option String) (doc : Document) :
    Except StoreError Image :=
  ((image.tableOf schema).store schema previous doc).map image.setTable

/-- Assigns to the first match of a filter. When there is none, `upsert` makes a document. -/
def updateOne (image : Image) (name : String) (filter : Filter) (update : Update)
    (upsert : Bool) : Except StoreError (UpdateResult × Image) := do
  update.requireAssignments
  let schema ← writable name
  match ← (image.tableOf schema).selectFirst schema filter with
  | some (key, doc) => return (.matched, ← image.store schema (some key) (update.apply doc))
  | none =>
    if upsert then return (.created, ← image.store schema none (update.create filter))
    else return (.unmatched, image)

/-- Removes all matches of a filter, and counts them. -/
def deleteMany (image : Image) (name : String) (filter : Filter) :
    Except StoreError (Nat × Image) := do
  let schema ← writable name
  let (count, table) ← (image.tableOf schema).deleteMatches schema filter
  return (count, image.setTable table)

/-- Updates the first match of a filter or makes a document, and gives it as it then is. -/
def findOneAndUpdate (image : Image) (name : String) (filter : Filter) (update : Update) :
    Except StoreError (Document × Image) := do
  let schema ← writable name
  match ← (image.tableOf schema).selectFirst schema filter with
  | some (key, doc) => return (update.apply doc, ← image.store schema (some key) (update.apply doc))
  | none => return (update.create filter, ← image.store schema none (update.create filter))

end Sql.Image

/-- A database in memory, and the place of its file. -/
structure Relational where
  path : String
  image : Sql.Image

namespace Relational

/-- The database that starts from a file, if one is there and can be used. Reading it may clear away
what stands at the places of its journal and its log. -/
def restore (files : FileTree) (path : String) : Relational × FileTree :=
  if files.isFile path then
    let found := files.loadDatabase path
    (⟨path, .restore found.answer.toOption⟩, found.state)
  else (⟨path, .restore none⟩, files)

/-- The outcome of an operation on the image. -/
def commit {α : Type} (db : Relational) (change : Except StoreError (α × Sql.Image)) :
    Outcome StoreError Relational α :=
  .ofExcept db (change.map fun (answer, image) => (answer, { db with image }))

/-- The matches of a filter in the order in which the rows are visited. -/
def find (db : Relational) (name : String) (filter : Filter) :
    Except StoreError (List Document) :=
  match Schema.for? name with
  | none => .ok []
  | some schema =>
    ((db.image.tableOf schema).select schema filter).map fun found => found.map (·.2)

def findOne (db : Relational) (name : String) (filter : Filter) :
    Except StoreError (Option Document) :=
  match Schema.for? name with
  | none => .ok none
  | some schema =>
    ((db.image.tableOf schema).selectFirst schema filter).map fun found => found.map (·.2)

def count (db : Relational) (name : String) : Nat :=
  match Schema.for? name with
  | none => 0
  | some schema => (db.image.tableOf schema).rows.length

def updateOne (db : Relational) (name : String) (filter : Filter) (update : Update)
    (upsert : Bool) : Outcome StoreError Relational UpdateResult :=
  db.commit (db.image.updateOne name filter update upsert)

def deleteMany (db : Relational) (name : String) (filter : Filter) :
    Outcome StoreError Relational Nat :=
  db.commit (db.image.deleteMany name filter)

def findOneAndUpdate (db : Relational) (name : String) (filter : Filter) (update : Update) :
    Outcome StoreError Relational Document :=
  db.commit (db.image.findOneAndUpdate name filter update)

/-- Writes the image to the file. A temporary file that is in the way is removed first. -/
def flush (db : Relational) (files : FileTree) : Outcome StoreError FileTree Unit :=
  let temporary := FilePath.sibling db.path
  ((files.createParents db.path).mapError .file).andThen fun _ files =>
    ((files.clear temporary).mapError .file).andThen fun _ files =>
      ((files.saveDatabase temporary db.image).mapError .exportFailed).andThen fun _ files =>
        (files.adopt db.path).mapError .file

end Relational

end DocStore
