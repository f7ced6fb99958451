import DocStore.Config.Basic
import DocStore.Store.Relational
import DocStore.Store.Snapshot

/-!
# Backends

What keeps the documents of a store: a snapshot or a database. Both take the same requests; a
snapshot writes its file at every change, a database only when it is flushed.
-/

namespace DocStore

/-- What keeps the documents. -/
inductive Backend where
  | snapshot (kept : Snapshot)
  | relational (kept : Relational)

namespace Backend

/-- The state of a backend and the files around it. -/
abbrev Held := Backend × FileTree

/-- The backend that a configuration asks for, as its file holds it. -/
def restore (config : Config) (files : FileTree) : Held :=
  match config.backend with
  | .snapshot => (.snapshot (.restore files config.snapshotPath config.prettySnapshot), files)
  | .sqlite =>
    let (kept, files) := Relational.restore files config.sqlitePath
    (.relational kept, files)

def ofSnapshot {α : Type} (outcome : Outcome StoreError (Snapshot × FileTree) α) :
    Outcome StoreError Held α :=
  outcome.mapState fun (kept, files) => (.snapshot kept, files)

/-- The outcome of an operation on a database, which leaves the files alone. -/
def ofRelational {α : Type} (files : FileTree) (outcome : Outcome StoreError Relational α) :
    Outcome StoreError Held α :=
  outcome.mapState fun kept => (.relational kept, files)

def find (backend : Backend) (name : String) (filter : Filter) :
    Except StoreError (List Document) :=
  match backend with
  | .snapshot kept => .ok (kept.find name filter)
  | .relational kept => kept.find name filter

def findOne (backend : Backend) (name : String) (filter : Filter) :
    Except StoreError (Option Document) :=
  match backend with
  | .snapshot kept => .ok (kept.findOne name filter)
  | .relational kept => kept.findOne name filter

def count (backend : Backend) (name : String) : Nat :=
  match backend with
  | .snapshot kept => kept.count name
  | .relational kept => kept.count name

/-- Assigns to the first match of a filter. When there is none, `upsert` makes a document. -/
def updateOne (name : String) (filter : Filter) (update : Update) (upsert : Bool) :
    Held → Outcome StoreError Held UpdateResult
  | (.snapshot kept, files) => ofSnapshot (kept.updateOne files name filter update upsert)
  | (.relational kept, files) => ofRelational files (kept.updateOne name filter update upsert)

/-- Carries out the entries of a batch in order, up to the first that fails. -/
def bulkWrite (name : String) (models : List WriteModel) (held : Held) :
    Outcome StoreError Held BatchResult :=
  Outcome.batch (fun model => updateOne name model.filter model.update model.upsert) models held

/-- Removes all matches of a filter, and counts them. -/
def deleteMany (name : String) (filter : Filter) : Held → Outcome StoreError Held Nat
  | (.snapshot kept, files) => ofSnapshot (kept.deleteMany files name filter)
  | (.relational kept, files) => ofRelational files (kept.deleteMany name filter)

/-- Updates the first match of a filter or makes a document, and gives it as it then is. -/
def findOneAndUpdate (name : String) (filter : Filter) (update : Update) :
    Held → Outcome StoreError Held Document
  | (.snapshot kept, files) => ofSnapshot (kept.findOneAndUpdate files name filter update)
  | (.relational kept, files) => ofRelational files (kept.findOneAndUpdate name filter update)

def flush : Held → Outcome StoreError Held Unit
  | (.snapshot kept, files) => ofSnapshot (kept.flush files)
  | (.relational kept, files) => (kept.flush files).mapState fun files => (.relational kept, files)

end Backend

end DocStore
