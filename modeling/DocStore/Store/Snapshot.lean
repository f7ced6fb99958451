import DocStore.Files.Tree
import DocStore.Store.Collection
import DocStore.Value.Text

/-!
# Snapshots

A snapshot keeps all collections in memory and writes one file anew after every change: first a
temporary file beside it, then that file takes its name. A change stays in memory when the file
cannot be written.
-/

namespace DocStore

abbrev Collections := Fields Collection

namespace Collections

/-- The documents of a collection; a collection that was never written has none. -/
def docs (collections : Collections) (name : String) : Collection :=
  (Fields.get? name collections).getD []

def toValue (collections : Collections) : Value :=
  .object (collections.map fun member => (member.1, .array (member.2.map .object)))

/-- The collection that a tree stands for: an array of objects. -/
def collectionOfTree? : Json.Tree → Option Collection
  | .array items => (Value.ofItems? items).bind fun values => values.mapM Value.asObject?
  | _ => none

/-- The members of an object of collections, in the order of the text. -/
def ofMembers? : List (Option String × Json.Tree) → Option (List (String × Collection))
  | [] => some []
  | (name, tree) :: rest =>
    match name, collectionOfTree? tree, ofMembers? rest with
    | some name, some docs, some members => some ((name, docs) :: members)
    | _, _, _ => none

/-- The collections that a tree stands for: an object of arrays of objects. -/
def ofTree? : Json.Tree → Option Collections
  | .object members => (ofMembers? members).map Fields.ofMembers
  | _ => none

def ofText? (s : String) : Option Collections := do
  let tree ← Json.Tree.ofText? s
  guard (tree.nesting ≤ Value.nestingLimit)
  ofTree? tree

/-- Applies an operation to the documents of a collection, which is made when it is missing. -/
def modify {α : Type} (collections : Collections) (name : String)
    (change : Collection → α × Collection) : α × Collections :=
  let (answer, docs) := change (collections.docs name)
  (answer, Fields.insert name docs collections)

end Collections

/-- Collections that are kept in one JSON file. -/
structure Snapshot where
  path : String
  pretty : Bool
  collections : Collections

namespace Snapshot

/-- The collections in a file; none when they cannot be read. -/
def stored (files : FileTree) (path : String) : Collections :=
  ((files.readText path).toOption.bind Collections.ofText?).getD []

def restore (files : FileTree) (path : String) (pretty : Bool) : Snapshot :=
  ⟨path, pretty, stored files path⟩

def text (snapshot : Snapshot) : String :=
  snapshot.collections.toValue.text (if snapshot.pretty then .pretty else .compact)

def persist (snapshot : Snapshot) (files : FileTree) : Outcome FileFault FileTree Unit :=
  files.replace snapshot.path (.text snapshot.text)

/-- Puts a change into memory, then writes the file. -/
def commit {α : Type} (snapshot : Snapshot) (files : FileTree) (change : α × Collections) :
    Outcome StoreError (Snapshot × FileTree) α :=
  let next := { snapshot with collections := change.2 }
  ((next.persist files).map fun _ => change.1).mapError .file |>.mapState fun files => (next, files)

/-- The matches of a filter, in order of insertion. -/
def find (snapshot : Snapshot) (name : String) (filter : Filter) : List Document :=
  (snapshot.collections.docs name).filter filter.accepts

def findOne (snapshot : Snapshot) (name : String) (filter : Filter) : Option Document :=
  (snapshot.find name filter).head?

def count (snapshot : Snapshot) (name : String) : Nat :=
  (snapshot.collections.docs name).length

/-- Assigns to the first match of a filter. When there is none, `upsert` makes a document. -/
def updateOne (snapshot : Snapshot) (files : FileTree) (name : String) (filter : Filter)
    (update : Update) (upsert : Bool) : Outcome StoreError (Snapshot × FileTree) UpdateResult :=
  match update.requireAssignments with
  | .error error => .fail error (snapshot, files)
  | .ok () =>
    snapshot.commit files
      (snapshot.collections.modify name (Collection.updateOne name filter update upsert))

/-- Removes all matches of a filter, and counts them. -/
def deleteMany (snapshot : Snapshot) (files : FileTree) (name : String) (filter : Filter) :
    Outcome StoreError (Snapshot × FileTree) Nat :=
  snapshot.commit files (snapshot.collections.modify name (Collection.deleteMany filter))

/-- Updates the first match of a filter or makes a document, and gives it as it then is. -/
def findOneAndUpdate (snapshot : Snapshot) (files : FileTree) (name : String) (filter : Filter)
    (update : Update) : Outcome StoreError (Snapshot × FileTree) Document :=
  snapshot.commit files
    (snapshot.collections.modify name (Collection.findOneAndUpdate name filter update))

def flush (snapshot : Snapshot) (files : FileTree) :
    Outcome StoreError (Snapshot × FileTree) Unit :=
  snapshot.commit files ((), snapshot.collections)

end Snapshot

end DocStore
