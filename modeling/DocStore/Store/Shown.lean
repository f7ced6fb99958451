import DocStore.Store.Basic

/-!
# Shown forms

How a store and its collections are shown to a developer: a record has its name, then its fields in
braces, and texts stand in quotation marks.
-/

namespace DocStore

/-- A record with its fields in braces. -/
def recordText (name : String) (fields : List (String × String)) : String :=
  name ++ " \x7b " ++ ", ".intercalate (fields.map fun (field, text) => field ++ ": " ++ text) ++
    " \x7d"

/-- A boolean as a field shows it. -/
def flagText (b : Bool) : String :=
  if b then "true" else "false"

def BackendKind.shown : BackendKind → String
  | .snapshot => "Snapshot"
  | .sqlite => "Sqlite"

/-- A configuration with all its settings, in the order in which they are declared. -/
def Config.shown (config : Config) : String :=
  recordText "StoreConfig"
    [("backend", config.backend.shown),
      ("cache_dir", Text.quoted config.cacheDir),
      ("snapshot_file", Text.quoted config.snapshotFile),
      ("sqlite_file", Text.quoted config.sqliteFile),
      ("pretty_snapshot", flagText config.prettySnapshot)]

/-- A store, with whether its backend was asked for. -/
def Store.shown (store : Store) : String :=
  recordText "DocumentStore"
    [("config", store.config.shown), ("initialized", flagText store.isInitialized)]

/-- A collection of a store. Nothing of its documents shows. -/
def Store.shownCollection (store : Store) (name : String) : String :=
  recordText "Collection" [("name", Text.quoted name), ("backend", store.config.backend.shown)]

end DocStore
