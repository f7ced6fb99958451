import DocStore.Config.Basic
import DocStore.Toml.Table

/-!
# Configuration as TOML

A table with an entry for each setting. What is not said has its default, and other entries are
not looked into.
-/

namespace DocStore.Config

/-- The backend that a value names: its name, or a table with the name and an empty table or
array. -/
def backendOfToml? : Toml.Value → Option BackendKind
  | .string name => BackendKind.ofName? name
  | .table [(name, .table [])] => BackendKind.ofName? name
  | .table [(name, .array [])] => BackendKind.ofName? name
  | _ => none

def textOfToml? : Toml.Value → Option String
  | .string text => some text
  | _ => none

def flagOfToml? : Toml.Value → Option Bool
  | .bool b => some b
  | _ => none

/-- The entry `name` of a table; `other` when it is not there, `none` when it is no setting. -/
def entryOf? {α : Type} (read : Toml.Value → Option α) (name : String) (other : α)
    (table : Toml.Table) : Option α :=
  match Fields.get? name table with
  | none => some other
  | some value => read value

def ofTable? (table : Toml.Table) : Option Config := do
  return {
    backend := ← entryOf? backendOfToml? "backend" default.backend table
    cacheDir := ← entryOf? textOfToml? "cache_dir" default.cacheDir table
    snapshotFile := ← entryOf? textOfToml? "snapshot_file" default.snapshotFile table
    sqliteFile := ← entryOf? textOfToml? "sqlite_file" default.sqliteFile table
    prettySnapshot := ← entryOf? flagOfToml? "pretty_snapshot" default.prettySnapshot table }

def tableOfText (s : String) : Except ConfigFault Toml.Table :=
  match Toml.Table.ofText? s with
  | some table => .ok table
  | none => .error .notToml

/-- The configuration that a table describes, when it does. -/
def ofTable (table : Toml.Table) : Except ConfigFault Config :=
  match ofTable? table with
  | some config => .ok config
  | none => .error .notToml

/-- The configuration that a TOML text describes. -/
def ofToml (s : String) : Except ConfigFault Config := do
  ofTable (← tableOfText s)

def tomlLine (key : String) (value : List Char) : List Char :=
  key.toList ++ [' ', '=', ' '] ++ value ++ ['\n']

def tomlText (s : String) : List Char :=
  Toml.Quoted.write s.toList

def toToml (config : Config) : String :=
  String.ofList
    (tomlLine "backend" (tomlText config.backend.name) ++
      tomlLine "cache_dir" (tomlText config.cacheDir) ++
      tomlLine "snapshot_file" (tomlText config.snapshotFile) ++
      tomlLine "sqlite_file" (tomlText config.sqliteFile) ++
      tomlLine "pretty_snapshot" (if config.prettySnapshot then "true" else "false").toList)

end DocStore.Config
