import DocStore.Config.Basic
import DocStore.Value.Text

/-!
# Configuration as JSON

An object with a member for each setting, or an array of the settings in their order. What is not
said has its default. A setting is said at most once; other members are not looked into.
-/

namespace DocStore.Config

open Json (Tree)

/-- The backend that a tree names: its name, or an object with the name and null. -/
def backendOfTree? : Tree → Option BackendKind
  | .string (some name) => BackendKind.ofName? name
  | .object [(some name, .null)] => BackendKind.ofName? name
  | _ => none

def textOfTree? : Tree → Option String
  | .string text => text
  | _ => none

def flagOfTree? : Tree → Option Bool
  | .bool b => some b
  | _ => none

/-- The setting `name` among members; `other` when it is not there, `none` when it is there more
than once or is no setting. -/
def settingOf? {α : Type} (read : Tree → Option α) (name : String) (other : α)
    (members : List (Option String × Tree)) : Option α :=
  match members.filter fun member => member.1 == some name with
  | [] => some other
  | [(_, tree)] => read tree
  | _ => none

/-- The setting at a place of an array; `other` when the array ends before it. -/
def itemOf? {α : Type} (read : Tree → Option α) (place : Nat) (other : α)
    (items : List Tree) : Option α :=
  match items[place]? with
  | none => some other
  | some tree => read tree

def ofTree? : Tree → Option Config
  | .object members => do
    guard (members.all fun member => member.1.isSome)
    return {
      backend := ← settingOf? backendOfTree? "backend" default.backend members
      cacheDir := ← settingOf? textOfTree? "cache_dir" default.cacheDir members
      snapshotFile := ← settingOf? textOfTree? "snapshot_file" default.snapshotFile members
      sqliteFile := ← settingOf? textOfTree? "sqlite_file" default.sqliteFile members
      prettySnapshot :=
        ← settingOf? flagOfTree? "pretty_snapshot" default.prettySnapshot members }
  | .array items => do
    guard (items.length ≤ 5)
    return {
      backend := ← itemOf? backendOfTree? 0 default.backend items
      cacheDir := ← itemOf? textOfTree? 1 default.cacheDir items
      snapshotFile := ← itemOf? textOfTree? 2 default.snapshotFile items
      sqliteFile := ← itemOf? textOfTree? 3 default.sqliteFile items
      prettySnapshot := ← itemOf? flagOfTree? 4 default.prettySnapshot items }
  | _ => none

/-- The configuration that a JSON text describes. -/
def ofJson (s : String) : Except ConfigFault Config :=
  match (Tree.ofText? s).bind ofTree? with
  | some config => .ok config
  | none => .error .notJson

def toJson (config : Config) : String :=
  (Value.object
    [("backend", .string config.backend.name), ("cache_dir", .string config.cacheDir),
      ("snapshot_file", .string config.snapshotFile), ("sqlite_file", .string config.sqliteFile),
      ("pretty_snapshot", .bool config.prettySnapshot)]).text .pretty

end DocStore.Config
