import DocStore.Config.Toml
import DocStore.Toml.Value

/-!
# Configuration in layers

The configuration of a project: defaults, then the user's file, then the project's file, then the
backend that the environment names. Each layer says some settings anew. In a layer a date-time may
stand where a text is asked for.
-/

namespace DocStore.Config

/-- The place of the user's file in the directory for configurations. -/
def userFile (directory : String) : String :=
  FilePath.join (FilePath.join directory "registry-store") "config.toml"

/-- The place of the project's file in the root of the project. -/
def projectFile (root : String) : String :=
  FilePath.join root ".registry-store.toml"

def readFile (files : FileTree) (path : String) : Except ConfigFault String :=
  (files.readText path).mapError .unreadable

def load (files : FileTree) (path : String) : Except ConfigFault Config := do
  let text ← readFile files path
  let config ← ofToml text
  config.validated

/-- The table of a layer, whose date-times are texts. -/
def layerOfText (s : String) : Except ConfigFault Toml.Table :=
  match (Toml.Table.ofText? s).bind Toml.Table.textual? with
  | some table => .ok table
  | none => .error .notToml

/-- Says the settings of `upper` anew. -/
def overlay (lower upper : Toml.Table) : Toml.Table :=
  upper.foldl (fun table entry => Fields.insert entry.1 entry.2 table) lower

/-- The tables of the files that are there, overlaid in order. -/
def mergeFiles (files : FileTree) : List String → Toml.Table → Except ConfigFault Toml.Table
  | [], table => .ok table
  | path :: rest, table =>
    if files.isFile path then do
      let text ← readFile files path
      let upper ← layerOfText text
      mergeFiles files rest (overlay table upper)
    else mergeFiles files rest table

/-- The configuration with a relative directory placed in the root of the project. -/
def placedIn (root : Option String) (config : Config) : Config :=
  match root with
  | some root =>
    if FilePath.isRelative config.cacheDir then
      { config with cacheDir := FilePath.join root config.cacheDir }
    else config
  | none => config

def loadStandard (files : FileTree) (userDirectory root environment : Option String) :
    Except ConfigFault Config := do
  let layers := (userDirectory.map userFile).toList ++ (root.map projectFile).toList
  let table ← mergeFiles files layers []
  let config ← ofTable table
  let config ← config.overrideBackend environment
  (config.placedIn root).validated

end DocStore.Config
