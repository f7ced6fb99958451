import DocStore.Files.Tree
import DocStore.Text

/-!
# Configuration

Which backend keeps the documents, and in which file. `Config.fault?` says what makes a
configuration unusable, the first fault in a fixed order.
-/

namespace DocStore

/-- Where documents are kept. -/
inductive BackendKind where
  /-- In one JSON file that is written anew after every change. -/
  | snapshot
  /-- In a database in memory that is written to a file on close. -/
  | sqlite
  deriving DecidableEq

/-- Why there is no configuration. -/
inductive ConfigFault where
  | unreadable (fault : FileFault)
  | notToml
  | notJson
  | unknownBackend (name : String)
  | blankName (field : String)
  | notBareName (field name : String)
  | sameName
  | noDirectory
  deriving DecidableEq

namespace ConfigFault

/-- The wording of a fault, for those that have one. -/
def message? : ConfigFault → Option String
  | .unknownBackend name => some ("Unknown backend: " ++ name)
  | .blankName field => some ("Invalid configuration: " ++ field ++ " must not be empty")
  | .notBareName field name =>
    some ("Invalid configuration: " ++ field ++ " must be a bare file name, got " ++
      Text.quoted name)
  | .sameName => some "Invalid configuration: snapshot_file and sqlite_file must differ"
  | .noDirectory => some "Invalid configuration: cache_dir must not be empty"
  | .unreadable _ | .notToml | .notJson => none

end ConfigFault

namespace BackendKind

def name : BackendKind → String
  | .snapshot => "snapshot"
  | .sqlite => "sqlite"

/-- The backend of a name in a configuration file. -/
def ofName? (s : String) : Option BackendKind :=
  if s = "snapshot" then some .snapshot
  else if s = "sqlite" then some .sqlite
  else none

/-- The backend that a user names: blanks around the name and the case of ASCII letters do not
matter, and both backends have a second name. -/
def ofUserName? (s : String) : Except ConfigFault BackendKind :=
  let name := (Text.trim s).toLower
  if name = "snapshot" ∨ name = "json" then .ok .snapshot
  else if name = "sqlite" ∨ name = "sql" then .ok .sqlite
  else .error (.unknownBackend name)

end BackendKind

/-- A configuration. -/
structure Config where
  backend : BackendKind
  cacheDir : String
  snapshotFile : String
  sqliteFile : String
  prettySnapshot : Bool
  deriving DecidableEq

namespace Config

/-- What holds where nothing is said. -/
def default : Config where
  backend := .snapshot
  cacheDir := ".cache"
  snapshotFile := "localdb.json"
  sqliteFile := "registry.sqlite"
  prettySnapshot := true

instance : Inhabited Config := ⟨default⟩

def snapshotPath (config : Config) : String :=
  FilePath.join config.cacheDir config.snapshotFile

def sqlitePath (config : Config) : String :=
  FilePath.join config.cacheDir config.sqliteFile

/-- The configuration with the backend that a user names, if one is named. -/
def overrideBackend (config : Config) (name : Option String) : Except ConfigFault Config :=
  match name.filter fun name => !Text.isBlankText name with
  | none => .ok config
  | some name => (BackendKind.ofUserName? name).map fun backend => { config with backend }

def nameFault? (field name : String) : Option ConfigFault :=
  if Text.isBlankText name then some (.blankName field)
  else if name.toList.contains '/' || name.toList.contains '\\' then
    some (.notBareName field name)
  else none

def fault? (config : Config) : Option ConfigFault :=
  nameFault? "snapshot_file" config.snapshotFile <|>
  nameFault? "sqlite_file" config.sqliteFile <|>
  (if config.snapshotFile = config.sqliteFile then some .sameName else none) <|>
  (if config.cacheDir.isEmpty then some .noDirectory else none)

/-- The configuration when nothing is wrong with it. -/
def validated (config : Config) : Except ConfigFault Config :=
  match config.fault? with
  | some fault => .error fault
  | none => .ok config

end Config

end DocStore
