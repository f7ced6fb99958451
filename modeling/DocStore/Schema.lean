import DocStore.Document.Path

/-!
# Schemas

The two conventional collections and their keys. `plugins` is keyed by `package.name` and
`system_settings` by `_id`. A table for such a collection has the key column, a column for each
denormalized path, and `data` with the text of the document.
-/

namespace DocStore

/-- A document path that has a column of its own. -/
structure ColumnMapping where
  path : String
  column : String
  deriving DecidableEq

/-- The layout of a conventional collection. -/
structure Schema where
  name : String
  table : String
  key : ColumnMapping
  columns : List ColumnMapping
  deriving DecidableEq

namespace Schema

def plugins : Schema where
  name := "plugins"
  table := "plugins"
  key := ⟨"package.name", "package_name"⟩
  columns := [⟨"package.version", "package_version"⟩]

def systemSettings : Schema where
  name := "system_settings"
  table := "system_settings"
  key := ⟨"_id", "id"⟩
  columns := []

def all : List Schema := [plugins, systemSettings]

/-- The collection that is meant when none is named. -/
def defaultCollection : String := plugins.name

/-- The schema of a collection, when it is a conventional one. -/
def for? (collection : String) : Option Schema :=
  all.find? fun schema => schema.name == collection

def keyOf? (schema : Schema) (doc : Document) : Option String :=
  (doc.get? schema.key.path).bind Value.asString?

/-- The mapping of a path that is the key or a denormalized one. -/
def columnFor? (schema : Schema) (path : String) : Option ColumnMapping :=
  if schema.key.path = path then some schema.key
  else schema.columns.find? fun mapping => mapping.path == path

def isKey (schema : Schema) (mapping : ColumnMapping) : Bool :=
  schema.key == mapping

/-- The column that holds the text of the document. -/
def dataColumn : String := "data"

/-- All columns: the key, the denormalized ones, the document. -/
def columnList (schema : Schema) : List String :=
  schema.key.column :: schema.columns.map (·.column) ++ [dataColumn]

/-- The statement that makes the table unless it is there. -/
def createTableText (schema : Schema) : String :=
  let columns := (schema.key.column ++ " TEXT PRIMARY KEY") ::
    schema.columns.map (fun mapping => mapping.column ++ " TEXT") ++ [dataColumn ++ " TEXT"]
  "CREATE TABLE IF NOT EXISTS " ++ schema.table ++ " (" ++ ", ".intercalate columns ++ ")"

end Schema

end DocStore
