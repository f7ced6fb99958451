import DocStore.Files.Database
import DocStore.Sql.Statement
import DocStore.WriteModel

/-!
# Errors of a store

Why an operation of a store fails, and the wording of those errors that have one.
-/

namespace DocStore

/-- Why an operation of a store fails. -/
inductive StoreError where
  | request (fault : RequestFault)
  /-- The document has no string at the key path. -/
  | missingPrimaryKey (collection path : String)
  | unknownCollection (name : String)
  /-- A stored text denotes no document. -/
  | undecodable
  /-- A row has no text in a column that is read. -/
  | nullCell (index : Nat) (column : String)
  /-- The statement of a query is refused. -/
  | selectRefused (fault : Sql.StatementFault)
  | deleteRefused (fault : Sql.StatementFault)
  /-- A table lacks a column of the row that is written. -/
  | updateRefused (table column : String)
  | insertRefused (table column : String)
  | exportFailed (fault : DatabaseFault)
  | file (fault : FileFault)
  deriving DecidableEq

namespace StoreError

/-- The wording of an error. A stored text that denotes no document and a failure of the file system
have none. -/
def message? : StoreError → Option String
  | .request fault => some fault.message
  | .missingPrimaryKey collection path =>
    some ("Document in `" ++ collection ++ "` has no string primary key at `" ++ path ++ "`")
  | .unknownCollection name => some ("Unknown collection: " ++ name)
  | .nullCell index column =>
    some ("Storage error: row: Invalid column type Null at index: " ++ toString index ++
      ", name: " ++ column)
  | .selectRefused fault => some ("Storage error: prepare select: " ++ fault.message)
  | .deleteRefused fault => some ("Storage error: delete: " ++ fault.message)
  | .updateRefused table column =>
    some ("Storage error: write " ++ table ++ ": no such column: " ++ column)
  | .insertRefused table column =>
    some ("Storage error: write " ++ table ++ ": table " ++ table ++ " has no column named " ++
      column)
  | .exportFailed fault => some ("Storage error: export: " ++ fault.message)
  | .undecodable | .file _ => none

end StoreError

/-- Whether an update may be applied to the first match only: it must not increment. -/
def Update.requireAssignments (update : Update) : Except StoreError Unit :=
  if update.hasIncrement then .error (.request (.update .incrementNotAllowed)) else .ok ()

end DocStore
