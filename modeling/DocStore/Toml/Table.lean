import DocStore.Toml.Statement

/-!
# TOML tables

The table that statements describe. A header opens a table once; a dotted key makes the tables on
its way, which later dotted keys may extend and headers may not. `Table.ofText?` reads a text.
-/

namespace DocStore.Toml

/-- How a table came about. -/
inductive Origin where
  /-- Named by a header. -/
  | header
  /-- On the way to a table that a header names. -/
  | passed
  /-- On the way of a dotted key. -/
  | dotted
  deriving DecidableEq

/-- A table under construction, as a member of another one. The tables of an array of tables are
kept last one first. -/
inductive Node where
  | value (value : Value)
  | table (origin : Origin) (members : List (String × Node))
  | tables (elements : List (List (String × Node)))

namespace Node

/-- Puts `node` into the table that the parts of a dotted key lead to. -/
def assign (name : String) (node : Node) :
    List String → List (String × Node) → Option (List (String × Node))
  | [], members =>
    match Fields.get? name members with
    | none => some (Fields.put name node members)
    | some _ => none
  | part :: more, members =>
    match Fields.get? part members with
    | none =>
      (assign name node more []).map fun inner =>
        Fields.put part (.table .dotted inner) members
    | some (.table origin inner) =>
      if origin = .header ∨ (more = [] ∧ origin = .passed) then none
      else
        (assign name node more inner).map fun inner =>
          Fields.put part (.table origin inner) members
    | some (.tables (last :: earlier)) =>
      if more = [] then none
      else
        (assign name node more last).map fun last =>
          Fields.put part (.tables (last :: earlier)) members
    | some _ => none

/-- Changes the members of the table that the parts of a header lead to. -/
def modify (change : List (String × Node) → Option (List (String × Node))) :
    List String → List (String × Node) → Option (List (String × Node))
  | [], members => change members
  | part :: more, members =>
    match Fields.get? part members with
    | none =>
      (modify change more []).map fun inner => Fields.put part (.table .passed inner) members
    | some (.table origin inner) =>
      (modify change more inner).map fun inner =>
        Fields.put part (.table origin inner) members
    | some (.tables (last :: earlier)) =>
      (modify change more last).map fun last =>
        Fields.put part (.tables (last :: earlier)) members
    | some _ => none

mutual

def toValue : Node → Value
  | .value content => content
  | .table _ members => .table (toMembers members)
  | .tables elements => .array (toTables elements).reverse

def toMembers : List (String × Node) → List (String × Value)
  | [] => []
  | (name, node) :: rest => (name, toValue node) :: toMembers rest

def toTables : List (List (String × Node)) → List Value
  | [] => []
  | members :: rest => .table (toMembers members) :: toTables rest

end

def assignAll (assignments : List (Key × Value)) (members : List (String × Node)) :
    Option (List (String × Node)) :=
  assignments.foldlM (fun members assignment =>
    assign assignment.1.name (.value assignment.2) assignment.1.path members) members

end Node

namespace Written

mutual

/-- The value of what is written; `none` when an inline table sets a member twice. -/
def toValue? : Written → Option Value
  | .scalar value => some value
  | .array items => (toItems? items).map .array
  | .inline members =>
    match toMembers? members with
    | none => none
    | some assignments =>
      (Node.assignAll assignments []).map fun members => .table (Node.toMembers members)

def toItems? : List Written → Option (List Value)
  | [] => some []
  | item :: rest =>
    match toValue? item, toItems? rest with
    | some value, some values => some (value :: values)
    | _, _ => none

/-- The members of an inline table with their keys. -/
def toMembers? : List (Key × Written) → Option (List (Key × Value))
  | [] => some []
  | (key, item) :: rest =>
    match toValue? item, toMembers? rest with
    | some value, some members => some ((key, value) :: members)
    | _, _ => none

end

end Written

/-- A header with the assignments below it. -/
structure Section where
  isArray : Bool
  key : Key
  assignments : List (Key × Value)

namespace Section

/-- The assignments in front of the first header, and the sections. -/
def ofStatements? : List Statement → Option (List (Key × Value) × List Section)
  | [] => some ([], [])
  | .assign key written :: rest =>
    match written.toValue?, ofStatements? rest with
    | some value, some (assignments, sections) => some ((key, value) :: assignments, sections)
    | _, _ => none
  | .header key :: rest =>
    (ofStatements? rest).map fun (assignments, sections) =>
      ([], ⟨false, key, assignments⟩ :: sections)
  | .arrayHeader key :: rest =>
    (ofStatements? rest).map fun (assignments, sections) =>
      ([], ⟨true, key, assignments⟩ :: sections)

/-- Puts the table of a section into the table that its header lies in. It stands behind the other
members, also when it was there on the way to another table. -/
def open? (entry : Section) (parent : List (String × Node)) : Option (List (String × Node)) :=
  let name := entry.key.name
  match entry.isArray, Fields.get? name parent with
  | false, none =>
    (Node.assignAll entry.assignments []).map fun members =>
      Fields.put name (.table .header members) parent
  | false, some (.table .passed members) =>
    (Node.assignAll entry.assignments members).map fun members =>
      Fields.put name (.table .header members) (Fields.erase name parent)
  | true, none =>
    (Node.assignAll entry.assignments []).map fun members =>
      Fields.put name (.tables [members]) parent
  | true, some (.tables elements) =>
    (Node.assignAll entry.assignments []).map fun members =>
      Fields.put name (.tables (members :: elements)) parent
  | _, _ => none

end Section

namespace Table

/-- The table that statements describe; `none` when one of them defines something again. -/
def ofStatements? (statements : List Statement) : Option Table := do
  let (assignments, sections) ← Section.ofStatements? statements
  let root ← Node.assignAll assignments []
  let root ← sections.foldlM (fun root entry => Node.modify entry.open? entry.key.path root) root
  return Node.toMembers root

def ofText? (s : String) : Option Table :=
  (Statement.all s.toList).bind ofStatements?

end Table

end DocStore.Toml
