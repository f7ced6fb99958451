import DocStore.Filter.Basic
import DocStore.Schema
import DocStore.Sql.Clause

/-!
# Prefilters

A filter as a condition on the rows of a table. The key column holds the string key of the document,
so every condition on the key has a clause. A denormalized column is NULL for an absent value and
for one that is no string, so there only comparisons with strings have one. A prefilter is exact
when each condition of its filter has a clause; otherwise the rows that pass still have to be
matched by their documents.
-/

namespace DocStore.Sql

/-- Clauses on a row, their parameters in order, and whether they say all that the filter says. -/
structure Prefilter where
  clauses : List Clause
  params : List String
  exact : Bool
  deriving DecidableEq

/-- The clause of a condition on a column, with its parameters. -/
def Clause.ofCondition? (isKey : Bool) (column : String) :
    Condition → Option (Clause × List String)
  | .equals (.string s) => some (.equals column, [s])
  | .equals _ => if isKey then some (.never, []) else none
  | .oneOf values =>
    let strings := values.filterMap Value.asString?
    if !isKey && strings.length != values.length then none
    else if strings.isEmpty then some (.never, [])
    else some (.isIn column strings.length, strings)
  | .present expected =>
    if isKey then some (if expected then .always else .never, []) else none

/-- The clause of a condition on a path, with its parameters. -/
def Clause.ofField? (schema : Schema) (field : FieldCondition) : Option (Clause × List String) :=
  (schema.columnFor? field.path).bind fun mapping =>
    ofCondition? (schema.isKey mapping) mapping.column field.condition

namespace Prefilter

/-- The prefilter of conditions on the rows of a schema's table. -/
def ofConditions (schema : Schema) : List FieldCondition → Prefilter
  | [] => ⟨[], [], true⟩
  | field :: rest =>
    let more := ofConditions schema rest
    match Clause.ofField? schema field with
    | none => { more with exact := false }
    | some (clause, params) =>
      ⟨if clause = .always then more.clauses else clause :: more.clauses,
        params ++ more.params, more.exact⟩

def ofFilter (schema : Schema) (filter : Filter) : Prefilter :=
  ofConditions schema filter.conditions

/-- The `WHERE` clause; empty when there is no condition. -/
def whereText (prefilter : Prefilter) : String :=
  if prefilter.clauses.isEmpty then ""
  else "WHERE " ++ " AND ".intercalate (prefilter.clauses.map Clause.text)

def accepts (prefilter : Prefilter) (row : String → Option String) : Bool :=
  evalAll row prefilter.clauses prefilter.params == some true

end Prefilter

end DocStore.Sql
