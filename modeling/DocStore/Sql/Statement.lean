import DocStore.Sql.Table

/-!
# Statements

The texts of the statements that select and delete rows. A statement is read from left to right, and
is refused at the first parameter or condition that is too much for the engine (`Excess`). One that
was read is refused when it names a column that its table lacks; the first such place counts. A
condition that no row satisfies stands for the whole `WHERE` clause, so then no other condition of
the clause names a column, and those behind it make no expression.

The engine's limit on the length of a text, a billion bytes, is taken to be out of reach.
-/

namespace DocStore.Sql

/-- What a statement has too much of. -/
inductive Excess where
  /-- Parameters; the first one too many stands at a byte. -/
  | parameters (position : Nat)
  /-- Conditions, one inside the other once they are joined. -/
  | height
  deriving DecidableEq

/-- A statement, what it has too much of, and the columns that it names with the bytes at which they
stand. -/
structure Statement where
  text : String
  excess? : Option Excess
  mentions : List (String × Nat)
  deriving DecidableEq

/-- Why a statement is refused. -/
inductive StatementFault where
  | excess (statement : String) (excess : Excess)
  /-- Its table lacks a column that it names at a byte. -/
  | column (statement name : String) (position : Nat)
  deriving DecidableEq

/-- The number of parameters that a statement may have. -/
def parameterLimit : Nat := 32766

/-- The height that an expression may have. -/
def heightLimit : Nat := 1000

def StatementFault.message : StatementFault → String
  | .excess statement (.parameters position) =>
    "too many SQL variables in " ++ statement ++ " at offset " ++ toString position ++ " (sql: " ++
      statement ++ ")"
  | .excess statement .height =>
    "Expression tree is too large (maximum depth " ++ toString heightLimit ++ ") (sql: " ++
      statement ++ ")"
  | .column statement name position =>
    "no such column: " ++ name ++ " in " ++ statement ++ " at offset " ++ toString position ++
      " (sql: " ++ statement ++ ")"

/-- The height of the expression of a condition. A list of one parameter is read as a comparison
with that parameter behind a sign. -/
def Clause.height : Clause → Nat
  | .never | .always => 1
  | .isIn _ 1 => 3
  | .equals _ | .isIn _ _ => 2

/-- The byte of a condition at which one of its placeholders stands. -/
def Clause.offset (index : Nat) : Clause → Nat
  | .never | .always => 0
  | .equals column => (column ++ " = ").utf8ByteSize
  | .isIn column _ => (column ++ " IN (").utf8ByteSize + index * "?, ".utf8ByteSize

/-- The height of a conjunction with one more condition; there is no expression yet at height 0. -/
def joinedHeight (height : Nat) (clause : Clause) : Nat :=
  if height = 0 then clause.height else max height clause.height + 1

/-- The height of a conjunction with one more condition; none once no row satisfies it. -/
def joinedHeight? (height? : Option Nat) (clause : Clause) : Option Nat :=
  if clause = .never then none else height?.map (joinedHeight · clause)

/-- What is too much in clauses whose text starts at a byte. `taken` counts the parameters in front
of them, and `height?` is the height of the conjunction there, unless no row satisfies it. -/
def clauseExcess? (start taken : Nat) (height? : Option Nat) : List Clause → Option Excess
  | [] => none
  | clause :: rest =>
    if parameterLimit < taken + clause.placeholders then
      some (.parameters (start + clause.offset (parameterLimit - taken)))
    else if (joinedHeight? height? clause).any (heightLimit < ·) then some .height
    else
      clauseExcess? (start + clause.text.utf8ByteSize + " AND ".utf8ByteSize)
        (taken + clause.placeholders) (joinedHeight? height? clause) rest

/-- What is too much in a prefilter whose `WHERE` clause starts at a byte. -/
def Prefilter.excess? (start : Nat) (prefilter : Prefilter) : Option Excess :=
  clauseExcess? (start + "WHERE ".utf8ByteSize) 0 (some 0) prefilter.clauses

def Clause.column? : Clause → Option String
  | .equals column | .isIn column _ => some column
  | .never | .always => none

/-- The columns of a conjunction of clauses whose text starts at a byte. -/
def clauseMentions (start : Nat) : List Clause → List (String × Nat)
  | [] => []
  | clause :: rest =>
    (clause.column?.map fun column => (column, start)).toList ++
      clauseMentions (start + clause.text.utf8ByteSize + " AND ".utf8ByteSize) rest

/-- The columns of a prefilter whose `WHERE` clause starts at a byte. -/
def Prefilter.mentions (start : Nat) (prefilter : Prefilter) : List (String × Nat) :=
  if prefilter.clauses.contains .never then []
  else clauseMentions (start + "WHERE ".utf8ByteSize) prefilter.clauses

namespace Statement

/-- The statement that reads keys and documents. -/
def select (schema : Schema) (prefilter : Prefilter) : Statement :=
  let verb := "SELECT "
  let key := verb ++ schema.key.column ++ ", "
  let head := key ++ Schema.dataColumn ++ " FROM " ++ schema.table ++ " "
  { text := head ++ prefilter.whereText
    excess? := prefilter.excess? head.utf8ByteSize
    mentions :=
      (schema.key.column, verb.utf8ByteSize) :: (Schema.dataColumn, key.utf8ByteSize) ::
        prefilter.mentions head.utf8ByteSize }

def delete (schema : Schema) (prefilter : Prefilter) : Statement :=
  let head := "DELETE FROM " ++ schema.table ++ " "
  { text := head ++ prefilter.whereText
    excess? := prefilter.excess? head.utf8ByteSize
    mentions := prefilter.mentions head.utf8ByteSize }

/-- Why a statement on a table is refused, if it is. -/
def fault? (statement : Statement) (table : Table) : Option StatementFault :=
  match statement.excess? with
  | some excess => some (.excess statement.text excess)
  | none =>
    (statement.mentions.find? fun mention => !table.hasColumn mention.1).map
      fun (column, position) => .column statement.text column position

end Statement

end DocStore.Sql
