/-!
# Row conditions

The conditions on rows that a query puts into its `WHERE` clause. Each placeholder in a clause takes
the next parameter, from left to right. A comparison with a NULL cell is neither true nor false, so
a clause evaluates to `some true`, `some false` or `none`.
-/

namespace DocStore.Sql

/-- A condition on one row. -/
inductive Clause where
  /-- Holds for no row. -/
  | never
  /-- Holds for every row. -/
  | always
  /-- The cell equals the parameter. -/
  | equals (column : String)
  /-- The cell equals one of `count` parameters. -/
  | isIn (column : String) (count : Nat)
  deriving DecidableEq

namespace Clause

/-- The number of parameters that a clause takes. -/
def placeholders : Clause → Nat
  | .never | .always => 0
  | .equals _ => 1
  | .isIn _ count => count

def text : Clause → String
  | .never => "0"
  | .always => "1"
  | .equals column => column ++ " = ?"
  | .isIn column count => column ++ " IN (" ++ ", ".intercalate (List.replicate count "?") ++ ")"

/-- The truth of a clause on a row, with its parameters. -/
def eval (row : String → Option String) (params : List String) : Clause → Option Bool
  | .never => some false
  | .always => some true
  | .equals column => (row column).map fun cell => params.any (· == cell)
  | .isIn column _ => (row column).map fun cell => params.any (· == cell)

end Clause

def both : Option Bool → Option Bool → Option Bool
  | some false, _ => some false
  | _, some false => some false
  | some true, truth => truth
  | none, _ => none

/-- The conjunction of clauses on a row. -/
def evalAll (row : String → Option String) : List Clause → List String → Option Bool
  | [], _ => some true
  | clause :: rest, params =>
    both (clause.eval row (params.take clause.placeholders))
      (evalAll row rest (params.drop clause.placeholders))

end DocStore.Sql
