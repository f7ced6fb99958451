import DocStore.Filter.Basic

/-!
# Filter expressions

A filter is written as an object. A member whose value is an object with only `$` names holds
operators for its path; one whose value has no `$` name is an equality. `Filter.ofValue?` reads
the members in key order and stops at the first fault.
-/

namespace DocStore

/-- What is wrong with a filter expression. -/
inductive FilterFault where
  | notObject (kind : String)
  | topLevelOperator (operator : String)
  | mixedNames (path : String)
  | presentOperand (path kind : String)
  | oneOfOperand (path kind : String)
  | unknownOperator (operator path : String)
  deriving DecidableEq

namespace FilterFault

def message : FilterFault → String
  | .notObject kind => "filter must be an object, got " ++ kind
  | .topLevelOperator operator => "unsupported top-level operator `" ++ operator ++ "`"
  | .mixedNames path => "field `" ++ path ++ "` mixes operators and literal keys"
  | .presentOperand path kind => "`$exists` on `" ++ path ++ "` expects a bool, got " ++ kind
  | .oneOfOperand path kind => "`$in` on `" ++ path ++ "` expects an array, got " ++ kind
  | .unknownOperator operator path =>
    "unsupported operator `" ++ operator ++ "` on `" ++ path ++ "`"

end FilterFault

/-- A name that is reserved for operators. -/
def isOperatorName (name : String) : Bool :=
  name.toList.head? == some '$'

namespace Condition

/-- The condition that an operator with its operand stands for. -/
def ofOperator? (path operator : String) (operand : Value) : Except FilterFault Condition :=
  if operator = "$exists" then
    match operand with
    | .bool expected => .ok (.present expected)
    | other => .error (.presentOperand path other.kind)
  else if operator = "$in" then
    match operand with
    | .array values => .ok (.oneOf values)
    | other => .error (.oneOfOperand path other.kind)
  else .error (.unknownOperator operator path)

/-- The conditions of the operators on one path. -/
def ofOperators? (path : String) : List (String × Value) → Except FilterFault (List FieldCondition)
  | [] => .ok []
  | (operator, operand) :: rest => do
    let condition ← ofOperator? path operator operand
    let more ← ofOperators? path rest
    return ⟨path, condition⟩ :: more

/-- The conditions that one member of a filter expression stands for. -/
def ofMember? (path : String) (value : Value) : Except FilterFault (List FieldCondition) :=
  match value with
  | .object fields =>
    if fields ≠ [] ∧ fields.all fun member => isOperatorName member.1 then
      ofOperators? path fields
    else if fields.any fun member => isOperatorName member.1 then .error (.mixedNames path)
    else .ok [⟨path, .equals value⟩]
  | _ => .ok [⟨path, .equals value⟩]

end Condition

namespace Filter

/-- The conditions of the members of a filter expression. -/
def ofMembers? : List (String × Value) → Except FilterFault (List FieldCondition)
  | [] => .ok []
  | (path, value) :: rest =>
    if isOperatorName path then .error (.topLevelOperator path)
    else do
      let conditions ← Condition.ofMember? path value
      let more ← ofMembers? rest
      return conditions ++ more

/-- The filter that a value stands for. Null stands for the empty filter. -/
def ofValue? : Value → Except FilterFault Filter
  | .object fields => (ofMembers? fields).map (⟨·⟩)
  | .null => .ok empty
  | other => .error (.notObject other.kind)

end Filter

end DocStore
