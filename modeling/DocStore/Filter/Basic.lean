import DocStore.Document.Path

/-!
# Filters

A filter is a list of conditions, each on the value at a path; a document matches when all hold.
-/

namespace DocStore

/-- A condition on the value at a path, which may be absent. -/
inductive Condition where
  /-- The value is present and equals `value`. -/
  | equals (value : Value)
  /-- The value is present, or absent when `expected` is false; null counts as present. -/
  | present (expected : Bool)
  /-- The value is present and equals one of `values`. -/
  | oneOf (values : List Value)

namespace Condition

/-- Whether a condition holds for what a path resolves to. -/
def holds : Condition → Option Value → Bool
  | .equals value, resolved => resolved.any fun found => found.eqv value
  | .present expected, resolved => resolved.isSome == expected
  | .oneOf values, resolved => resolved.any fun found => values.any fun value => value.eqv found

end Condition

/-- A condition and the path that it is bound to. -/
structure FieldCondition where
  path : String
  condition : Condition

/-- Conditions that must all hold. -/
structure Filter where
  conditions : List FieldCondition

namespace Filter

/-- The filter that every document matches. -/
def empty : Filter := ⟨[]⟩

def push (filter : Filter) (path : String) (condition : Condition) : Filter :=
  ⟨filter.conditions ++ [⟨path, condition⟩]⟩

def isEmpty (filter : Filter) : Bool :=
  filter.conditions.isEmpty

/-- Whether all conditions hold for a document. -/
def accepts (filter : Filter) (doc : Document) : Bool :=
  filter.conditions.all fun field => field.condition.holds (doc.get? field.path)

/-- The paths and values of the equality conditions, in order. -/
def equalities (filter : Filter) : List (String × Value) :=
  filter.conditions.filterMap fun field =>
    match field.condition with
    | .equals value => some (field.path, value)
    | _ => none

/-- The conditions bound to exactly this path, in order. -/
def conditionsOn (filter : Filter) (path : String) : List Condition :=
  (filter.conditions.filter fun field => field.path == path).map (·.condition)

end Filter

end DocStore
