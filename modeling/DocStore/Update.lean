import DocStore.Document.Path

/-!
# Updates

An update is a list of operations at paths. All increments are applied first, then all
assignments, each group in order.
-/

namespace DocStore

/-- One operation of an update. -/
inductive UpdateOp where
  /-- Replaces the value at a path. -/
  | assign (path : String) (value : Value)
  /-- Adds a number to the number at a path; what is absent or no number counts as 0. -/
  | increment (path : String) (delta : Value)

/-- The operations that are applied to one document. -/
structure Update where
  ops : List UpdateOp

namespace Value

/-- The sum of two integers: an integer when it fits, else the sum of their doubles. -/
def addInts (a b : Int64) : Value :=
  let sum := a.toInt + b.toInt
  if Int64.minValue.toInt ≤ sum ∧ sum ≤ Int64.maxValue.toInt then .int (Int64.ofInt sum)
  else .float ((Binary64.ofInt a.toInt).add (Binary64.ofInt b.toInt))

/-- The sum of two numbers; null when one operand is no number. -/
def addNumbers : Value → Value → Value
  | .int a, .int b => addInts a b
  | base, delta =>
    match base.asFloat?, delta.asFloat? with
    | some x, some y => .float (x.add y)
    | _, _ => .null

theorem addNumbers_cases (base delta : Value) :
    (∃ n, addNumbers base delta = .int n) ∨ (∃ x, addNumbers base delta = .float x) ∨
      addNumbers base delta = .null := by
  unfold addNumbers
  split
  · unfold addInts
    dsimp only
    split
    · exact .inl ⟨_, rfl⟩
    · exact .inr (.inl ⟨_, rfl⟩)
  · split
    · exact .inr (.inl ⟨_, rfl⟩)
    · exact .inr (.inr rfl)

/-- What an increment starts from: the number found, or 0. -/
def incrementBase (found : Option Value) : Value :=
  (found.filter isNumber).getD (.int 0)

end Value

namespace UpdateOp

def isIncrement : UpdateOp → Bool
  | .increment .. => true
  | .assign .. => false

/-- Applies an operation. A delta that is no number changes nothing. -/
def apply (doc : Document) : UpdateOp → Document
  | .assign path value => doc.set path value
  | .increment path delta =>
    if delta.isNumber then
      doc.set path (Value.addNumbers (Value.incrementBase (doc.get? path)) delta)
    else doc

end UpdateOp

/-- What is wrong with an update or a write model. -/
inductive UpdateFault where
  | notObject (kind : String)
  | operandNotObject (operator kind : String)
  | deltaNotNumber (path kind : String)
  | unknownOperator (operator : String)
  | incrementNotAllowed
  | modelNotObject
  | modelWithoutBody
  | unknownModel (name : String)
  | upsertNotBool (kind : String)
  deriving DecidableEq

namespace UpdateFault

def message : UpdateFault → String
  | .notObject kind => "update must be an object, got " ++ kind
  | .operandNotObject operator kind => "`" ++ operator ++ "` expects an object, got " ++ kind
  | .deltaNotNumber path kind => "`$inc` on `" ++ path ++ "` expects a number, got " ++ kind
  | .unknownOperator operator => "unsupported update operator `" ++ operator ++ "`"
  | .incrementNotAllowed => "`$inc` is only supported by find_one_and_update"
  | .modelNotObject => "write model must be an object"
  | .modelWithoutBody => "write model must contain an `updateOne` object"
  | .unknownModel name => "unsupported write model `" ++ name ++ "`"
  | .upsertNotBool kind => "`upsert` expects a bool, got " ++ kind

end UpdateFault

namespace Update

/-- The update that changes nothing. -/
def empty : Update := ⟨[]⟩

def push (update : Update) (op : UpdateOp) : Update :=
  ⟨update.ops ++ [op]⟩

/-- Assigns every top-level field of a document. -/
def assignDocument (doc : Document) : Update :=
  ⟨doc.map fun member => .assign member.1 member.2⟩

def isEmpty (update : Update) : Bool :=
  update.ops.isEmpty

def hasIncrement (update : Update) : Bool :=
  update.ops.any UpdateOp.isIncrement

/-- The increments of an update and its other operations, each in order. -/
def phases (update : Update) : List UpdateOp :=
  update.ops.filter UpdateOp.isIncrement ++ update.ops.filter fun op => !op.isIncrement

/-- Applies an update: increments first, then assignments. -/
def apply (update : Update) (doc : Document) : Document :=
  update.phases.foldl UpdateOp.apply doc

def ofDeltas? : List (String × Value) → Except UpdateFault (List UpdateOp)
  | [] => .ok []
  | (path, delta) :: rest =>
    if delta.isNumber then (ofDeltas? rest).map (.increment path delta :: ·)
    else .error (.deltaNotNumber path delta.kind)

/-- The operations that one member of an update expression stands for. -/
def ofMember? (operator : String) (operand : Value) : Except UpdateFault (List UpdateOp) :=
  match operand with
  | .object fields =>
    if operator = "$set" then .ok (assignDocument fields).ops
    else if operator = "$inc" then ofDeltas? fields
    else .error (.unknownOperator operator)
  | other => .error (.operandNotObject operator other.kind)

/-- The operations of the members of an update expression. -/
def ofMembers? : List (String × Value) → Except UpdateFault (List UpdateOp)
  | [] => .ok []
  | (operator, operand) :: rest => do
    let ops ← ofMember? operator operand
    let more ← ofMembers? rest
    return ops ++ more

/-- The update that a value stands for: an object with `$set`, `$inc` or both. -/
def ofValue? : Value → Except UpdateFault Update
  | .object fields => (ofMembers? fields).map (⟨·⟩)
  | other => .error (.notObject other.kind)

end Update

end DocStore
