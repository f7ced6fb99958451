import DocStore.Value.Text

/-!
# JSON data

JSON data as requests carry it: a number is a natural or a negative 64-bit integer or a double.
`Data.toValue` turns it into a document value. A stored text is read as a value at once, by
`Value.ofTree?`; both ways choose the same kind for every number.
-/

namespace DocStore.Json

/-- A number of JSON data. -/
inductive DataNumber where
  | natural (n : UInt64)
  | negative (n : Int64)
  | float (x : Binary64)

/-- JSON data: a tree with its numbers read, each name once. -/
inductive Data where
  | null
  | bool (b : Bool)
  | number (n : DataNumber)
  | string (s : String)
  | array (items : List Data)
  | object (fields : List (String × Data))

namespace DataNumber

/-- The number of a literal; `none` when it overflows. -/
def ofLiteral? (n : NumberLiteral) : Option DataNumber :=
  match n.toInt? with
  | some (.ofNat magnitude) => some (.natural (UInt64.ofNat magnitude))
  | some (.negSucc rest) =>
    if rest < Nat.pow 2 63 then some (.negative (Int64.ofInt (.negSucc rest)))
    else n.toFinite?.map .float
  | none => n.toFinite?.map .float

/-- The value of a number: an integer when it fits. -/
def toValue : DataNumber → Value
  | .natural n =>
    if n.toNat < Nat.pow 2 63 then .int (Int64.ofInt n.toNat) else .float (.ofInt n.toNat)
  | .negative n => .int n
  | .float x => .float x

end DataNumber

namespace Data

mutual

/-- The data of a tree; `none` when a number overflows or a string has no text. -/
def ofTree? : Tree → Option Data
  | .null => some .null
  | .bool b => some (.bool b)
  | .number n => (DataNumber.ofLiteral? n).map .number
  | .string text => text.map .string
  | .array items => (ofItems? items).map .array
  | .object members => (ofMembers? members).map fun fields => .object (Fields.ofMembers fields)

def ofItems? : List Tree → Option (List Data)
  | [] => some []
  | tree :: rest =>
    match ofTree? tree, ofItems? rest with
    | some data, some more => some (data :: more)
    | _, _ => none

/-- The members of an object, in the order of the text. -/
def ofMembers? : List (Option String × Tree) → Option (List (String × Data))
  | [] => some []
  | (name, tree) :: rest =>
    match name, ofTree? tree, ofMembers? rest with
    | some name, some data, some members => some ((name, data) :: members)
    | _, _, _ => none

end

def ofText? (s : String) : Option Data := do
  let tree ← Tree.ofText? s
  guard (tree.nesting ≤ Value.nestingLimit)
  ofTree? tree

mutual

def toValue : Data → Value
  | .null => .null
  | .bool b => .bool b
  | .number n => n.toValue
  | .string s => .string s
  | .array items => .array (toItems items)
  | .object fields => .object (Fields.ofMembers (toMembers fields))

def toItems : List Data → List Value
  | [] => []
  | data :: rest => toValue data :: toItems rest

/-- The members of an object, in the given order. -/
def toMembers : List (String × Data) → List (String × Value)
  | [] => []
  | (name, data) :: rest => (name, toValue data) :: toMembers rest

end

end Data

end DocStore.Json
