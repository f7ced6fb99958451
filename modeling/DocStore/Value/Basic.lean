import DocStore.Binary64.Basic
import DocStore.Fields

/-!
# Values and documents

A document is a mapping from names to values; a value is a scalar, an array or such a mapping.
`Value.eqv` compares two numbers numerically, whatever their kind, and all else by structure.
-/

namespace DocStore

/-- A value of a document field. -/
inductive Value where
  | null
  | bool (b : Bool)
  | int (n : Int64)
  | float (x : Binary64)
  | string (s : String)
  | array (items : List Value)
  | object (fields : List (String × Value))

abbrev Document := Fields Value

namespace Value

instance : Inhabited Value := ⟨.null⟩

def isNumber : Value → Bool
  | .int _ | .float _ => true
  | _ => false

/-- The number as a double; an integer is rounded to the nearest one. -/
def asFloat? : Value → Option Binary64
  | .int n => some (.ofInt n.toInt)
  | .float x => some x
  | _ => none

def asInt? : Value → Option Int64
  | .int n => some n
  | _ => none

def asString? : Value → Option String
  | .string s => some s
  | _ => none

def asObject? : Value → Option Document
  | .object fields => some fields
  | _ => none

def kind : Value → String
  | .null => "null"
  | .bool _ => "bool"
  | .int _ => "int"
  | .float _ => "float"
  | .string _ => "string"
  | .array _ => "array"
  | .object _ => "object"

mutual

/-- Equality of values: `1` equals `1.0`, the two zeros are equal, NaN equals nothing. -/
def eqv : Value → Value → Bool
  | .null, .null => true
  | .bool a, .bool b => a == b
  | .int a, .int b => a == b
  | .int a, .float y => (Binary64.ofInt a.toInt).numEq y
  | .float x, .int b => x.numEq (.ofInt b.toInt)
  | .float x, .float y => x.numEq y
  | .string a, .string b => a == b
  | .array a, .array b => eqvItems a b
  | .object a, .object b => eqvFields a b
  | _, _ => false

def eqvItems : List Value → List Value → Bool
  | [], [] => true
  | a :: as, b :: bs => eqv a b && eqvItems as bs
  | _, _ => false

def eqvFields : List (String × Value) → List (String × Value) → Bool
  | [], [] => true
  | (k, a) :: as, (l, b) :: bs => k == l && eqv a b && eqvFields as bs
  | _, _ => false

end

mutual

/-- How deep arrays and objects are nested; a scalar has nesting 0. -/
def nesting : Value → Nat
  | .array items => nestingItems items + 1
  | .object fields => nestingFields fields + 1
  | _ => 0

def nestingItems : List Value → Nat
  | [] => 0
  | a :: as => max (nesting a) (nestingItems as)

def nestingFields : List (String × Value) → Nat
  | [] => 0
  | (_, a) :: as => max (nesting a) (nestingFields as)

end

end Value

namespace Document

/-- The nesting of a document, itself counted. -/
def nesting (doc : Document) : Nat :=
  Value.nesting (.object doc)

/-- Equality of documents. -/
def eqv (a b : Document) : Bool :=
  Value.eqvFields a b

/-- The document that a value is; a value that is no mapping gives the empty one. -/
def ofValue (value : Value) : Document :=
  value.asObject?.getD []

end Document

end DocStore
