import DocStore.Json.Token

/-!
# Syntax trees

A JSON text as a tree: members in the order of the text, repeated names kept, numbers as they were
written. Any nesting is read; the arrays and objects that are still open are kept on a stack.
-/

namespace DocStore.Json

/-- A JSON text without its blanks. -/
inductive Tree where
  | null
  | bool (b : Bool)
  | number (n : NumberLiteral)
  | string (text : Option String)
  | array (items : List Tree)
  | object (members : List (Option String × Tree))

/-- An array or object that is still open, its items or members so far last one first. An object
waits for the value of the member `name`. -/
inductive Open where
  | array (items : List Tree)
  | object (members : List (Option String × Tree)) (name : Option String)

namespace Tree

mutual

/-- Reads a value; `stack` holds what is open around it, innermost first. -/
def value (stack : List Open) : List Token → Option Tree
  | .null :: rest => close .null stack rest
  | .bool b :: rest => close (.bool b) stack rest
  | .number n :: rest => close (.number n) stack rest
  | .string text :: rest => close (.string text) stack rest
  | .openBracket :: .closeBracket :: rest => close (.array []) stack rest
  | .openBracket :: rest => value (.array [] :: stack) rest
  | .openBrace :: .closeBrace :: rest => close (.object []) stack rest
  | .openBrace :: .string name :: .colon :: rest => value (.object [] name :: stack) rest
  | _ => none

def close (tree : Tree) : List Open → List Token → Option Tree
  | [], [] => some tree
  | .array items :: stack, .comma :: rest => value (.array (tree :: items) :: stack) rest
  | .array items :: stack, .closeBracket :: rest =>
    close (.array (tree :: items).reverse) stack rest
  | .object members name :: stack, .comma :: .string next :: .colon :: rest =>
    value (.object ((name, tree) :: members) next :: stack) rest
  | .object members name :: stack, .closeBrace :: rest =>
    close (.object ((name, tree) :: members).reverse) stack rest
  | _, _ => none

end

/-- The tree of a text; `none` when it is not JSON. -/
def ofText? (s : String) : Option Tree :=
  (Token.scan s.toList).bind (value [])

mutual

/-- How deep arrays and objects are nested; a scalar has nesting 0. -/
def nesting : Tree → Nat
  | .array items => nestingItems items + 1
  | .object members => nestingMembers members + 1
  | _ => 0

def nestingItems : List Tree → Nat
  | [] => 0
  | tree :: rest => max (nesting tree) (nestingItems rest)

def nestingMembers : List (Option String × Tree) → Nat
  | [] => 0
  | (_, tree) :: rest => max (nesting tree) (nestingMembers rest)

end

end Tree

end DocStore.Json
