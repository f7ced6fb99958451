import DocStore.Json.Tree
import DocStore.Value.Basic

/-!
# The text of a value

Values are stored and exchanged as JSON. `Value.textOnto` writes a value, compact or indented;
`Value.ofText?` reads either. A reader accepts at most `nestingLimit` nested arrays and objects and
no number beyond the greatest double; of two members of one name the later one counts.
-/

namespace DocStore

open Json (Tree NumberLiteral)

namespace Value

/-- Whether a text has line breaks and indentation. -/
inductive Layout where
  | compact
  | pretty
  deriving DecidableEq

namespace Layout

/-- The break before an item at nesting `depth`. -/
def lineBreak : Layout → Nat → List Char
  | .compact, _ => []
  | .pretty, depth => '\n' :: List.replicate (2 * depth) ' '

def colon : Layout → List Char
  | .compact => [':']
  | .pretty => [':', ' ']

end Layout

mutual

/-- Writes a value in front of `rest`; `depth` is the number of arrays and objects around it. -/
def textOnto (layout : Layout) (depth : Nat) : Value → List Char → List Char
  | .null, rest => 'n' :: 'u' :: 'l' :: 'l' :: rest
  | .bool true, rest => 't' :: 'r' :: 'u' :: 'e' :: rest
  | .bool false, rest => 'f' :: 'a' :: 'l' :: 's' :: 'e' :: rest
  | .int n, rest => Json.intText n.toInt ++ rest
  | .float x, rest => Json.floatText x ++ rest
  | .string s, rest => Json.quote s ++ rest
  | .array [], rest => '[' :: ']' :: rest
  | .array (item :: more), rest =>
    '[' :: layout.lineBreak (depth + 1) ++ textOnto layout (depth + 1) item
      (itemsOnto layout (depth + 1) more (layout.lineBreak depth ++ ']' :: rest))
  | .object [], rest => '{' :: '}' :: rest
  | .object ((name, value) :: more), rest =>
    '{' :: layout.lineBreak (depth + 1) ++ Json.quote name ++ layout.colon ++
      textOnto layout (depth + 1) value
        (membersOnto layout (depth + 1) more (layout.lineBreak depth ++ '}' :: rest))

/-- Writes the items after the first one of an array. -/
def itemsOnto (layout : Layout) (depth : Nat) : List Value → List Char → List Char
  | [], rest => rest
  | item :: more, rest =>
    ',' :: layout.lineBreak depth ++ textOnto layout depth item (itemsOnto layout depth more rest)

/-- Writes the members after the first one of an object. -/
def membersOnto (layout : Layout) (depth : Nat) :
    List (String × Value) → List Char → List Char
  | [], rest => rest
  | (name, value) :: more, rest =>
    ',' :: layout.lineBreak depth ++ Json.quote name ++ layout.colon ++
      textOnto layout depth value (membersOnto layout depth more rest)

end

def text (value : Value) (layout : Layout) : String :=
  String.ofList (textOnto layout 0 value [])

/-- The greatest nesting that a reader accepts. -/
def nestingLimit : Nat := 127

/-- The least and greatest 64-bit integer. -/
def intRange : Int × Int := (Int64.minValue.toInt, Int64.maxValue.toInt)

/-- The value of a number: an integer when it was written as one and fits, else a double. A number
that overflows has no value. -/
def ofNumber? (n : NumberLiteral) : Option Value :=
  match n.toInt?.filter fun whole => intRange.1 ≤ whole ∧ whole ≤ intRange.2 with
  | some whole => some (.int (Int64.ofInt whole))
  | none => n.toFinite?.map .float

mutual

/-- The value of a tree; `none` when a number overflows or a string has no text. -/
def ofTree? : Tree → Option Value
  | .null => some .null
  | .bool b => some (.bool b)
  | .number n => ofNumber? n
  | .string text => text.map .string
  | .array items => (ofItems? items).map .array
  | .object members => (ofMembers? members).map fun fields => .object (Fields.ofMembers fields)

def ofItems? : List Tree → Option (List Value)
  | [] => some []
  | tree :: rest =>
    match ofTree? tree, ofItems? rest with
    | some value, some values => some (value :: values)
    | _, _ => none

/-- The members of an object, in the order of the text. -/
def ofMembers? : List (Option String × Tree) → Option (List (String × Value))
  | [] => some []
  | (name, tree) :: rest =>
    match name, ofTree? tree, ofMembers? rest with
    | some name, some value, some members => some ((name, value) :: members)
    | _, _, _ => none

end

def ofText? (s : String) : Option Value := do
  let tree ← Tree.ofText? s
  guard (tree.nesting ≤ nestingLimit)
  ofTree? tree

end Value

namespace Document

def text (doc : Document) (layout : Value.Layout) : String :=
  Value.text (.object doc) layout

/-- The document that a text denotes; `none` also when it is another value. -/
def ofText? (s : String) : Option Document :=
  (Value.ofText? s).bind Value.asObject?

end Document

end DocStore
