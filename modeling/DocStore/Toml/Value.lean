import DocStore.Fields
import DocStore.Toml.DateTime

/-!
# TOML values

What a TOML text holds: a table of values. The members of a table stand in the order in which the
text first names them.

In the textual form of a value every date-time is the string of its normal form. A table whose first
key is `Value.dateTimeKey` stands for the date-time that the string at that key spells, whatever
else it holds; when no string that spells one is there, the value has no textual form.
-/

namespace DocStore.Toml

/-- A TOML value. -/
inductive Value where
  | string (s : String)
  | integer (n : Int64)
  | float (x : Binary64)
  | bool (b : Bool)
  | dateTime (t : DateTime)
  | array (items : List Value)
  | table (fields : List (String × Value))

instance : Inhabited Value := ⟨.bool false⟩

abbrev Table := Fields Value

namespace Value

/-- The key that turns a table into a date-time. -/
def dateTimeKey : String := "$__toml_private_datetime"

/-- The normal form of the date-time that a value spells. -/
def spelledDateTime? : Value → Option String
  | .string s => (DateTime.ofText? s).map DateTime.text
  | _ => none

mutual

def textual? : Value → Option Value
  | .dateTime t => some (.string t.text)
  | .array items => (textualItems? items).map .array
  | .table fields =>
    match fields with
    | (name, value) :: rest =>
      if name = dateTimeKey then (spelledDateTime? value).map .string
      else (textualMembers? ((name, value) :: rest)).map .table
    | [] => some (.table [])
  | value => some value

/-- The items of an array with their date-times as strings. -/
def textualItems? : List Value → Option (List Value)
  | [] => some []
  | item :: rest =>
    match textual? item, textualItems? rest with
    | some item, some items => some (item :: items)
    | _, _ => none

/-- The members of a table with their date-times as strings. -/
def textualMembers? : List (String × Value) → Option (List (String × Value))
  | [] => some []
  | (name, value) :: rest =>
    match textual? value, textualMembers? rest with
    | some value, some members => some ((name, value) :: members)
    | _, _ => none

end

end Value

namespace Table

/-- The table with its date-times as strings. Its own first key means nothing. -/
def textual? (table : Table) : Option Table :=
  Value.textualMembers? table

end Table

end DocStore.Toml
