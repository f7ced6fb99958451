import DocStore.Json.Number

/-!
# Dates and times

A date, a time of day, or both with an offset from universal time. `DateTime.split` reads one at the
start of a text, `DateTime.text` writes the normal form: a `T` in front of the time, a fraction
without trailing zeros, `Z` for universal time. A text that is nothing but a date-time
(`DateTime.ofText?`) may say a little more than one within a document.
-/

namespace DocStore.Toml

/-- What was read at the start of a text, and the rest. -/
abbrev Split (α : Type) := Option (α × List Char)

/-- A day of the calendar. -/
structure Date where
  year : Nat
  month : Nat
  day : Nat
  deriving DecidableEq

/-- A time of day. -/
structure TimeOfDay where
  hour : Nat
  minute : Nat
  second : Nat
  nanosecond : Nat
  deriving DecidableEq

/-- The difference from universal time. -/
inductive Offset where
  | universal
  | minutes (n : Int)
  deriving DecidableEq

/-- A date, a time, or both. -/
structure DateTime where
  date : Option Date
  time : Option TimeOfDay
  offset : Option Offset
  deriving DecidableEq

/-! ## Writing -/

/-- A number with zeros in front of it up to a width. -/
def paddedText (width n : Nat) : List Char :=
  let digits := Json.natText n
  List.replicate (width - digits.length) '0' ++ digits

/-- The digits of a part of a second, without trailing zeros. -/
def nanosecondDigits (nanosecond : Nat) : List Char :=
  ((paddedText 9 nanosecond).reverse.dropWhile (· == '0')).reverse

namespace DateTime

def dateText (date : Date) : List Char :=
  paddedText 4 date.year ++ '-' :: paddedText 2 date.month ++ '-' :: paddedText 2 date.day

def timeText (time : TimeOfDay) : List Char :=
  paddedText 2 time.hour ++ ':' :: paddedText 2 time.minute ++ ':' :: paddedText 2 time.second ++
    (if time.nanosecond = 0 then [] else '.' :: nanosecondDigits time.nanosecond)

def offsetText : Offset → List Char
  | .universal => ['Z']
  | .minutes n =>
    (if n < 0 then '-' else '+') :: paddedText 2 (n.natAbs / 60) ++ ':' ::
      paddedText 2 (n.natAbs % 60)

def text (dateTime : DateTime) : String :=
  let date := (dateTime.date.map dateText).getD []
  let mark := if dateTime.date.isSome && dateTime.time.isSome then ['T'] else []
  let time := (dateTime.time.map timeText).getD []
  let offset := (dateTime.offset.map offsetText).getD []
  String.ofList (date ++ mark ++ time ++ offset)

end DateTime

/-! ## Reading -/

/-- A number of exactly `count` digits within bounds. -/
def splitField (count low high : Nat) (s : List Char) : Split Nat :=
  let digits := s.take count
  let n := Json.digitsValue digits
  if digits.length = count ∧ digits.all Char.isDigit ∧ low ≤ n ∧ n ≤ high then
    some (n, s.drop count)
  else none

def splitMark? (mark : Char) : List Char → Option (List Char)
  | c :: rest => if c = mark then some rest else none
  | [] => none

def daysInMonth (year month : Nat) : Nat :=
  if month = 2 then
    if year % 4 = 0 ∧ (year % 100 ≠ 0 ∨ year % 400 = 0) then 29 else 28
  else if month = 4 ∨ month = 6 ∨ month = 9 ∨ month = 11 then 30
  else 31

def splitDate (s : List Char) : Option (Date × List Char) := do
  let (year, s) ← splitField 4 0 9999 s
  let s ← splitMark? '-' s
  let (month, s) ← splitField 2 1 12 s
  let s ← splitMark? '-' s
  let (day, s) ← splitField 2 1 (daysInMonth year month) s
  return (⟨year, month, day⟩, s)

/-- The nanoseconds that a fraction of a second stands for, when there is one. Digits after the
ninth do not count. -/
def splitNanosecond : List Char → Nat × List Char
  | '.' :: c :: rest =>
    if c.isDigit then
      let digits := (c :: rest.takeWhile Char.isDigit).take 9
      (Json.digitsValue (digits ++ List.replicate (9 - digits.length) '0'),
        rest.dropWhile Char.isDigit)
    else (0, '.' :: c :: rest)
  | s => (0, s)

/-- What the parts of a date-time are limited to. -/
structure DateTimeBounds where
  latestHour : Nat
  /-- Whether there is an offset of so many hours and minutes. -/
  allowsOffset : Nat → Nat → Bool

namespace DateTimeBounds

def document : DateTimeBounds :=
  ⟨23, fun hours minutes => hours ≤ 23 && minutes ≤ 59⟩

/-- The bounds in a text that is nothing but a date-time: up to a whole day. -/
def wholeDay : DateTimeBounds :=
  ⟨24, fun hours minutes => 60 * hours + minutes ≤ 24 * 60⟩

end DateTimeBounds

def splitTime (bounds : DateTimeBounds) (s : List Char) : Option (TimeOfDay × List Char) := do
  let (hour, s) ← splitField 2 0 bounds.latestHour s
  let s ← splitMark? ':' s
  let (minute, s) ← splitField 2 0 59 s
  let s ← splitMark? ':' s
  let (second, s) ← splitField 2 0 60 s
  let (nanosecond, s) := splitNanosecond s
  return (⟨hour, minute, second, nanosecond⟩, s)

/-- An offset in hours and minutes, whose sign was read. -/
def splitHourOffset (bounds : DateTimeBounds) (negative : Bool) (s : List Char) :
    Option (Offset × List Char) := do
  let (hours, s) ← splitField 2 0 99 s
  let s ← splitMark? ':' s
  let (minutes, s) ← splitField 2 0 99 s
  guard (bounds.allowsOffset hours minutes)
  return (.minutes (Binary64.signed negative (60 * hours + minutes)), s)

def splitOffset (bounds : DateTimeBounds) : List Char → Split Offset
  | 'Z' :: rest | 'z' :: rest => some (.universal, rest)
  | '+' :: rest => splitHourOffset bounds false rest
  | '-' :: rest => splitHourOffset bounds true rest
  | _ => none

def isTimeMark (c : Char) : Bool :=
  c == 'T' || c == 't' || c == ' '

namespace DateTime

/-- What follows a date belongs to it as far as it is a time and an offset. -/
def splitAfterDate (bounds : DateTimeBounds) (date : Date) (s : List Char) :
    DateTime × List Char :=
  match s with
  | c :: rest =>
    match if isTimeMark c then splitTime bounds rest else none with
    | none => (⟨date, none, none⟩, s)
    | some (time, rest) =>
      match splitOffset bounds rest with
      | none => (⟨date, time, none⟩, rest)
      | some (offset, rest) => (⟨date, time, offset⟩, rest)
  | [] => (⟨date, none, none⟩, [])

/-- The date-time at the start of a text, and the rest. -/
def split (bounds : DateTimeBounds) (s : List Char) : Split DateTime :=
  match splitDate s with
  | some (date, rest) => some (splitAfterDate bounds date rest)
  | none => (splitTime bounds s).map fun (time, rest) => (⟨none, time, none⟩, rest)

def ofText? (s : String) : Option DateTime :=
  match split .wholeDay s.toList with
  | some (dateTime, []) => some dateTime
  | _ => none

end DateTime

end DocStore.Toml
