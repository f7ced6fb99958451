import DocStore.Document.Path
import DocStore.Json.Quoted

/-!
# Locators

What a path text names to the database engine. A text that starts with `file:` is a locator: a
host, a file name with escapes, and options that restrict how the file is opened. Any other text is
the name of a file. Some names stand for a database that no file keeps.
-/

namespace DocStore.Sql

/-- How a database is opened. -/
inductive OpenMode where
  | readOnly
  /-- Reading and writing a file that is there. -/
  | readWrite
  /-- Reading and writing a file that is made when it is missing. -/
  | create
  /-- Without a file. -/
  | memory
  deriving DecidableEq

namespace OpenMode

def ofName? (name : String) : Option OpenMode :=
  match name with
  | "ro" => some .readOnly
  | "rw" => some .readWrite
  | "rwc" => some .create
  | "memory" => some .memory
  | _ => none

def rank : OpenMode → Nat
  | .memory => 0
  | .readOnly => 1
  | .readWrite => 2
  | .create => 3

/-- Whether one mode may follow another: it must not allow more. What is in memory may become
anything. -/
def mayFollow (next current : OpenMode) : Bool :=
  current = .memory || next.rank ≤ current.rank

end OpenMode

/-- What is wrong with a locator. -/
inductive LocatorFault where
  | foreignHost (host : String)
  | unknownCache (name : String)
  | unknownMode (name : String)
  | deniedMode (name : String)
  | unknownSystem (name : String)
  deriving DecidableEq

def LocatorFault.message : LocatorFault → String
  | .foreignHost host => "invalid uri authority: " ++ host
  | .unknownCache name => "no such cache mode: " ++ name
  | .unknownMode name => "no such access mode: " ++ name
  | .deniedMode name => "access mode not allowed: " ++ name
  | .unknownSystem name => "no such vfs: " ++ name

/-- What a path text names. -/
structure Locator where
  name : String
  mode : OpenMode
  /-- The file system, when one is chosen. -/
  system : Option String
  /-- Whether nobody changes the file, once that is said. -/
  immutable : Option Bool
  deriving DecidableEq

namespace Locator

def ofName (name : String) : Locator := ⟨name, .create, none, none⟩

/-- The bytes that a text with escapes stands for, up to an escaped NUL. -/
def unescape : List Char → List UInt8
  | '%' :: a :: b :: rest =>
    match Json.hexNumber? [a, b] with
    | some 0 => []
    | some n => UInt8.ofNat n :: unescape rest
    | none => String.utf8EncodeChar '%' ++ unescape (a :: b :: rest)
  | c :: rest => String.utf8EncodeChar c ++ unescape rest
  | [] => []

/-- The text that a text with escapes stands for; empty when its bytes are no text. -/
def unescapeText (s : List Char) : String :=
  (String.fromUTF8? ⟨(unescape s).toArray⟩).getD ""

/-- The texts in front of a mark and behind it. -/
def splitAt (mark : Char) (s : List Char) : List Char × List Char :=
  (s.takeWhile (· != mark), (s.dropWhile (· != mark)).tail)

/-- The options of a query, those without a name left out. -/
def optionsOf (query : List Char) : List (String × String) :=
  ((splitOnChar '&' query).map fun option =>
    let (name, value) := splitAt '=' option
    (unescapeText name, unescapeText value)).filter (·.1 != "")

/-- Whether a value means yes: a number other than zero, or a word. -/
def isAffirmative (value : String) : Bool :=
  match value.toList.takeWhile Char.isDigit with
  | [] => ["on", "yes", "true"].contains value.toLower
  | digits => digits.any (· != '0')

/-- The locator with one option more. Of several modes and file systems the last one counts, of
several statements that nobody changes the file the first one. -/
def withOption (locator : Locator) (option : String × String) : Except LocatorFault Locator :=
  let (name, value) := option
  if name = "cache" then
    if value = "shared" ∨ value = "private" then .ok locator else .error (.unknownCache value)
  else if name = "mode" then
    match OpenMode.ofName? value with
    | none => .error (.unknownMode value)
    | some mode =>
      if mode.mayFollow locator.mode then .ok { locator with mode } else .error (.deniedMode value)
  else if name = "vfs" then .ok { locator with system := some value }
  else if name = "immutable" then
    .ok { locator with immutable := locator.immutable <|> some (isAffirmative value) }
  else .ok locator

/-- The file system that keeps nothing. -/
def memorySystem : String := "memdb"

def systems : List String :=
  ["unix", "unix-none", "unix-dotfile", "unix-excl", memorySystem]

/-- What stands behind the host. -/
def dropHost : List Char → Except LocatorFault (List Char)
  | '/' :: '/' :: rest =>
    let host := String.ofList (rest.takeWhile (· != '/'))
    if host = "" ∨ host = "localhost" then .ok (rest.dropWhile (· != '/'))
    else .error (.foreignHost host)
  | s => .ok s

/-- The locator that is written behind `file:`. -/
def ofBody (body : List Char) : Except LocatorFault Locator := do
  let rest ← dropHost body
  let (name, query) := splitAt '?' (splitAt '#' rest).1
  let locator ← (optionsOf query).foldlM withOption (ofName (unescapeText name))
  match locator.system.filter fun system => !systems.contains system with
  | some system => .error (.unknownSystem system)
  | none => .ok locator

def ofPath (path : String) : Except LocatorFault Locator :=
  match path.toList with
  | 'f' :: 'i' :: 'l' :: 'e' :: ':' :: body => ofBody body
  | _ => .ok (ofName path)

/-- Whether no file keeps the database. -/
def isUnkept (locator : Locator) : Bool :=
  locator.name = "" || locator.name = ":memory:" || locator.mode = .memory ||
    locator.system = some memorySystem

/-- Whether the file is not to be changed, in what it holds and beside it. -/
def isImmutable (locator : Locator) : Bool :=
  locator.immutable = some true

end Locator

end DocStore.Sql
