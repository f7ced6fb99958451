import DocStore.Files.Location
import DocStore.Files.Path
import DocStore.Outcome
import DocStore.Sql.Image

/-!
# File trees

A file tree maps locations to files and directories. An operation on a path first walks to its
location, as the operating system does: each step but the last must be a directory that is there,
and neither a name nor the whole path may be too long. An operation that fails leaves the tree as it
was, but `createDirectories` keeps what it made. A file is replaced by writing a temporary file
beside it that then takes its name, so that a failure on the way leaves the file as it was.
-/

namespace DocStore

namespace Sql

/-- What a journal of the engine starts with. One that tells of a change to several databases also
ends with it. -/
def journalMark : List UInt8 := [0xd9, 0xd5, 0x05, 0xf9, 0x20, 0xa1, 0x63, 0xd7]

/-- What a log of the engine starts with, in its two orders of bytes. -/
def logMarks : List (List UInt8) := [[0x37, 0x7f, 0x06, 0x82], [0x37, 0x7f, 0x06, 0x83]]

/-- Whether bytes look like a journal or a log, whose changes the engine would play back. -/
def tellsChanges (raw : ByteArray) : Bool :=
  let bytes := raw.data.toList
  journalMark.isPrefixOf bytes || journalMark.isSuffixOf bytes || logMarks.any (·.isPrefixOf bytes)

end Sql

/-- What a file holds. A database of the engine is given by its tables, whatever its bytes are, so
no text and no other bytes are one. Journals and logs with changes to play back are left out: no
content is one of them. -/
inductive Content where
  | text (s : String)
  /-- Bytes that are no UTF-8 text. -/
  | bytes (raw : ByteArray) (plain : Sql.tellsChanges raw = false)
  | image (tables : Sql.Image)

namespace Content

/-- The content of a file with the given bytes. For a journal or a log of the engine, which is no
content, a byte that is no text stands in. -/
def ofBytes (raw : ByteArray) : Content :=
  match String.fromUTF8? raw with
  | some s => .text s
  | none =>
    if plain : Sql.tellsChanges raw = false then .bytes raw plain
    else .bytes ⟨#[0xff]⟩ (by decide)

/-- The content that a database image is. One without tables is an empty file. -/
def ofImage (tables : Sql.Image) : Content :=
  if tables.tables.isEmpty then .text "" else .image tables

def isEmpty : Content → Bool
  | .text s => s.isEmpty
  | .bytes raw _ => raw.isEmpty
  | .image _ => false

/-- The database image that a file holds. An empty file is an image without tables. -/
def asImage? : Content → Option Sql.Image
  | .image tables => some tables
  | .text s => if s.isEmpty then some .empty else none
  | .bytes _ _ => none

end Content

/-- A file or a directory. -/
inductive Entry where
  | file (content : Content)
  | directory

/-- Why an operation on files fails. -/
inductive FileFault where
  | notFound
  | alreadyExists
  | isADirectory
  | notADirectory
  | resourceBusy
  | invalidInput
  | invalidFilename
  | invalidData
  deriving DecidableEq

/-- The files and directories by their locations. The working directory, the directories above it
and the root are always there. -/
structure FileTree where
  /-- The path of the working directory. -/
  workingDirectory : String
  entries : LocationMap Entry

namespace FileTree

/-- The tree of an empty working directory. -/
def empty (workingDirectory : String) : FileTree := ⟨workingDirectory, .empty⟩

def start (absolute : Bool) : Location :=
  if absolute then ["/"] else []

/-- Whether a location is that of a directory which is always there. -/
def isStart (location : Location) : Bool :=
  location == ["/"] || location.all (· == "..")

/-- The location of the directory that a location lies in. -/
def above (location : Location) : Location :=
  if location == ["/"] then location
  else if location.all (· == "..") then location ++ [".."]
  else location.dropLast

def entry? (tree : FileTree) (location : Location) : Option Entry :=
  if isStart location then some .directory else tree.entries.get? location

/-- Puts an entry at a location, in place of what was there. -/
def put (tree : FileTree) (location : Location) (entry : Entry) : FileTree :=
  { tree with entries := tree.entries.insert location entry }

def erase (tree : FileTree) (location : Location) : FileTree :=
  { tree with entries := tree.entries.erase location }

/-- The length of a name, in bytes, that is still allowed. -/
def nameLimit : Nat := 255

/-- The length of a path, in bytes, that is still allowed. -/
def pathLimit : Nat := 4095

/-- The location that steps lead to from a location. -/
def walk (tree : FileTree) : Location → List String → Except FileFault Location
  | location, [] => .ok location
  | location, step :: rest =>
    match tree.entry? location with
    | none => .error .notFound
    | some (.file _) => .error .notADirectory
    | some .directory =>
      if step = ".." then walk tree (above location) rest
      else if nameLimit < step.utf8ByteSize then .error .invalidFilename
      else walk tree (location ++ [step]) rest

def textFault? (path : String) : Option FileFault :=
  if path.toList.contains '\x00' then some .invalidInput
  else if pathLimit < path.utf8ByteSize then some .invalidFilename
  else none

def locate (tree : FileTree) (path : String) : Except FileFault Location :=
  match textFault? path with
  | some fault => .error fault
  | none =>
    if path.isEmpty then .error .notFound
    else
      let route := Route.ofText path
      tree.walk (start route.absolute) route.steps

def at? (tree : FileTree) (path : String) : Except FileFault Entry := do
  let location ← tree.locate path
  match tree.entry? location with
  | none => .error .notFound
  | some .directory => .ok .directory
  | some (.file content) =>
    if (Route.ofText path).asDirectory then .error .notADirectory else .ok (.file content)

def isFile (tree : FileTree) (path : String) : Bool :=
  match tree.at? path with
  | .ok (.file _) => true
  | _ => false

def isDirectory (tree : FileTree) (path : String) : Bool :=
  match tree.at? path with
  | .ok .directory => true
  | _ => false

def contains (tree : FileTree) (path : String) : Bool :=
  (tree.at? path).toOption.isSome

def read (tree : FileTree) (path : String) : Except FileFault Content := do
  match ← tree.at? path with
  | .file content => .ok content
  | .directory => .error .isADirectory

def readText (tree : FileTree) (path : String) : Except FileFault String := do
  match ← tree.read path with
  | .text s => .ok s
  | _ => .error .invalidData

/-- Writes a file, in place of the one that is there. -/
def write (tree : FileTree) (path : String) (content : Content) : Except FileFault FileTree := do
  let location ← tree.locate path
  let asDirectory := (Route.ofText path).asDirectory
  match tree.entry? location with
  | some .directory => .error .isADirectory
  | some (.file _) =>
    if asDirectory then .error .notADirectory else .ok (tree.put location (.file content))
  | none => if asDirectory then .error .isADirectory else .ok (tree.put location (.file content))

/-- Makes the directories that are missing along steps from a directory. `making` tells that one was
made on the way. What was made before a failure stays. -/
def createAlong (tree : FileTree) (making : Bool) (location : Location) :
    List String → Outcome FileFault FileTree Unit
  | [] => .pass () tree
  | step :: rest =>
    if step = ".." then createAlong tree making (above location) rest
    else if nameLimit < step.utf8ByteSize then .fail .invalidFilename tree
    else
      let next := location ++ [step]
      match tree.entry? next with
      | some .directory => createAlong tree making next rest
      | some (.file _) =>
        .fail (if making || rest.isEmpty then .alreadyExists else .notADirectory) tree
      | none => createAlong (tree.put next .directory) true next rest

/-- Makes the directories that are missing along a path. -/
def createDirectories (tree : FileTree) (path : String) : Outcome FileFault FileTree Unit :=
  match textFault? path with
  | some fault => .fail fault tree
  | none =>
    let route := Route.ofText path
    tree.createAlong false (start route.absolute) route.steps

/-- Makes the directories that are missing above a path. -/
def createParents (tree : FileTree) (path : String) : Outcome FileFault FileTree Unit :=
  tree.createDirectories (FilePath.parent path)

/-- Whether a path ends in a name, so that what is there can be replaced. -/
def endsInName (path : String) : Bool :=
  match ((FilePath.pieces path).filter (· != "")).getLast? with
  | none => false
  | some step => step != "." && step != ".."

/-- Moves a file, in place of the file that is at the target. -/
def rename (tree : FileTree) (source target : String) : Except FileFault FileTree := do
  let origin ← tree.locate source
  let goal ← tree.locate target
  if !endsInName source || !endsInName target then .error .resourceBusy
  else
    match tree.entry? origin with
    | none => .error .notFound
    | some .directory => .error .isADirectory
    | some (.file content) =>
      if (Route.ofText source).asDirectory || (Route.ofText target).asDirectory then
        .error .notADirectory
      else
        match tree.entry? goal with
        | some .directory => .error .isADirectory
        | _ => .ok ((tree.erase origin).put goal (.file content))

def removeFile (tree : FileTree) (path : String) : Except FileFault FileTree := do
  let location ← tree.locate path
  match tree.entry? location with
  | none => .error .notFound
  | some .directory => .error .isADirectory
  | some (.file _) =>
    if (Route.ofText path).asDirectory then .error .notADirectory else .ok (tree.erase location)

/-- Removes a file, or a directory with all that is in it. -/
def removeAll (tree : FileTree) (path : String) : Except FileFault FileTree := do
  match ← tree.at? path with
  | .file _ => tree.removeFile path
  | .directory =>
    let location ← tree.locate path
    if isStart location then .error .invalidInput
    else .ok { tree with entries := tree.entries.prune location }

/-- The outcome of a change that a failure leaves undone. -/
def attempt (tree : FileTree) (change : Except FileFault FileTree) :
    Outcome FileFault FileTree Unit :=
  .ofExcept tree (change.map fun changed => ((), changed))

/-- Gives the temporary file beside a path its name. -/
def adopt (tree : FileTree) (path : String) : Outcome FileFault FileTree Unit :=
  tree.attempt (tree.rename (FilePath.sibling path) path)

/-- Removes the file at a path, if something is there. -/
def clear (tree : FileTree) (path : String) : Outcome FileFault FileTree Unit :=
  if tree.contains path then tree.attempt (tree.removeFile path) else .pass () tree

/-- Puts `content` at a path. Directories above it are made, and what is at the temporary file's
place is overwritten. -/
def replace (tree : FileTree) (path : String) (content : Content) :
    Outcome FileFault FileTree Unit :=
  (tree.createParents path).andThen fun _ tree =>
    (tree.attempt (tree.write (FilePath.sibling path) content)).andThen fun _ tree =>
      tree.adopt path

end FileTree

end DocStore
