import DocStore.Files.Tree
import DocStore.Sql.Locator

/-!
# Database files

Reading and writing a database as the engine does. The engine goes to a file by its shortest path
from the root, which must leave room for the names of the files beside it: the journal of a change
and a log of changes. Changes that a journal or a log tells of would be played back before the
database is read. No `Content` is a journal or a log with such changes, so what stands at their
places tells of none, and is only cleared away.
-/

namespace DocStore

/-- Why a database is not read or written. -/
inductive DatabaseFault where
  | nulByte (position : Nat)
  | locator (fault : Sql.LocatorFault)
  | unopened (path : String)
  /-- It was opened, but then could not be read or written. -/
  | unusable
  deriving DecidableEq

/-- The wording of a fault. The engine does not say why it gave up on an open database. -/
def DatabaseFault.message : DatabaseFault → String
  | .nulByte position => "nul byte found in provided data at position: " ++ toString position
  | .locator fault => fault.message
  | .unopened path => "unable to open database file: " ++ path
  | .unusable => "not an error"

/-- Whether a content starts with a NUL byte. -/
def Content.startsWithNul : Content → Bool
  | .text s => s.toList.head? == some '\x00'
  | .bytes raw _ => raw[0]? == some 0
  | .image _ => false

namespace FileTree

/-! ## Paths -/

/-- The bytes in front of the first NUL of a text; `none` when it has none. -/
def nulPosition? (s : String) : Option Nat :=
  let before := s.toList.takeWhile (· != '\x00')
  if before.length < s.toList.length then some (String.ofList before).utf8ByteSize else none

/-- The bytes of steps with a slash in front of each. -/
def stepsSize (steps : List String) : Nat :=
  steps.foldl (fun size step => size + 1 + step.utf8ByteSize) 0

/-- The length in bytes of the path from the root to a location. -/
def pathSize (tree : FileTree) (location : Location) : Nat :=
  if location.head? == some "/" then stepsSize location.tail
  else
    let base := (Route.ofText tree.workingDirectory).steps
    let up := (location.takeWhile (· == "..")).length
    stepsSize (base.take (base.length - up)) + stepsSize (location.drop up)

/-- What the length of a path from the root must stay below. -/
def databasePathBound : Nat := 512

/-- The length of what is appended to the names of files beside a database. -/
def companionRoom : Nat := 8

/-- The location that steps lead to. Each `..` takes back the step before it, whether that leads
anywhere or not. -/
def resolve (tree : FileTree) : Location → List String → Option Location
  | location, [] =>
    if tree.pathSize location + companionRoom ≤ databasePathBound then some location else none
  | location, step :: rest =>
    if step = ".." then resolve tree (above location) rest
    else
      let next := location ++ [step]
      if databasePathBound ≤ tree.pathSize next then none
      else
        match tree.entry? location with
        | some (.file _) => none
        | some .directory =>
          if nameLimit < step.utf8ByteSize then none else resolve tree next rest
        | none => resolve tree next rest

/-- The file of a database, made when it is missing and may be made. -/
def openDatabase? (tree : FileTree) (locator : Sql.Locator) : Option (Location × FileTree) := do
  let route := Route.ofText locator.name
  let location ← tree.resolve (start route.absolute) route.steps
  match tree.entry? location, tree.entry? (above location) with
  | some (.file _), _ => some (location, tree)
  | none, some .directory =>
    if locator.mode = .create then some (location, tree.put location (.file (.text ""))) else none
  | _, _ => none

/-! ## Files beside a database -/

/-- The place of a file beside a database. -/
def beside (location : Location) (suffix : String) : Location :=
  location.dropLast ++ [location.getLast?.getD "" ++ suffix]

/-- The place of the journal of a change. -/
def journal (location : Location) : Location := beside location "-journal"

def log (location : Location) : Location := beside location "-wal"

def logIndex (location : Location) : Location := beside location "-shm"

/-- Clears away what stands at the place of the journal: it tells of no changes to play back. An
empty file stays, and beside a database that is not empty one that starts with a NUL. -/
def clearJournal (tree : FileTree) (locator : Sql.Locator) (location : Location)
    (content : Content) : Outcome DatabaseFault FileTree Unit :=
  match tree.entry? (journal location) with
  | none => .pass () tree
  | some .directory => if content.isEmpty then .pass () tree else .fail .unusable tree
  | some (.file left) =>
    if left.isEmpty || (!content.isEmpty && left.startsWithNul) then .pass () tree
    else if locator.mode = .readOnly then
      if content.isEmpty then .pass () tree else .fail .unusable tree
    else .pass () (tree.erase (journal location))

/-- Clears away what stands at the place of the log, since it tells of no changes to play back, and
its index beside a database that is not empty. -/
def clearLog (tree : FileTree) (locator : Sql.Locator) (location : Location)
    (content : Content) : Outcome DatabaseFault FileTree Unit :=
  match tree.entry? (log location) with
  | none => .pass () tree
  | some .directory => .fail .unusable tree
  | some (.file left) =>
    if left.isEmpty || locator.mode = .readOnly then .pass () tree
    else if content.isEmpty then .pass () (tree.erase (log location))
    else
      match tree.entry? (logIndex location) with
      | some .directory => .fail .unusable tree
      | _ => .pass () ((tree.erase (log location)).erase (logIndex location))

/-- The image in an open file, once what is beside it is cleared away. -/
def readImage (tree : FileTree) (locator : Sql.Locator) (location : Location) :
    Outcome DatabaseFault FileTree Sql.Image :=
  match tree.entry? location with
  | some (.file content) =>
    let cleared := if locator.isImmutable then .pass () tree else
      (tree.clearJournal locator location content).andThen fun _ tree =>
        tree.clearLog locator location content
    cleared.andThen fun _ tree =>
      match content.asImage? with
      | some image => .pass image tree
      | none => .fail .unusable tree
  | _ => .fail .unusable tree

/-- Writes an image into an open file. The journal of this change must have a place. -/
def writeImage (tree : FileTree) (location : Location) (image : Sql.Image) :
    Outcome DatabaseFault FileTree Unit :=
  let place := journal location
  match tree.entry? place with
  | some .directory => .fail .unusable tree
  | _ =>
    if (place.getLast?.getD "").utf8ByteSize ≤ nameLimit then
      .pass () ((tree.erase place).put location (.file (.ofImage image)))
    else .fail .unusable tree

/-! ## Databases -/

/-- The image of the database that a path names. -/
def loadDatabase (tree : FileTree) (path : String) : Outcome DatabaseFault FileTree Sql.Image :=
  match Sql.Locator.ofPath path with
  | .error fault => .fail (.locator fault) tree
  | .ok locator =>
    if locator.isUnkept then .pass .empty tree
    else
      match tree.openDatabase? locator with
      | none => .fail (.unopened path) tree
      | some (location, tree) => tree.readImage locator location

/-- Makes an image the content of the database that a path names. -/
def saveDatabase (tree : FileTree) (path : String) (image : Sql.Image) :
    Outcome DatabaseFault FileTree Unit :=
  match nulPosition? path, Sql.Locator.ofPath path with
  | some position, _ => .fail (.nulByte position) tree
  | none, .error fault => .fail (.locator fault) tree
  | none, .ok locator =>
    if locator.isUnkept then
      if locator.mode = .readOnly then .fail .unusable tree else .pass () tree
    else
      match tree.openDatabase? locator with
      | none => .fail (.unopened path) tree
      | some (location, tree) =>
        if locator.mode = .readOnly || locator.isImmutable then .fail .unusable tree
        else
          (tree.readImage locator location).andThen fun _ tree => tree.writeImage location image

end FileTree

end DocStore
