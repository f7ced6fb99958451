import DocStore.Document.Path

/-!
# File paths

A path is a text with steps between slashes. `FilePath.join`, `FilePath.sibling` and
`FilePath.parent` build texts; a `Route` is what a text leads along: its steps without the empty
ones and the dots.
-/

namespace DocStore

/-- The way that a path leads. Steps are names or `..`. -/
structure Route where
  absolute : Bool
  steps : List String
  /-- The text ends in a slash or a dot, so the path names a directory. -/
  asDirectory : Bool
  deriving DecidableEq

namespace FilePath

def isRelative (path : String) : Bool :=
  path.toList.head? != some '/'

/-- The path of a file in a directory. An absolute file stands for itself, and an empty directory
adds nothing. -/
def join (directory file : String) : String :=
  if !isRelative file || directory.isEmpty then file
  else if directory.toList.getLast? == some '/' then directory ++ file
  else directory ++ "/" ++ file

/-- The path of the temporary file beside a file. -/
def sibling (path : String) : String :=
  path ++ ".tmp"

def pieces (path : String) : List String :=
  (splitOnChar '/' path.toList).map String.ofList

def isIdle (piece : String) : Bool :=
  piece == "" || piece == "."

/-- The path without its last step; empty when there is none before it. -/
def parent (path : String) : String :=
  let steps := (pieces path).reverse.dropWhile isIdle
  "/".intercalate (steps.tail.dropWhile isIdle).reverse

end FilePath

namespace Route

def ofText (path : String) : Route :=
  let pieces := FilePath.pieces path
  { absolute := !FilePath.isRelative path
    steps := pieces.filter (!FilePath.isIdle ·)
    asDirectory := pieces.getLast?.any FilePath.isIdle }

end Route

end DocStore
