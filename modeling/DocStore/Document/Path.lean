import DocStore.Value.Basic

/-!
# Paths

A path such as `package.name` addresses a value inside a document: each segment between dots,
an empty one too, names a member of the mapping reached so far. Arrays are not entered.
Main statements: reading at the path just written gives the value (`getAt?_setAt_self`), and two
writes at one path are the second one (`setAt_setAt_self`).
-/

namespace DocStore

/-- The pieces of a text between separators; there is always one more than there are separators. -/
def splitOnChar (separator : Char) : List Char → List (List Char)
  | [] => [[]]
  | c :: rest =>
    if c = separator then [] :: splitOnChar separator rest
    else
      match splitOnChar separator rest with
      | [] => [[c]]
      | piece :: more => (c :: piece) :: more

theorem splitOnChar_ne_nil (separator : Char) (s : List Char) : splitOnChar separator s ≠ [] := by
  cases s with
  | nil => simp [splitOnChar]
  | cons c rest =>
    simp only [splitOnChar]
    split
    · simp
    · split <;> simp

namespace Document

/-- The segments of a path. -/
def segments (path : String) : List String :=
  (splitOnChar '.' path.toList).map String.ofList

theorem segments_ne_nil (path : String) : segments path ≠ [] := by
  simp [segments, splitOnChar_ne_nil]

/-- The mapping in the member `key`; empty when there is none. -/
def child (key : String) (doc : Document) : Document :=
  ((Fields.get? key doc).bind Value.asObject?).getD []

def getAt? : List String → Document → Option Value
  | [], _ => none
  | [key], doc => Fields.get? key doc
  | key :: next :: more, doc =>
    match Fields.get? key doc with
    | some (.object inner) => getAt? (next :: more) inner
    | _ => none

/-- Sets the value at a list of segments. A mapping is made where one is missing, in place of a
scalar or array too. -/
def setAt : List String → Value → Document → Document
  | [], _, doc => doc
  | [key], value, doc => Fields.insert key value doc
  | key :: next :: more, value, doc =>
    Fields.insert key (.object (setAt (next :: more) value (child key doc))) doc

/-- The value at a path; `none` when a segment is absent or lies behind no mapping. -/
def get? (doc : Document) (path : String) : Option Value :=
  getAt? (segments path) doc

def set (doc : Document) (path : String) (value : Value) : Document :=
  setAt (segments path) value doc

theorem getAt?_setAt_self (keys : List String) (h : keys ≠ []) (value : Value) (doc : Document) :
    getAt? keys (setAt keys value doc) = some value := by
  induction keys generalizing doc with
  | nil => exact absurd rfl h
  | cons key rest ih =>
    cases rest with
    | nil => simp [getAt?, setAt]
    | cons next more => simp [getAt?, setAt, ih]

theorem get?_set_self (doc : Document) (path : String) (value : Value) :
    (doc.set path value).get? path = some value :=
  getAt?_setAt_self (segments path) (segments_ne_nil path) value doc

theorem setAt_setAt_self (keys : List String) (first second : Value) (doc : Document) :
    setAt keys second (setAt keys first doc) = setAt keys second doc := by
  induction keys generalizing doc with
  | nil => rfl
  | cons key rest ih =>
    cases rest with
    | nil => simp [setAt, Fields.insert_insert_self]
    | cons next more =>
      simp [setAt, child, Value.asObject?, Fields.insert_insert_self, ih]

end Document

end DocStore
