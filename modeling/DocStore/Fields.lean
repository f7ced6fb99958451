/-!
# Fields

A mapping is the list of its members. `Fields.insert` puts a member in front of the first greater
key, so a mapping that is only ever built by `insert` has its keys in ascending order, each once.
`Fields.put` puts a new member behind the others.
Main statements: reading after writing (`get?_insert_self`, `get?_insert_of_ne`), a later write
hides an earlier one (`insert_insert_self`).
-/

namespace DocStore

/-- The members of a mapping from names to `α`. -/
abbrev Fields (α : Type) := List (String × α)

namespace Fields

variable {α : Type}

/-- The value of the first member called `key`. -/
def get? (key : String) : Fields α → Option α
  | [] => none
  | (name, value) :: rest => if key = name then some value else get? key rest

/-- Sets the member `key`: in its old place when there is one, else before the first greater key. -/
def insert (key : String) (value : α) : Fields α → Fields α
  | [] => [(key, value)]
  | (name, old) :: rest =>
    if key = name then (key, value) :: rest
    else if key < name then (key, value) :: (name, old) :: rest
    else (name, old) :: insert key value rest

/-- Sets the member `key`: in its old place when there is one, else behind the others. -/
def put (key : String) (value : α) : Fields α → Fields α
  | [] => [(key, value)]
  | (name, old) :: rest =>
    if key = name then (key, value) :: rest else (name, old) :: put key value rest

/-- All members but the first one called `key`. -/
def erase (key : String) : Fields α → Fields α
  | [] => []
  | (name, value) :: rest => if key = name then rest else (name, value) :: erase key rest

/-- The mapping of a list of members: of two with one name the later one counts. -/
def ofMembers (members : List (String × α)) : Fields α :=
  members.foldl (fun fields member => insert member.1 member.2 fields) []

/-- Keys strictly ascend, so no name occurs twice. -/
def Ascending (fields : Fields α) : Prop :=
  fields.Pairwise fun a b => a.1 < b.1

@[simp] theorem get?_nil (key : String) : get? key ([] : Fields α) = none := rfl

@[simp] theorem get?_cons (key name : String) (value : α) (rest : Fields α) :
    get? key ((name, value) :: rest) = if key = name then some value else get? key rest := rfl

@[simp] theorem get?_insert_self (key : String) (value : α) (fields : Fields α) :
    get? key (insert key value fields) = some value := by
  induction fields with
  | nil => simp [insert]
  | cons member rest ih =>
    obtain ⟨name, old⟩ := member
    simp only [insert]
    split
    · simp
    · rename_i hne
      split <;> simp [hne, ih]

theorem get?_insert_of_ne {key other : String} (h : other ≠ key) (value : α) (fields : Fields α) :
    get? other (insert key value fields) = get? other fields := by
  induction fields with
  | nil => simp [insert, h]
  | cons member rest ih =>
    obtain ⟨name, old⟩ := member
    simp only [insert]
    split
    · rename_i he
      simp [← he, h]
    · split <;> simp [h, ih]

theorem get?_put_self (key : String) (value : α) (fields : Fields α) :
    get? key (put key value fields) = some value := by
  induction fields with
  | nil => simp [put]
  | cons member rest ih =>
    obtain ⟨name, old⟩ := member
    by_cases h : key = name <;> simp [put, h, ih]

theorem get?_put_of_ne {key other : String} (h : other ≠ key) (value : α) (fields : Fields α) :
    get? other (put key value fields) = get? other fields := by
  induction fields with
  | nil => simp [put, h]
  | cons member rest ih =>
    obtain ⟨name, old⟩ := member
    simp only [put]
    split
    · rename_i he
      simp [← he, h]
    · simp [ih]

theorem insert_insert_self (key : String) (first second : α) (fields : Fields α) :
    insert key second (insert key first fields) = insert key second fields := by
  induction fields with
  | nil => simp [insert]
  | cons member rest ih =>
    obtain ⟨name, old⟩ := member
    simp only [insert]
    split
    · simp [insert]
    · rename_i hne
      split
      · simp [insert]
      · rename_i hlt
        simp [insert, hne, hlt, ih]

end Fields

end DocStore
