import DocStore.Fields

/-!
# Locations

A map from locations to entries, as a tree that branches at every step of a location. Main
statements: an insertion and an erasure show at their own location (`get?_insert_self`,
`get?_erase_self`) and nowhere else (`get?_insert_of_ne`, `get?_erase_of_ne`).
-/

namespace DocStore

/-- A place in a file tree: the names on the way from the working directory, or, behind a slash,
from the root. A place above the working directory starts with as many `..` as it lies above. -/
abbrev Location := List String

/-- A map from locations to `α`: what is at the place itself, and the maps behind its steps. -/
inductive LocationMap (α : Type) where
  | node (here : Option α) (branches : List (String × LocationMap α))

namespace LocationMap

variable {α : Type}

def empty : LocationMap α := .node none []

def get? : Location → LocationMap α → Option α
  | [], .node here _ => here
  | step :: rest, .node _ branches => (Fields.get? step branches).bind (get? rest)

def branch (step : String) : LocationMap α → LocationMap α
  | .node _ branches => (Fields.get? step branches).getD empty

def modify (change : LocationMap α → LocationMap α) : Location → LocationMap α → LocationMap α
  | [], map => change map
  | step :: rest, .node here branches =>
    .node here (Fields.put step (modify change rest (branch step (.node here branches))) branches)

/-- The map with something else at the place itself. -/
def withHere (here : Option α) : LocationMap α → LocationMap α
  | .node _ branches => .node here branches

def insert (location : Location) (value : α) (map : LocationMap α) : LocationMap α :=
  modify (withHere (some value)) location map

def erase (location : Location) (map : LocationMap α) : LocationMap α :=
  modify (withHere none) location map

/-- Takes away what is at a location and behind it. -/
def prune (location : Location) (map : LocationMap α) : LocationMap α :=
  modify (fun _ => empty) location map

theorem get?_empty (location : Location) : get? location (empty : LocationMap α) = none := by
  cases location <;> simp [get?, empty]

theorem get?_cons (step : String) (rest : Location) (map : LocationMap α) :
    get? (step :: rest) map = get? rest (branch step map) := by
  obtain ⟨here, branches⟩ := map
  simp only [get?, branch]
  cases Fields.get? step branches <;> simp [get?_empty]

theorem get?_modify_self (change : LocationMap α → LocationMap α) (location rest : Location)
    (map : LocationMap α) :
    get? (location ++ rest) (modify change location map) =
      get? rest (change (location.foldl (fun map step => branch step map) map)) := by
  induction location generalizing map with
  | nil => rfl
  | cons step more ih =>
    obtain ⟨here, branches⟩ := map
    simp [modify, get?, Fields.get?_put_self, ih]

theorem get?_withHere_of_ne (here : Option α) {location : Location} (h : location ≠ [])
    (map : LocationMap α) : get? location (withHere here map) = get? location map := by
  obtain ⟨old, branches⟩ := map
  cases location with
  | nil => exact absurd rfl h
  | cons step rest => rfl

/-- A change of what is at one place does not show at another. -/
theorem get?_modify_withHere_of_ne (here : Option α) {location other : Location}
    (h : other ≠ location) (map : LocationMap α) :
    get? other (modify (withHere here) location map) = get? other map := by
  induction location generalizing other map with
  | nil => exact get?_withHere_of_ne here h map
  | cons step rest ih =>
    obtain ⟨old, branches⟩ := map
    cases other with
    | nil => rfl
    | cons first more =>
      by_cases hs : first = step
      · subst hs
        have hne : more ≠ rest := fun he => h (by rw [he])
        rw [get?_cons first more (.node old branches)]
        simp [modify, get?, Fields.get?_put_self, ih hne]
      · simp [modify, get?, Fields.get?_put_of_ne hs]

theorem get?_insert_self (location : Location) (value : α) (map : LocationMap α) :
    get? location (insert location value map) = some value := by
  have h := get?_modify_self (withHere (some value)) location [] map
  rw [List.append_nil] at h
  rw [insert, h]
  cases location.foldl (fun map step => branch step map) map
  rfl

theorem get?_erase_self (location : Location) (map : LocationMap α) :
    get? location (erase location map) = none := by
  have h := get?_modify_self (withHere none) location [] map
  rw [List.append_nil] at h
  rw [erase, h]
  cases location.foldl (fun map step => branch step map) map
  rfl

theorem get?_insert_of_ne {location other : Location} (h : other ≠ location) (value : α)
    (map : LocationMap α) : get? other (insert location value map) = get? other map :=
  get?_modify_withHere_of_ne _ h map

theorem get?_erase_of_ne {location other : Location} (h : other ≠ location)
    (map : LocationMap α) : get? other (erase location map) = get? other map :=
  get?_modify_withHere_of_ne _ h map

end LocationMap

end DocStore
