import DocStore.Files.Tree
import Mathlib.Tactic.Lemma

/-!
# What file operations leave behind

A path names one location, whatever is in the tree (`locate_eq_location`). An operation
`AddsOnly P` when each file that it leaves was there before, or has a content with the property `P`;
so a property of the contents at a location outlasts every operation that puts only contents with
that property (`AddsOnly.heldAt`).
-/

namespace DocStore

lemma Outcome.answer_andThen_eq_ok {ε σ α β : Type} {first : Outcome ε σ α}
    {next : α → σ → Outcome ε σ β} {result : β} (h : (first.andThen next).answer = .ok result) :
    ∃ value, first.answer = .ok value ∧ (next value first.state).answer = .ok result := by
  obtain ⟨_ | value, state⟩ := first
  · cases h
  · exact ⟨value, rfl, h⟩

lemma Outcome.andThen_of_ok {ε σ α β : Type} {first : Outcome ε σ α}
    {next : α → σ → Outcome ε σ β} {value : α} (h : first.answer = .ok value) :
    first.andThen next = next value first.state := by
  obtain ⟨answer, state⟩ := first
  cases h
  rfl

def Route.descend (location : Location) (step : String) : Location :=
  if step = ".." then FileTree.above location else location ++ [step]

def Route.location (route : Route) : Location :=
  route.steps.foldl Route.descend (FileTree.start route.absolute)

namespace FileTree

def locationOf (path : String) : Location :=
  (Route.ofText path).location

lemma walk_eq_foldl {tree : FileTree} {location goal : Location} {steps : List String}
    (h : tree.walk location steps = .ok goal) : goal = steps.foldl Route.descend location := by
  induction steps generalizing location with
  | nil =>
    cases h
    rfl
  | cons step rest ih =>
    rw [walk] at h
    split at h
    · cases h
    · cases h
    · rw [List.foldl_cons, Route.descend]
      split at h
      · rename_i hup
        rw [if_pos hup]
        exact ih h
      · rename_i hup
        split at h
        · cases h
        · rw [if_neg hup]
          exact ih h

lemma locate_eq_location {tree : FileTree} {path : String} {location : Location}
    (h : tree.locate path = .ok location) : location = locationOf path := by
  unfold locate at h
  split at h
  · cases h
  · split at h
    · cases h
    · exact walk_eq_foldl h

lemma walk_of_directories {tree after : FileTree}
    (h : ∀ place, tree.entry? place = some .directory → after.entry? place = some .directory)
    {location goal : Location} {steps : List String}
    (hwalk : tree.walk location steps = .ok goal) : after.walk location steps = .ok goal := by
  induction steps generalizing location with
  | nil => exact hwalk
  | cons step rest ih =>
    rw [walk] at hwalk ⊢
    split at hwalk
    · cases hwalk
    · cases hwalk
    · rename_i hentry
      rw [h location hentry]
      dsimp only
      split at hwalk
      · rename_i hup
        rw [if_pos hup]
        exact ih hwalk
      · rename_i hup
        rw [if_neg hup]
        split at hwalk
        · cases hwalk
        · rename_i hshort
          rw [if_neg hshort]
          exact ih hwalk

lemma locate_of_directories {tree after : FileTree}
    (h : ∀ place, tree.entry? place = some .directory → after.entry? place = some .directory)
    {path : String} {location : Location} (hlocate : tree.locate path = .ok location) :
    after.locate path = .ok location := by
  unfold locate at hlocate ⊢
  split at hlocate
  · cases hlocate
  · split at hlocate
    · cases hlocate
    · rename_i hempty
      rw [if_neg hempty]
      exact walk_of_directories h hlocate

lemma entry?_put (tree : FileTree) (location other : Location) (entry : Entry) :
    entry? (tree.put location entry) other =
      if isStart other then some .directory
      else if other = location then some entry else tree.entry? other := by
  unfold entry? put
  split
  · rfl
  · split
    · rename_i heq
      rw [heq]
      exact LocationMap.get?_insert_self _ _ _
    · rename_i hne
      exact LocationMap.get?_insert_of_ne hne _ _

lemma entry?_erase (tree : FileTree) (location other : Location) :
    entry? (tree.erase location) other =
      if isStart other then some .directory
      else if other = location then none else tree.entry? other := by
  unfold entry? erase
  split
  · rfl
  · split
    · rename_i heq
      rw [heq]
      exact LocationMap.get?_erase_self _ _
    · rename_i hne
      exact LocationMap.get?_erase_of_ne hne _

/-- The property of the content at a location, if a file is there. -/
def HeldAt (P : Content → Prop) (location : Location) (tree : FileTree) : Prop :=
  ∀ content, tree.entry? location = some (.file content) → P content

/-- Each file of the later tree was there before, or has a content with the property. -/
def AddsOnly (P : Content → Prop) (tree after : FileTree) : Prop :=
  ∀ location content, after.entry? location = some (.file content) →
    tree.entry? location = some (.file content) ∨ P content

variable {P : Content → Prop} {tree after : FileTree}

namespace AddsOnly

lemma refl (P : Content → Prop) (tree : FileTree) : AddsOnly P tree tree :=
  fun _ _ h => .inl h

lemma trans {middle : FileTree} (h : AddsOnly P tree middle) (h' : AddsOnly P middle after) :
    AddsOnly P tree after := by
  intro location content hentry
  rcases h' location content hentry with hentry | hP
  · exact h location content hentry
  · exact .inr hP

/-- A property of the contents at a location outlasts what adds only contents with it. -/
theorem heldAt (h : AddsOnly P tree after) {location : Location} (hheld : HeldAt P location tree) :
    HeldAt P location after :=
  fun content hentry => (h location content hentry).elim (hheld content) id

lemma put_file (tree : FileTree) (location : Location) {content : Content} (h : P content) :
    AddsOnly P tree (tree.put location (.file content)) := by
  intro other found hentry
  rw [entry?_put] at hentry
  split at hentry
  · cases hentry
  · split at hentry
    · cases hentry
      exact .inr h
    · exact .inl hentry

lemma put_directory (P : Content → Prop) (tree : FileTree) (location : Location) :
    AddsOnly P tree (tree.put location .directory) := by
  intro other found hentry
  rw [entry?_put] at hentry
  split at hentry
  · cases hentry
  · split at hentry
    · cases hentry
    · exact .inl hentry

lemma erase (P : Content → Prop) (tree : FileTree) (location : Location) :
    AddsOnly P tree (tree.erase location) := by
  intro other found hentry
  rw [entry?_erase] at hentry
  split at hentry
  · cases hentry
  · split at hentry
    · cases hentry
    · exact .inl hentry

end AddsOnly

/-! ## Operations on files -/

lemma write_eq_ok {path : String} {content : Content}
    (h : tree.write path content = .ok after) :
    tree.entry? (locationOf path) ≠ some .directory ∧
      after = tree.put (locationOf path) (.file content) := by
  simp only [write, bind, Except.bind] at h
  split at h
  · cases h
  · rename_i location hlocation
    rw [locate_eq_location hlocation] at h
    split at h
    · cases h
    · rename_i hentry
      split at h
      · cases h
      · cases h
        exact ⟨by simp [hentry], rfl⟩
    · rename_i hentry
      split at h
      · cases h
      · cases h
        exact ⟨by simp [hentry], rfl⟩

lemma addsOnly_write {path : String} {content : Content} (hP : P content)
    (h : tree.write path content = .ok after) : AddsOnly P tree after := by
  obtain ⟨-, rfl⟩ := write_eq_ok h
  exact .put_file _ _ hP

lemma heldAt_put_self {location : Location} {content : Content} (hP : P content) :
    HeldAt P location (tree.put location (.file content)) := by
  intro found hentry
  rw [entry?_put] at hentry
  split at hentry
  · cases hentry
  · rw [if_pos rfl] at hentry
    cases hentry
    exact hP

lemma heldAt_write {path : String} {content : Content} (hP : P content)
    (h : tree.write path content = .ok after) : HeldAt P (locationOf path) after := by
  obtain ⟨-, rfl⟩ := write_eq_ok h
  exact heldAt_put_self hP

lemma entry?_of_at? {path : String} {entry : Entry} (h : tree.at? path = .ok entry) :
    tree.entry? (locationOf path) = some entry := by
  simp only [at?, bind, Except.bind] at h
  split at h
  · cases h
  · rename_i location hlocation
    rw [← locate_eq_location hlocation]
    split at h
    · cases h
    · rename_i hentry
      cases h
      exact hentry
    · rename_i content hentry
      split at h
      · cases h
      · cases h
        exact hentry

lemma entry?_of_readText {path s : String} (h : tree.readText path = .ok s) :
    tree.entry? (locationOf path) = some (.file (.text s)) := by
  simp only [readText, read, bind, Except.bind] at h
  cases hat : tree.at? path with
  | error fault => simp [hat] at h
  | ok entry =>
    rw [entry?_of_at? hat]
    cases entry with
    | directory => simp [hat] at h
    | file content => cases content <;> simp_all

lemma addsOnly_createAlong (P : Content → Prop) (tree : FileTree) (making : Bool)
    (location : Location) (steps : List String) :
    AddsOnly P tree (tree.createAlong making location steps).state := by
  induction steps generalizing tree making location with
  | nil => exact .refl P tree
  | cons step rest ih =>
    rw [createAlong]
    split
    · exact ih tree making (above location)
    · split
      · exact .refl P tree
      · dsimp only
        split
        · exact ih tree making _
        · exact .refl P tree
        · exact (AddsOnly.put_directory P tree _).trans (ih _ true _)

lemma addsOnly_createParents (P : Content → Prop) (tree : FileTree) (path : String) :
    AddsOnly P tree (tree.createParents path).state := by
  unfold createParents createDirectories
  split
  · exact .refl P tree
  · exact addsOnly_createAlong P tree false _ _

lemma addsOnly_removeFile (P : Content → Prop) {path : String}
    (h : tree.removeFile path = .ok after) : AddsOnly P tree after := by
  simp only [removeFile, bind, Except.bind] at h
  split at h
  · cases h
  · split at h
    · cases h
    · cases h
    · split at h
      · cases h
      · cases h
        exact .erase P tree _

lemma entry?_ne_file_of_removeFile {path : String} (h : tree.removeFile path = .ok after)
    (content : Content) : after.entry? (locationOf path) ≠ some (.file content) := by
  simp only [removeFile, bind, Except.bind] at h
  split at h
  · cases h
  · rename_i location hlocation
    rw [locate_eq_location hlocation] at h
    split at h
    · cases h
    · cases h
    · split at h
      · cases h
      · cases h
        rw [entry?_erase, if_pos rfl]
        split <;> simp

/-- What a move that succeeds does: the file at the source, along a path that names no directory,
takes the place of what is at the target, unless a directory is there. -/
lemma rename_eq_ok {source target : String} (h : tree.rename source target = .ok after) :
    ∃ content, tree.locate source = .ok (locationOf source) ∧
      tree.locate target = .ok (locationOf target) ∧
      tree.entry? (locationOf source) = some (.file content) ∧
      tree.entry? (locationOf target) ≠ some .directory ∧
      (Route.ofText source).asDirectory = false ∧ (Route.ofText target).asDirectory = false ∧
      after = (tree.erase (locationOf source)).put (locationOf target) (.file content) := by
  simp only [rename, bind, Except.bind] at h
  split at h
  · cases h
  · rename_i origin horigin
    obtain rfl := locate_eq_location horigin
    split at h
    · cases h
    · rename_i goal hgoal
      obtain rfl := locate_eq_location hgoal
      split at h
      · cases h
      · split at h
        · cases h
        · cases h
        · rename_i content hcontent
          split at h
          · cases h
          · rename_i hdirectory
            simp only [Bool.or_eq_true, not_or, Bool.not_eq_true] at hdirectory
            split at h
            · cases h
            · rename_i hfree
              cases h
              exact ⟨content, horigin, hgoal, hcontent, hfree, hdirectory.1, hdirectory.2, rfl⟩

lemma addsOnly_rename {source target : String}
    (hP : HeldAt P (locationOf source) tree) (h : tree.rename source target = .ok after) :
    AddsOnly P tree after := by
  obtain ⟨content, -, -, hcontent, -, -, -, rfl⟩ := rename_eq_ok h
  exact (AddsOnly.erase P tree _).trans (.put_file _ _ (hP content hcontent))

lemma exists_locate_of_rename {source target : String} (h : tree.rename source target = .ok after) :
    (∃ location, tree.locate source = .ok location) ∧
      (Route.ofText source).asDirectory = false := by
  obtain ⟨content, hlocate, -, -, -, hdirectory, -, -⟩ := rename_eq_ok h
  exact ⟨⟨_, hlocate⟩, hdirectory⟩

lemma heldAt_clear (P : Content → Prop) {path : String}
    (hpass : (tree.clear path).answer = .ok ())
    (hlocate : ∃ location, (tree.clear path).state.locate path = .ok location)
    (hdirectory : (Route.ofText path).asDirectory = false) :
    HeldAt P (locationOf path) (tree.clear path).state := by
  intro content hentry
  exfalso
  unfold clear at hpass hlocate hentry
  split at hpass
  · rename_i hcontains
    rw [if_pos hcontains] at hentry
    cases hremove : tree.removeFile path with
    | error fault =>
      rw [hremove] at hpass
      cases hpass
    | ok removed =>
      rw [hremove] at hentry
      exact entry?_ne_file_of_removeFile hremove content hentry
  · rename_i hcontains
    rw [if_neg hcontains] at hentry hlocate
    obtain ⟨location, hlocation⟩ := hlocate
    have hplace : tree.entry? location = some (.file content) := by
      rw [locate_eq_location hlocation]
      exact hentry
    apply hcontains
    have hat : tree.at? path = .ok (.file content) := by
      have hlocation' : tree.locate path = .ok location := hlocation
      simp [at?, bind, Except.bind, hlocation', hplace, hdirectory]
    rw [contains, hat]
    rfl

lemma AddsOnly.andThen {ε α β : Type} {first : Outcome ε FileTree α}
    {next : α → FileTree → Outcome ε FileTree β} (h : AddsOnly P tree first.state)
    (hnext : ∀ answer, first.answer = .ok answer →
      AddsOnly P first.state (next answer first.state).state) :
    AddsOnly P tree (first.andThen next).state := by
  obtain ⟨_ | answer, middle⟩ := first
  · exact h
  · exact h.trans (hnext answer rfl)

lemma AddsOnly.andThen_mapError {δ ε α β : Type} {first : Outcome δ FileTree α} {f : δ → ε}
    {next : α → FileTree → Outcome ε FileTree β} (h : AddsOnly P tree first.state)
    (hnext : ∀ answer, first.answer = .ok answer →
      AddsOnly P first.state (next answer first.state).state) :
    AddsOnly P tree ((first.mapError f).andThen next).state := by
  obtain ⟨_ | answer, middle⟩ := first
  · exact h
  · exact h.trans (hnext answer rfl)

lemma addsOnly_attempt {change : Except FileFault FileTree}
    (h : ∀ after, change = .ok after → AddsOnly P tree after) :
    AddsOnly P tree (tree.attempt change).state := by
  cases hchange : change with
  | error fault => exact .refl P tree
  | ok after => exact h after hchange

lemma addsOnly_adopt {path : String} (hP : HeldAt P (locationOf (FilePath.sibling path)) tree) :
    AddsOnly P tree (tree.adopt path).state :=
  addsOnly_attempt fun _ h => addsOnly_rename hP h

lemma addsOnly_clear (P : Content → Prop) (tree : FileTree) (path : String) :
    AddsOnly P tree (tree.clear path).state := by
  unfold clear
  split
  · exact addsOnly_attempt fun _ h => addsOnly_removeFile P h
  · exact .refl P tree

theorem addsOnly_replace (tree : FileTree) (path : String) {content : Content} (hP : P content) :
    AddsOnly P tree (tree.replace path content).state := by
  refine (addsOnly_createParents P tree path).andThen fun _ _ => ?_
  refine (addsOnly_attempt fun _ h => addsOnly_write hP h).andThen fun _ hpass => ?_
  refine addsOnly_adopt ?_
  cases hwrite : FileTree.write _ (FilePath.sibling path) content with
  | error fault =>
    rw [hwrite] at hpass
    cases hpass
  | ok written => exact heldAt_write hP hwrite

end FileTree

end DocStore
