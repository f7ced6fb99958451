import DocStore.Proofs.Files.Places
import DocStore.Proofs.Files.Replacement

/-!
# What file operations leave alone

A `Frame` says that from one tree to a later one nothing changes but the touched places, except that
missing directories were made on a way. Replacing a file touches it and its temporary file; when it
fails, only the temporary file (`frame_replace_of_error`).
-/

namespace DocStore

/-- The locations that steps lead through. -/
def Route.places : Location → List String → List Location
  | location, [] => [location]
  | location, step :: rest => location :: places (descend location step) rest

/-- The locations that a path runs through. -/
def FilePath.way (path : String) : List Location :=
  Route.places (FileTree.start (Route.ofText path).absolute) (Route.ofText path).steps

namespace FileTree

/-- A place is as it was, or nothing was there and a directory of `made` was made. -/
def KeptAt (made : List Location) (tree after : FileTree) (place : Location) : Prop :=
  after.entry? place = tree.entry? place ∨
    tree.entry? place = none ∧ after.entry? place = some .directory ∧ place ∈ made

/-- All places but the touched ones are kept, directories too, even where one is touched. -/
structure Frame (touched made : List Location) (tree after : FileTree) : Prop where
  root : after.workingDirectory = tree.workingDirectory
  directories : ∀ place, tree.entry? place = some .directory →
    after.entry? place = some .directory
  outside : ∀ place, place ∉ touched → KeptAt made tree after place

variable {touched made : List Location} {tree middle after : FileTree}

lemma KeptAt.eq {place : Location} (h : KeptAt made tree after place)
    (hmade : place ∈ made → tree.entry? place ≠ none) :
    after.entry? place = tree.entry? place := by
  rcases h with h | ⟨hnone, -, hplace⟩
  · exact h
  · exact absurd hnone (hmade hplace)

lemma KeptAt.trans {place : Location} (h : KeptAt made tree middle place)
    (h' : KeptAt made middle after place) : KeptAt made tree after place := by
  rcases h with h | ⟨hnone, hdirectory, hplace⟩ <;>
    rcases h' with h' | ⟨hnone', hdirectory', hplace'⟩
  · exact .inl (h'.trans h)
  · exact .inr ⟨h ▸ hnone', hdirectory', hplace'⟩
  · exact .inr ⟨hnone, h'.trans hdirectory, hplace⟩
  · rw [hdirectory] at hnone'
    cases hnone'

lemma entry?_put_of_ne (tree : FileTree) {place location : Location} (h : place ≠ location)
    (entry : Entry) : entry? (tree.put location entry) place = tree.entry? place := by
  rw [entry?_put, if_neg h]
  split_ifs with hstart
  · exact (entry?_of_isStart tree hstart).symm
  · rfl

lemma entry?_erase_of_ne (tree : FileTree) {place location : Location} (h : place ≠ location) :
    entry? (tree.erase location) place = tree.entry? place := by
  rw [entry?_erase, if_neg h]
  split_ifs with hstart
  · exact (entry?_of_isStart tree hstart).symm
  · rfl

lemma entry?_put_self {location : Location} (h : tree.entry? location ≠ some .directory)
    (entry : Entry) : entry? (tree.put location entry) location = some entry := by
  rw [entry?_put, isStart_eq_false_of_ne_directory h, if_neg Bool.false_ne_true, if_pos rfl]

lemma entry?_erase_ne_directory {place : Location} (h : tree.entry? place ≠ some .directory)
    (location : Location) : entry? (tree.erase location) place ≠ some .directory := by
  by_cases heq : place = location
  · rw [entry?_erase, if_pos heq, isStart_eq_false_of_ne_directory h]
    simp
  · rwa [entry?_erase_of_ne tree heq]

namespace Frame

lemma refl (touched made : List Location) (tree : FileTree) : Frame touched made tree tree :=
  ⟨rfl, fun _ h => h, fun _ _ => .inl rfl⟩

lemma trans (h : Frame touched made tree middle) (h' : Frame touched made middle after) :
    Frame touched made tree after where
  root := h'.root.trans h.root
  directories place hplace := h'.directories place (h.directories place hplace)
  outside place hplace := (h.outside place hplace).trans (h'.outside place hplace)

lemma mono {more others : List Location} (h : Frame touched made tree after)
    (htouched : touched ⊆ more) (hmade : made ⊆ others) : Frame more others tree after where
  root := h.root
  directories := h.directories
  outside place hplace := by
    rcases h.outside place (fun hm => hplace (htouched hm)) with heq | ⟨hnone, hentry, hm⟩
    · exact .inl heq
    · exact .inr ⟨hnone, hentry, hmade hm⟩

lemma put_file {location : Location} (hlocation : location ∈ touched)
    (hfree : tree.entry? location ≠ some .directory) (content : Content) :
    Frame touched made tree (tree.put location (.file content)) where
  root := rfl
  directories place hplace := by
    have hne : place ≠ location := fun heq => hfree (heq ▸ hplace)
    rwa [entry?_put_of_ne tree hne]
  outside place hplace := by
    have hne : place ≠ location := fun heq => hplace (heq ▸ hlocation)
    exact .inl (entry?_put_of_ne tree hne _)

lemma put_directory {location : Location} (hlocation : location ∈ made)
    (hfree : tree.entry? location = none) :
    Frame touched made tree (tree.put location .directory) where
  root := rfl
  directories place hplace := by
    rw [entry?_put]
    simp [hplace]
  outside place hplace := by
    by_cases hplace : place = location
    · subst hplace
      exact .inr ⟨hfree, entry?_put_self (by simp [hfree]) _, hlocation⟩
    · exact .inl (entry?_put_of_ne tree hplace _)

lemma erase {location : Location} (hlocation : location ∈ touched)
    (hfree : tree.entry? location ≠ some .directory) :
    Frame touched made tree (tree.erase location) where
  root := rfl
  directories place hplace := by
    have hne : place ≠ location := fun heq => hfree (heq ▸ hplace)
    rwa [entry?_erase_of_ne tree hne]
  outside place hplace := by
    have hne : place ≠ location := fun heq => hplace (heq ▸ hlocation)
    exact .inl (entry?_erase_of_ne tree hne)

lemma andThen {ε α β : Type} {first : Outcome ε FileTree α}
    {next : α → FileTree → Outcome ε FileTree β} (h : Frame touched made tree first.state)
    (hnext : ∀ answer, first.answer = .ok answer →
      Frame touched made first.state (next answer first.state).state) :
    Frame touched made tree (first.andThen next).state := by
  obtain ⟨_ | answer, middle⟩ := first
  · exact h
  · exact h.trans (hnext answer rfl)

lemma andThen_mapError {δ ε α β : Type} {first : Outcome δ FileTree α} {f : δ → ε}
    {next : α → FileTree → Outcome ε FileTree β} (h : Frame touched made tree first.state)
    (hnext : ∀ answer, first.answer = .ok answer →
      Frame touched made first.state (next answer first.state).state) :
    Frame touched made tree ((first.mapError f).andThen next).state := by
  obtain ⟨_ | answer, middle⟩ := first
  · exact h
  · exact h.trans (hnext answer rfl)

lemma attempt {change : Except FileFault FileTree}
    (h : ∀ after, change = .ok after → Frame touched made tree after) :
    Frame touched made tree (tree.attempt change).state := by
  cases hchange : change with
  | error fault => exact .refl touched made tree
  | ok after => exact h after hchange

end Frame

/-! ## Operations on files -/

lemma frame_createAlong (tree : FileTree) (making : Bool) (location : Location)
    (steps : List String) (hmade : Route.places location steps ⊆ made) :
    Frame touched made tree (tree.createAlong making location steps).state := by
  induction steps generalizing tree making location with
  | nil => exact .refl touched made tree
  | cons step rest ih =>
    rw [Route.places, List.cons_subset] at hmade
    have hnext := hmade.2
    rw [createAlong]
    by_cases hup : step = ".."
    · rw [Route.descend, if_pos hup] at hnext
      rw [if_pos hup]
      exact ih tree making (above location) hnext
    · rw [Route.descend, if_neg hup] at hnext
      rw [if_neg hup]
      split
      · exact .refl touched made tree
      · dsimp only
        split
        · exact ih tree making (location ++ [step]) hnext
        · exact .refl touched made tree
        · rename_i hentry
          have hplace : location ++ [step] ∈ made := by
            cases rest <;> exact hnext (List.mem_cons_self ..)
          exact (Frame.put_directory hplace hentry).trans (ih _ true _ hnext)

lemma frame_createParents (touched : List Location) (tree : FileTree) (path : String) :
    Frame touched (FilePath.way (FilePath.parent path)) tree (tree.createParents path).state := by
  unfold createParents createDirectories
  split
  · exact .refl _ _ tree
  · exact frame_createAlong tree false _ _ (List.Subset.refl _)

lemma frame_write {path : String} {content : Content} (hpath : locationOf path ∈ touched)
    (h : tree.write path content = .ok after) : Frame touched made tree after := by
  obtain ⟨hfree, rfl⟩ := write_eq_ok h
  exact .put_file hpath hfree content

lemma removeFile_eq_ok {path : String} (h : tree.removeFile path = .ok after) :
    tree.entry? (locationOf path) ≠ some .directory ∧ after = tree.erase (locationOf path) := by
  simp only [removeFile, bind, Except.bind] at h
  split at h
  · cases h
  · rename_i location hlocation
    rw [locate_eq_location hlocation] at h
    split at h
    · cases h
    · cases h
    · rename_i hentry
      split_ifs at h
      cases h
      exact ⟨by simp [hentry], rfl⟩

lemma frame_clear {path : String} (hpath : locationOf path ∈ touched) (tree : FileTree) :
    Frame touched made tree (tree.clear path).state := by
  unfold clear
  split_ifs
  · refine .attempt fun after h => ?_
    obtain ⟨hfree, rfl⟩ := removeFile_eq_ok h
    exact .erase hpath hfree
  · exact .refl touched made tree

lemma frame_rename {source target : String} (hsource : locationOf source ∈ touched)
    (htarget : locationOf target ∈ touched) (h : tree.rename source target = .ok after) :
    Frame touched made tree after := by
  obtain ⟨content, -, -, hcontent, hfree, -, -, rfl⟩ := rename_eq_ok h
  exact (Frame.erase hsource (by simp [hcontent])).trans
    (.put_file htarget (entry?_erase_ne_directory hfree _) content)

lemma frame_adopt (tree : FileTree) (path : String)
    (hpath : [locationOf path, locationOf (FilePath.sibling path)] ⊆ touched) :
    Frame touched made tree (tree.adopt path).state := by
  simp only [List.cons_subset, List.nil_subset, and_true] at hpath
  exact .attempt fun after h => frame_rename hpath.2 hpath.1 h

lemma state_adopt_of_error {path : String} {fault : FileFault}
    (h : (tree.adopt path).answer = .error fault) : (tree.adopt path).state = tree := by
  unfold adopt attempt at h ⊢
  cases hrename : tree.rename (FilePath.sibling path) path with
  | error fault => rfl
  | ok after =>
    rw [hrename] at h
    cases h

theorem frame_replace (tree : FileTree) (path : String) (content : Content) :
    Frame [locationOf path, locationOf (FilePath.sibling path)]
      (FilePath.way (FilePath.parent path)) tree (tree.replace path content).state := by
  refine (frame_createParents _ tree path).andThen fun _ _ => ?_
  refine (Frame.attempt fun _ h => frame_write (by simp) h).andThen fun _ _ => ?_
  exact frame_adopt _ path (List.Subset.refl _)

theorem frame_replace_of_error {path : String} {content : Content} {fault : FileFault}
    (h : (tree.replace path content).answer = .error fault) :
    Frame [locationOf (FilePath.sibling path)] (FilePath.way (FilePath.parent path)) tree
      (tree.replace path content).state := by
  unfold replace at h ⊢
  refine (frame_createParents _ tree path).andThen fun _ hmade => ?_
  rw [Outcome.andThen_of_ok hmade] at h
  refine (Frame.attempt fun _ h => frame_write (by simp) h).andThen fun _ hwritten => ?_
  rw [Outcome.andThen_of_ok hwritten] at h
  rw [state_adopt_of_error h]
  exact .refl _ _ _

/-- A file that was given its name is read there, and its temporary file is gone. -/
theorem adopt_eq_ok {path : String} {content : Content}
    (hcontent : tree.entry? (locationOf (FilePath.sibling path)) = some (.file content))
    (h : (tree.adopt path).answer = .ok ()) :
    (tree.adopt path).state.read path = .ok content ∧
      entry? (tree.adopt path).state (locationOf (FilePath.sibling path)) = none := by
  have hrename := eq_ok_of_attempt h
  refine ⟨read_of_rename hrename hcontent, ?_⟩
  have hne : locationOf (FilePath.sibling path) ≠ locationOf path := by
    have hplaces : locationOf (path ++ "") ≠ locationOf (path ++ ".tmp") :=
      locationOf_append_ne path (by decide) (by decide) (by decide) (by decide)
    rw [String.append_empty] at hplaces
    exact hplaces.symm
  obtain ⟨moved, -, -, hmoved, -, -, -, hafter⟩ := rename_eq_ok hrename
  have hfree : tree.entry? (locationOf (FilePath.sibling path)) ≠ some .directory := by
    simp [hmoved]
  have hstart := isStart_eq_false_of_ne_directory hfree
  rw [adopt, hafter, entry?_put, entry?_erase]
  simp [hstart, hne]

theorem replace_eq_ok {path : String} {content : Content}
    (h : (tree.replace path content).answer = .ok ()) :
    (tree.replace path content).state.read path = .ok content ∧
      entry? (tree.replace path content).state (locationOf (FilePath.sibling path)) = none := by
  unfold replace at h ⊢
  obtain ⟨_, hmade, h⟩ := Outcome.answer_andThen_eq_ok h
  rw [Outcome.andThen_of_ok hmade]
  obtain ⟨_, hwritten, h⟩ := Outcome.answer_andThen_eq_ok h
  rw [Outcome.andThen_of_ok hwritten]
  exact adopt_eq_ok (entry?_of_write (eq_ok_of_attempt hwritten)) h

end FileTree

end DocStore
