import DocStore.Files.Database
import DocStore.Proofs.Files.Tree

/-!
# What the database engine leaves behind

The engine reads and writes at the location that the name in a locator leads to (`home?`). It makes
no directory and puts nothing into files but empty texts and the image that it writes
(`addsFiles_saveDatabase`, `addsFiles_loadDatabase`), and the image that it reads is the one in the
file at home (`answer_loadDatabase`).
-/

namespace DocStore

namespace FileTree

/-- The location at which the engine keeps the database that a path names. -/
def home? (path : String) : Option Location :=
  (Sql.Locator.ofPath path).toOption.map fun locator => locationOf locator.name

/-- Only files with a property are added, and no directory. -/
structure AddsFiles (P : Content → Prop) (tree after : FileTree) : Prop where
  files : AddsOnly P tree after
  directories : ∀ location, after.entry? location = some .directory →
    tree.entry? location = some .directory

variable {P : Content → Prop} {tree after : FileTree}

namespace AddsFiles

lemma refl (P : Content → Prop) (tree : FileTree) : AddsFiles P tree tree :=
  ⟨.refl P tree, fun _ h => h⟩

lemma trans {middle : FileTree} (h : AddsFiles P tree middle) (h' : AddsFiles P middle after) :
    AddsFiles P tree after :=
  ⟨h.files.trans h'.files, fun location hentry => h.directories location (h'.directories _ hentry)⟩

lemma put_file (tree : FileTree) (location : Location) {content : Content} (h : P content) :
    AddsFiles P tree (tree.put location (.file content)) := by
  refine ⟨.put_file tree location h, fun other hentry => ?_⟩
  rw [entry?_put] at hentry
  split at hentry
  · rename_i hstart
    unfold entry?
    rw [if_pos hstart]
  · split at hentry
    · cases hentry
    · exact hentry

lemma erase (P : Content → Prop) (tree : FileTree) (location : Location) :
    AddsFiles P tree (tree.erase location) := by
  refine ⟨.erase P tree location, fun other hentry => ?_⟩
  rw [entry?_erase] at hentry
  split at hentry
  · rename_i hstart
    unfold entry?
    rw [if_pos hstart]
  · split at hentry
    · cases hentry
    · exact hentry

lemma andThen {ε α β : Type} {first : Outcome ε FileTree α}
    {next : α → FileTree → Outcome ε FileTree β} (h : AddsFiles P tree first.state)
    (hnext : ∀ answer, AddsFiles P first.state (next answer first.state).state) :
    AddsFiles P tree (first.andThen next).state := by
  obtain ⟨_ | answer, middle⟩ := first
  · exact h
  · exact h.trans (hnext answer)

lemma locate (h : AddsFiles P tree after) {path : String} {location : Location}
    (hlocate : after.locate path = .ok location) : tree.locate path = .ok location :=
  locate_of_directories h.directories hlocate

end AddsFiles

lemma resolve_eq_foldl {location goal : Location} {steps : List String}
    (h : tree.resolve location steps = some goal) :
    goal = steps.foldl Route.descend location := by
  induction steps generalizing location with
  | nil =>
    simp only [resolve, Option.ite_none_right_eq_some, Option.some.injEq] at h
    exact h.2.symm
  | cons step rest ih =>
    rw [resolve] at h
    rw [List.foldl_cons, Route.descend]
    split at h
    · rename_i hup
      rw [if_pos hup]
      exact ih h
    · rename_i hup
      rw [if_neg hup]
      dsimp only at h
      split at h
      · cases h
      · split at h
        · cases h
        · split at h
          · cases h
          · exact ih h
        · exact ih h

lemma openDatabase?_eq_some {locator : Sql.Locator} {location : Location}
    (h : tree.openDatabase? locator = some (location, after)) :
    location = locationOf locator.name ∧
      (after = tree ∨ after = tree.put location (.file (.text ""))) := by
  obtain ⟨goal, hgoal, h⟩ := Option.bind_eq_some_iff.mp h
  have hlocation := resolve_eq_foldl hgoal
  split at h
  · cases h
    exact ⟨hlocation, .inl rfl⟩
  · split at h
    · cases h
      exact ⟨hlocation, .inr rfl⟩
    · cases h
  · cases h

lemma addsFiles_openDatabase? {locator : Sql.Locator} {location : Location}
    (h : tree.openDatabase? locator = some (location, after)) (hP : P (.text "")) :
    AddsFiles P tree after := by
  obtain ⟨-, rfl | rfl⟩ := openDatabase?_eq_some h
  · exact .refl P _
  · exact .put_file tree location hP

lemma addsFiles_clearJournal (P : Content → Prop) (tree : FileTree) (locator : Sql.Locator)
    (location : Location) (content : Content) :
    AddsFiles P tree (tree.clearJournal locator location content).state := by
  unfold clearJournal
  split
  · exact .refl P tree
  · split <;> exact .refl P tree
  · split
    · exact .refl P tree
    · split
      · split <;> exact .refl P tree
      · exact .erase P tree _

lemma addsFiles_clearLog (P : Content → Prop) (tree : FileTree) (locator : Sql.Locator)
    (location : Location) (content : Content) :
    AddsFiles P tree (tree.clearLog locator location content).state := by
  unfold clearLog
  split
  · exact .refl P tree
  · exact .refl P tree
  · split
    · exact .refl P tree
    · split
      · exact .erase P tree _
      · split
        · exact .refl P tree
        · exact (AddsFiles.erase P tree _).trans (.erase P _ _)

lemma addsFiles_readImage (P : Content → Prop) (tree : FileTree) (locator : Sql.Locator)
    (location : Location) : AddsFiles P tree (tree.readImage locator location).state := by
  unfold readImage
  split
  · rename_i content _
    dsimp only
    refine AddsFiles.andThen ?_ fun _ => ?_
    · split
      · exact .refl P tree
      · exact (addsFiles_clearJournal P tree locator location content).andThen fun _ =>
          addsFiles_clearLog P _ locator location content
    · cases content.asImage? <;> exact .refl P _
  · exact .refl P tree

lemma addsFiles_writeImage (tree : FileTree) (location : Location) {image : Sql.Image}
    (hP : P (.ofImage image)) : AddsFiles P tree (tree.writeImage location image).state := by
  unfold writeImage
  dsimp only
  split
  · exact .refl P tree
  · split
    · exact (AddsFiles.erase P tree _).trans (.put_file _ _ hP)
    · exact .refl P tree

/-- Saving a database adds no content but an empty text and the image. -/
theorem addsFiles_saveDatabase (tree : FileTree) (path : String) {image : Sql.Image}
    (hblank : P (.text "")) (himage : P (.ofImage image)) :
    AddsFiles P tree (tree.saveDatabase path image).state := by
  unfold saveDatabase
  split
  · exact .refl P tree
  · exact .refl P tree
  · split
    · split <;> exact .refl P tree
    · split
      · exact .refl P tree
      · rename_i location opened hopen
        have hopened := addsFiles_openDatabase? hopen hblank
        split
        · exact hopened
        · exact hopened.trans ((addsFiles_readImage P opened _ location).andThen fun _ =>
            addsFiles_writeImage _ location himage)

theorem addsFiles_loadDatabase (tree : FileTree) (path : String) (hblank : P (.text "")) :
    AddsFiles P tree (tree.loadDatabase path).state := by
  unfold loadDatabase
  split
  · exact .refl P tree
  · split
    · exact .refl P tree
    · split
      · exact .refl P tree
      · rename_i location opened hopen
        exact (addsFiles_openDatabase? hopen hblank).trans (addsFiles_readImage P opened _ location)

lemma answer_readImage {locator : Sql.Locator} {location : Location} {image : Sql.Image}
    (h : (tree.readImage locator location).answer = .ok image) :
    ∃ content, tree.entry? location = some (.file content) ∧ content.asImage? = some image := by
  unfold readImage at h
  split at h
  · rename_i content hentry
    obtain ⟨-, -, h⟩ := Outcome.answer_andThen_eq_ok h
    split at h
    · rename_i himage
      cases h
      exact ⟨content, hentry, himage⟩
    · cases h
  · cases h

/-- The image that is loaded is that of the file at home, or empty. -/
theorem answer_loadDatabase {path : String} {image : Sql.Image}
    (hblank : P (.text ""))
    (hheld : ∀ location, home? path = some location → HeldAt P location tree)
    (h : (tree.loadDatabase path).answer = .ok image) :
    ∃ content, P content ∧ content.asImage? = some image := by
  have hempty : Content.asImage? (.text "") = some .empty := rfl
  unfold loadDatabase at h
  split at h
  · cases h
  · rename_i locator hlocator
    split at h
    · cases h
      exact ⟨.text "", hblank, hempty⟩
    · split at h
      · cases h
      · rename_i location opened hopen
        have hhome : home? path = some (locationOf locator.name) := by
          rw [home?, hlocator]
          rfl
        obtain ⟨content, hentry, himage⟩ := answer_readImage h
        rw [(openDatabase?_eq_some hopen).1] at hentry
        have hopened := (addsFiles_openDatabase? hopen hblank).files.heldAt (hheld _ hhome)
        exact ⟨content, hopened content hentry, himage⟩

end FileTree

end DocStore
