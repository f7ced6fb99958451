import DocStore.Proofs.Files.Companions
import DocStore.Store.Backend
import Mathlib.Data.List.Basic

/-!
# Files that are written whole

A snapshot and a database write their file under another name first. So their file is written whole,
or what was there stays (`WholeOrNot`), and elsewhere only that other file and what the database
engine keeps beside it is touched, and missing directories are made: `persist_whole_or_not`.
-/

namespace DocStore

namespace Outcome

variable {ε δ σ α : Type} {f : ε → δ} {outcome : Outcome ε σ α}

lemma state_mapError (f : ε → δ) (outcome : Outcome ε σ α) :
    (outcome.mapError f).state = outcome.state := rfl

lemma answer_of_mapError_eq_ok {answer : α} (h : (outcome.mapError f).answer = .ok answer) :
    outcome.answer = .ok answer := by
  obtain ⟨_ | value, state⟩ := outcome
  · cases h
  · cases h
    rfl

lemma exists_of_answer_mapError_eq_error {error : δ}
    (h : (outcome.mapError f).answer = .error error) : ∃ fault, outcome.answer = .error fault := by
  obtain ⟨fault | value, state⟩ := outcome
  · exact ⟨fault, rfl⟩
  · cases h

end Outcome

namespace FileTree

/-- The places of the temporary file of a path and of the files beside it. -/
def temporaries (path : String) (suffixes : List String) : List Location :=
  suffixes.map fun suffix => locationOf (FilePath.sibling path ++ suffix)

/-- A change of the file at a path that is done as a whole or not at all. Elsewhere only temporary
files are touched. Missing directories are made, and only if the path runs through its own place may
one of them come to stand there. -/
structure WholeOrNot {ε : Type} (path : String) (content : Content) (suffixes : List String)
    (tree : FileTree) (outcome : Outcome ε FileTree Unit) : Prop where
  written : outcome.answer = .ok () → outcome.state.read path = .ok content
  cleared : outcome.answer = .ok () → outcome.state.contains (FilePath.sibling path) = false
  kept : ∀ error, outcome.answer = .error error →
    KeptAt (FilePath.way (FilePath.parent path)) tree outcome.state (locationOf path)
  elsewhere : ∀ place, place ≠ locationOf path → place ∉ temporaries path suffixes →
    KeptAt (FilePath.way (FilePath.parent path)) tree outcome.state place

lemma contains_eq_false {tree : FileTree} {path : String}
    (h : tree.entry? (locationOf path) = none) : tree.contains path = false := by
  unfold contains
  cases hat : tree.at? path with
  | error fault => rfl
  | ok entry =>
    rw [entry?_of_at? hat] at h
    cases h

lemma locationOf_notMem_temporaries (path : String) {suffixes : List String}
    (h : ∀ suffix ∈ suffixes, '/' ∉ suffix.toList) :
    locationOf path ∉ temporaries path suffixes := by
  intro hmem
  obtain ⟨suffix, hs, heq⟩ := List.mem_map.mp hmem
  have hslash : '/' ∉ (".tmp" ++ suffix).toList := by
    rw [String.toList_append, List.mem_append, not_or]
    exact ⟨by decide, h suffix hs⟩
  have hlong : 3 ≤ (".tmp" ++ suffix).length := by
    rw [String.length_append]
    exact Nat.le_add_right_of_le (by decide)
  have hne : locationOf (path ++ "") ≠ locationOf (path ++ (".tmp" ++ suffix)) :=
    locationOf_append_ne path hslash (by decide) hlong (by simp [String.ext_iff])
  rw [String.append_empty] at hne
  exact hne (by rw [← heq, FilePath.sibling, String.append_assoc])

/-- What is touched with the file by a change that succeeds, and without it by one that fails. -/
lemma WholeOrNot.of_frames {ε : Type} {path : String} {content : Content} {suffixes : List String}
    {tree : FileTree} {outcome : Outcome ε FileTree Unit}
    (hsuffixes : ∀ suffix ∈ suffixes, '/' ∉ suffix.toList)
    (hframe : Frame (locationOf path :: temporaries path suffixes)
      (FilePath.way (FilePath.parent path)) tree outcome.state)
    (herror : ∀ error, outcome.answer = .error error →
      Frame (temporaries path suffixes) (FilePath.way (FilePath.parent path)) tree outcome.state)
    (hok : outcome.answer = .ok () → outcome.state.read path = .ok content ∧
      outcome.state.entry? (locationOf (FilePath.sibling path)) = none) :
    WholeOrNot path content suffixes tree outcome where
  written h := (hok h).1
  cleared h := contains_eq_false (hok h).2
  kept error h := (herror error h).outside _ (locationOf_notMem_temporaries path hsuffixes)
  elsewhere place hne hplace := hframe.outside place (by simp [hne, hplace])

lemma WholeOrNot.keptAt {ε : Type} {path : String} {content : Content}
    {suffixes : List String} {tree : FileTree} {outcome : Outcome ε FileTree Unit}
    (h : WholeOrNot path content suffixes tree outcome) {place : Location}
    (hplace : FilePath.Names (FilePath.name path) → place ≠ locationOf path)
    (htemporaries : place ∉ temporaries path suffixes) :
    KeptAt (FilePath.way (FilePath.parent path)) tree outcome.state place := by
  by_cases heq : place = locationOf path
  · subst heq
    cases hanswer : outcome.answer with
    | error error => exact h.kept error hanswer
    | ok done =>
      have hfile : outcome.state.isFile path = true := isFile_of_read (h.written hanswer)
      exact absurd rfl (hplace (names_of_isFile hfile))
  · exact h.elsewhere place heq htemporaries

lemma wholeOrNot_replace (tree : FileTree) (path : String) (content : Content) :
    WholeOrNot path content [""] tree (tree.replace path content) := by
  have htemporaries : temporaries path [""] = [locationOf (FilePath.sibling path)] := by
    simp [temporaries]
  refine .of_frames (by decide) ?_ (fun fault h => ?_) replace_eq_ok
  · rw [htemporaries]
    exact frame_replace tree path content
  · rw [htemporaries]
    exact frame_replace_of_error h

end FileTree

lemma Snapshot.wholeOrNot_persist (kept : Snapshot) (files : FileTree) :
    FileTree.WholeOrNot kept.path (.text kept.text) [""] files (kept.persist files) :=
  FileTree.wholeOrNot_replace files kept.path _

namespace Relational

open FileTree Sql.Locator

/-- What the engine may keep beside a database, and the database itself. -/
def suffixes : List String :=
  ["", "-journal", "-wal", "-shm"]

variable {db : Relational} {files : FileTree}

lemma temporaries_suffixes (path : String) :
    temporaries path suffixes = locationOf (FilePath.sibling path) ::
      companions (locationOf (FilePath.sibling path)) := by
  have hname : FilePath.Names (FilePath.name (FilePath.sibling path)) := by
    rw [FilePath.sibling, FilePath.name_append path (by decide)]
    exact FilePath.names_append _ (by decide)
  rw [companions_locationOf hname]
  simp [temporaries, suffixes]

lemma not_marked_sibling {path : String} (h : ¬Marked path) : ¬Marked (FilePath.sibling path) :=
  not_marked_append h (by decide)

/-- The steps before the temporary file takes the name of the file. -/
def stage (db : Relational) (files : FileTree) : Outcome StoreError FileTree Unit :=
  ((files.createParents db.path).mapError .file).andThen fun _ files =>
    ((files.clear (FilePath.sibling db.path)).mapError .file).andThen fun _ files =>
      (files.saveDatabase (FilePath.sibling db.path) db.image).mapError .exportFailed

lemma flush_eq (db : Relational) (files : FileTree) :
    db.flush files = (db.stage files).andThen fun _ files => (files.adopt db.path).mapError .file := by
  rw [flush, stage, Outcome.andThen_assoc]
  simp only [Outcome.andThen_assoc]

lemma frame_stage (hpath : ¬Marked db.path) (files : FileTree) :
    Frame (temporaries db.path suffixes) (FilePath.way (FilePath.parent db.path)) files
      (db.stage files).state := by
  rw [temporaries_suffixes]
  refine (frame_createParents _ files db.path).andThen_mapError fun _ _ => ?_
  refine (frame_clear (by simp) _).andThen_mapError fun _ _ => ?_
  exact frame_saveDatabase (not_marked_sibling hpath) (List.Subset.refl _) _ db.image

lemma isUnkept_sibling (path : String) :
    (ofName (FilePath.sibling path)).isUnkept = false := by
  have hlast : (FilePath.sibling path).toList.getLast? = some 'p' := by
    simp [FilePath.sibling, String.toList_append]
  have hmemory : FilePath.sibling path ≠ ":memory:" := fun heq => by
    rw [heq] at hlast
    cases hlast
  have hempty : FilePath.sibling path ≠ "" := fun heq => by
    rw [heq] at hlast
    cases hlast
  simp [isUnkept, ofName, hmemory, hempty]

lemma exists_saveDatabase_of_stage (h : (db.stage files).answer = .ok ()) :
    ∃ cleared : FileTree, cleared.workingDirectory = files.workingDirectory ∧
      (cleared.saveDatabase (FilePath.sibling db.path) db.image).answer = .ok () ∧
      (db.stage files).state =
        (cleared.saveDatabase (FilePath.sibling db.path) db.image).state := by
  unfold stage at h ⊢
  have hparents := frame_createParents [] files db.path
  obtain ⟨_, hmade, h⟩ := Outcome.answer_andThen_eq_ok h
  rw [Outcome.andThen_of_ok hmade]
  simp only [Outcome.state_mapError] at h ⊢
  have hclear : Frame [locationOf (FilePath.sibling db.path)] [] (files.createParents db.path).state
      ((files.createParents db.path).state.clear (FilePath.sibling db.path)).state :=
    frame_clear (List.mem_singleton_self _) _
  obtain ⟨_, hcleared, h⟩ := Outcome.answer_andThen_eq_ok h
  rw [Outcome.andThen_of_ok hcleared]
  simp only [Outcome.state_mapError] at h ⊢
  exact ⟨_, hclear.root.trans hparents.root, Outcome.answer_of_mapError_eq_ok h, rfl⟩

lemma entry?_stage (hpath : ¬Marked db.path) (h : (db.stage files).answer = .ok ()) :
    entry? (db.stage files).state (locationOf (FilePath.sibling db.path)) =
      some (.file (.ofImage db.image)) := by
  obtain ⟨cleared, -, hsaved, hstate⟩ := exists_saveDatabase_of_stage h
  rw [hstate]
  exact entry?_saveDatabase (not_marked_sibling hpath) (isUnkept_sibling db.path) hsaved

lemma frame_flush (hpath : ¬Marked db.path) (files : FileTree) :
    Frame (locationOf db.path :: temporaries db.path suffixes)
      (FilePath.way (FilePath.parent db.path)) files (db.flush files).state := by
  have hstage := frame_stage hpath files
  rw [flush_eq]
  refine (hstage.mono (List.subset_cons_self ..) (List.Subset.refl _)).andThen fun _ _ => ?_
  refine frame_adopt _ db.path ?_
  simp [temporaries_suffixes]

lemma frame_flush_of_error (hpath : ¬Marked db.path) {error : StoreError}
    (h : (db.flush files).answer = .error error) :
    Frame (temporaries db.path suffixes) (FilePath.way (FilePath.parent db.path)) files
      (db.flush files).state := by
  rw [flush_eq] at h ⊢
  refine (frame_stage hpath files).andThen fun _ hpass => ?_
  rw [Outcome.andThen_of_ok hpass] at h
  obtain ⟨fault, hfault⟩ := Outcome.exists_of_answer_mapError_eq_error h
  change Frame _ _ _ ((db.stage files).state.adopt db.path).state
  rw [state_adopt_of_error hfault]
  exact .refl _ _ _

lemma wholeOrNot_flush (hpath : ¬Marked db.path) (files : FileTree) :
    WholeOrNot db.path (.ofImage db.image) suffixes files (db.flush files) := by
  refine .of_frames (by decide) (frame_flush hpath files)
    (fun _ h => frame_flush_of_error hpath h) (fun h => ?_)
  rw [flush_eq] at h ⊢
  obtain ⟨_, hpass, hadopt⟩ := Outcome.answer_andThen_eq_ok h
  rw [Outcome.andThen_of_ok hpass]
  exact adopt_eq_ok (entry?_stage hpath hpass) (Outcome.answer_of_mapError_eq_ok hadopt)

end Relational

end DocStore
