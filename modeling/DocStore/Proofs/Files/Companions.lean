import DocStore.Proofs.Files.Database
import DocStore.Proofs.Files.Frame

/-!
# What the database engine touches

A path that is no locator (`Sql.Locator.Marked`) names the file that the engine works on. Beside the
file, it touches its journal, its log and the index of its log, the `companions`, and nothing else
(`frame_saveDatabase`, `frame_loadDatabase`).
-/

namespace DocStore

namespace Sql.Locator

/-- The text of a path that the engine takes as a locator. -/
def Marked (path : String) : Prop :=
  ['f', 'i', 'l', 'e', ':'] <+: path.toList

instance : DecidablePred Marked :=
  fun path => inferInstanceAs (Decidable (_ <+: path.toList))

variable {path suffix : String}

lemma ofPath_of_not_marked (h : ¬Marked path) : ofPath path = .ok (ofName path) := by
  unfold ofPath
  split
  · rename_i body hbody
    exact absurd ⟨body, hbody.symm⟩ h
  · rfl

lemma not_marked_append (h : ¬Marked path) (hsuffix : ':' ∉ suffix.toList) :
    ¬Marked (path ++ suffix) := by
  intro hmarked
  rw [Marked, String.toList_append] at hmarked
  rcases Nat.le_total 5 path.toList.length with hlong | hshort
  · exact h (List.prefix_of_prefix_length_le hmarked (List.prefix_append _ _) hlong)
  -- The colon would stand in the suffix.
  · obtain ⟨rest, hrest⟩ := List.prefix_of_prefix_length_le (List.prefix_append _ _) hmarked hshort
    obtain ⟨body, hbody⟩ := hmarked
    rw [← hrest, List.append_assoc, List.append_cancel_left_eq] at hbody
    cases hlast : rest.getLast? with
    | none =>
      rw [List.getLast?_eq_none_iff] at hlast
      subst hlast
      rw [List.append_nil] at hrest
      exact h ⟨[], by rw [List.append_nil, hrest]⟩
    | some c =>
      have hc : c = ':' := by
        have hwhole := congrArg List.getLast? hrest
        rw [List.getLast?_append, hlast] at hwhole
        simpa using hwhole
      refine hsuffix ?_
      rw [← hbody]
      exact List.mem_append_left _ (hc ▸ List.mem_of_getLast? hlast)

end Sql.Locator

lemma Content.asImage?_ofImage (image : Sql.Image) : (ofImage image).asImage? = some image := by
  rw [ofImage]
  split_ifs with hempty
  · obtain ⟨tables⟩ := image
    cases tables with
    | nil => rfl
    | cons table rest => cases hempty
  · rfl

open Sql.Locator (Marked ofPath_of_not_marked)

namespace FileTree

open FilePath (Names name)

/-- The places of the files that the engine may keep beside a database. -/
def companions (location : Location) : List Location :=
  [journal location, log location, logIndex location]

lemma beside_ne (location : Location) {suffix : String} (h : 3 ≤ suffix.length) :
    beside location suffix ≠ location := by
  intro heq
  have hlast := congrArg List.getLast? heq
  rw [beside, List.getLast?_concat] at hlast
  have hlength := congrArg (fun last => (last.getD "").length) hlast
  simp only [Option.getD_some, String.length_append] at hlength
  omega

lemma beside_ne_beside (location : Location) {suffix other : String} (h : suffix ≠ other) :
    beside location suffix ≠ beside location other := by
  intro heq
  have hstep := List.append_cancel_left heq
  rw [List.singleton_inj, String.append_right_inj] at hstep
  exact h hstep

lemma notMem_companions (location : Location) : location ∉ companions location := by
  simp only [companions, journal, log, logIndex, List.mem_cons, List.not_mem_nil, or_false, not_or]
  exact ⟨(beside_ne location (by decide)).symm, (beside_ne location (by decide)).symm,
    (beside_ne location (by decide)).symm⟩

lemma beside_locationOf {path suffix : String} (hname : Names (name path))
    (h : '/' ∉ suffix.toList) (hlong : 3 ≤ suffix.length) :
    beside (locationOf path) suffix = locationOf (path ++ suffix) := by
  rw [locationOf_append path h, Route.follow_of_names (FilePath.names_append _ hlong),
    locationOf_eq, Route.follow_of_names hname, beside, List.dropLast_concat, List.getLast?_concat,
    Option.getD_some]

lemma companions_locationOf {path : String} (hname : Names (name path)) :
    companions (locationOf path) =
      ["-journal", "-wal", "-shm"].map fun suffix => locationOf (path ++ suffix) := by
  simp only [companions, journal, log, logIndex, List.map_cons, List.map_nil]
  rw [beside_locationOf hname (by decide) (by decide),
    beside_locationOf hname (by decide) (by decide),
    beside_locationOf hname (by decide) (by decide)]

variable {touched made : List Location} {tree after : FileTree} {location : Location}

lemma frame_clearJournal (hjournal : journal location ∈ touched) (tree : FileTree)
    (locator : Sql.Locator) (content : Content) :
    Frame touched made tree (tree.clearJournal locator location content).state := by
  unfold clearJournal
  split
  · exact .refl _ _ tree
  · split_ifs <;> exact .refl _ _ tree
  · rename_i hentry
    split_ifs
    any_goals exact .refl _ _ tree
    exact .erase hjournal (by simp [hentry])

lemma frame_clearLog (hlocation : companions location ⊆ touched) (tree : FileTree)
    (locator : Sql.Locator) (content : Content) :
    Frame touched made tree (tree.clearLog locator location content).state := by
  have hlog : log location ∈ touched := hlocation (by simp [companions])
  have hindex : logIndex location ∈ touched := hlocation (by simp [companions])
  unfold clearLog
  split
  · exact .refl _ _ tree
  · exact .refl _ _ tree
  · rename_i hentry
    have herased : Frame touched made tree (tree.erase (log location)) :=
      .erase hlog (by simp [hentry])
    split_ifs
    · exact .refl _ _ tree
    · exact herased
    · split
      · exact .refl _ _ tree
      · rename_i hfree
        exact herased.trans (.erase hindex (entry?_erase_ne_directory hfree _))

lemma frame_readImage (hlocation : companions location ⊆ touched) (tree : FileTree)
    (locator : Sql.Locator) :
    Frame touched made tree (tree.readImage locator location).state := by
  unfold readImage
  split
  · rename_i content _
    refine Frame.andThen ?_ fun _ _ => ?_
    · split_ifs
      · exact .refl _ _ tree
      · have hjournal : journal location ∈ touched := hlocation (by simp [companions])
        exact (frame_clearJournal hjournal tree locator content).andThen fun _ _ =>
          frame_clearLog hlocation _ locator content
    · cases content.asImage? <;> exact .refl _ _ _
  · exact .refl _ _ tree

lemma frame_writeImage (hlocation : location :: companions location ⊆ touched)
    (hfree : tree.entry? location ≠ some .directory) (image : Sql.Image) :
    Frame touched made tree (tree.writeImage location image).state := by
  have hplace : location ∈ touched := hlocation (by simp)
  have hjournal : journal location ∈ touched := hlocation (by simp [companions])
  unfold writeImage
  dsimp only
  split
  · exact .refl _ _ tree
  · rename_i hentry
    split_ifs
    · exact (Frame.erase hjournal hentry).trans
        (.put_file hplace (entry?_erase_ne_directory hfree _) _)
    · exact .refl _ _ tree

lemma entry?_writeImage (hfree : tree.entry? location ≠ some .directory) {image : Sql.Image}
    (h : (tree.writeImage location image).answer = .ok ()) :
    entry? (tree.writeImage location image).state location = some (.file (.ofImage image)) := by
  unfold writeImage at h ⊢
  dsimp only at h ⊢
  split at h
  · cases h
  · split_ifs at h ⊢
    · exact entry?_put_self (entry?_erase_ne_directory hfree _) _
    · cases h

lemma openDatabase?_cases {locator : Sql.Locator}
    (h : tree.openDatabase? locator = some (location, after)) :
    location = locationOf locator.name ∧
      ((∃ content, tree.entry? location = some (.file content)) ∧ after = tree ∨
        tree.entry? location = none ∧ after = tree.put location (.file (.text ""))) := by
  refine ⟨(openDatabase?_eq_some h).1, ?_⟩
  obtain ⟨goal, -, h⟩ := Option.bind_eq_some_iff.mp h
  split at h
  · rename_i hentry
    cases h
    exact .inl ⟨⟨_, hentry⟩, rfl⟩
  · rename_i hentry _
    split_ifs at h
    cases h
    exact .inr ⟨hentry, rfl⟩
  · cases h

lemma frame_openDatabase? {locator : Sql.Locator} (hlocation : location ∈ touched)
    (h : tree.openDatabase? locator = some (location, after)) :
    Frame touched made tree after := by
  obtain ⟨-, ⟨-, rfl⟩ | ⟨hentry, rfl⟩⟩ := openDatabase?_cases h
  · exact .refl _ _ _
  · exact .put_file hlocation (by simp [hentry]) _

lemma entry?_of_openDatabase? {locator : Sql.Locator}
    (h : tree.openDatabase? locator = some (location, after)) :
    after.entry? location ≠ some .directory := by
  obtain ⟨-, ⟨⟨content, hentry⟩, rfl⟩ | ⟨hentry, rfl⟩⟩ := openDatabase?_cases h
  · simp [hentry]
  · have hfree : tree.entry? location ≠ some .directory := by simp [hentry]
    rw [entry?_put_self hfree]
    simp

variable {path : String} {image : Sql.Image}

lemma entry?_readImage (tree : FileTree) (locator : Sql.Locator) (location : Location) :
    entry? (tree.readImage locator location).state location = tree.entry? location := by
  have hframe : Frame (companions location) [] tree (tree.readImage locator location).state :=
    frame_readImage (List.Subset.refl _) tree locator
  exact (hframe.outside location (notMem_companions location)).eq (by simp)

lemma saveDatabase_of_not_marked (hpath : ¬Marked path) (tree : FileTree) (image : Sql.Image) :
    tree.saveDatabase path image =
      match nulPosition? path with
      | some position => .fail (.nulByte position) tree
      | none =>
        if (Sql.Locator.ofName path).isUnkept then .pass () tree
        else
          match tree.openDatabase? (Sql.Locator.ofName path) with
          | none => .fail (.unopened path) tree
          | some (location, tree) =>
            (tree.readImage (Sql.Locator.ofName path) location).andThen fun _ tree =>
              tree.writeImage location image := by
  rw [saveDatabase, ofPath_of_not_marked hpath]
  cases nulPosition? path <;> rfl

/-- Saving a database touches its file and the companions of that file. -/
theorem frame_saveDatabase (hpath : ¬Marked path)
    (hlocation : locationOf path :: companions (locationOf path) ⊆ touched) (tree : FileTree)
    (image : Sql.Image) : Frame touched made tree (tree.saveDatabase path image).state := by
  rw [saveDatabase_of_not_marked hpath]
  split
  · exact .refl _ _ tree
  · split_ifs
    · exact .refl _ _ tree
    · split
      · exact .refl _ _ tree
      · rename_i location opened hopen
        obtain rfl : location = locationOf path := (openDatabase?_cases hopen).1
        refine (frame_openDatabase? (hlocation (List.mem_cons_self ..)) hopen).trans
          (Frame.andThen ?_ fun _ _ => ?_)
        · exact frame_readImage (List.subset_of_cons_subset hlocation) opened _
        · refine frame_writeImage hlocation ?_ image
          rw [entry?_readImage]
          exact entry?_of_openDatabase? hopen

lemma exists_openDatabase?_of_saveDatabase (hpath : ¬Marked path)
    (hkept : (Sql.Locator.ofName path).isUnkept = false)
    (h : (tree.saveDatabase path image).answer = .ok ()) :
    ∃ opened, tree.openDatabase? (Sql.Locator.ofName path) = some (locationOf path, opened) ∧
      tree.saveDatabase path image =
        (opened.readImage (Sql.Locator.ofName path) (locationOf path)).andThen fun _ tree =>
          tree.writeImage (locationOf path) image := by
  rw [saveDatabase_of_not_marked hpath] at h ⊢
  split at h
  · cases h
  · simp only [hkept, Bool.false_eq_true, if_false] at h ⊢
    split at h
    · cases h
    · rename_i location opened hopen
      obtain rfl : location = locationOf path := (openDatabase?_cases hopen).1
      exact ⟨opened, hopen, rfl⟩

theorem entry?_saveDatabase (hpath : ¬Marked path)
    (hkept : (Sql.Locator.ofName path).isUnkept = false)
    (h : (tree.saveDatabase path image).answer = .ok ()) :
    entry? (tree.saveDatabase path image).state (locationOf path) =
      some (.file (.ofImage image)) := by
  obtain ⟨opened, hopen, hsave⟩ := exists_openDatabase?_of_saveDatabase hpath hkept h
  rw [hsave] at h ⊢
  obtain ⟨_, hread, hwritten⟩ := Outcome.answer_andThen_eq_ok h
  rw [Outcome.andThen_of_ok hread]
  refine entry?_writeImage ?_ hwritten
  rw [entry?_readImage]
  exact entry?_of_openDatabase? hopen

theorem frame_loadDatabase (hpath : ¬Marked path) (hfile : tree.isFile path = true)
    (hlocation : companions (locationOf path) ⊆ touched) :
    Frame touched made tree (tree.loadDatabase path).state := by
  rw [loadDatabase, ofPath_of_not_marked hpath]
  dsimp only
  split_ifs
  · exact .refl _ _ tree
  · split
    · exact .refl _ _ tree
    · rename_i location opened hopen
      obtain ⟨hplace, ⟨-, rfl⟩ | ⟨hentry, -⟩⟩ := openDatabase?_cases hopen
      all_goals obtain rfl : location = locationOf path := hplace
      · exact frame_readImage hlocation _ _
      · obtain ⟨content, hcontent⟩ := entry?_of_isFile hfile
        rw [hcontent] at hentry
        cases hentry

end FileTree

end DocStore
