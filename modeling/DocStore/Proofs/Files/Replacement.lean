import DocStore.Proofs.Files.Tree

/-!
# What a replaced file holds

A file that was replaced without a failure is read as what was put there (`readText_of_replace`):
the move to its place changes no directory, so its path leads where it led before.
-/

namespace DocStore.FileTree

variable {tree after : FileTree}

lemma isStart_eq_false_of_ne_directory {place : Location}
    (h : tree.entry? place ≠ some .directory) : isStart place = false := by
  rw [Bool.eq_false_iff]
  intro hstart
  apply h
  unfold entry?
  rw [if_pos hstart]

lemma entry?_of_rename_of_directory {source target : String}
    (h : tree.rename source target = .ok after) {place : Location}
    (hplace : tree.entry? place = some .directory) : after.entry? place = some .directory := by
  obtain ⟨content, -, -, hsource, htarget, -, -, rfl⟩ := rename_eq_ok h
  have hne : place ≠ locationOf target := by
    rintro rfl
    exact htarget hplace
  have hne' : place ≠ locationOf source := by
    rintro rfl
    rw [hsource] at hplace
    cases hplace
  rw [entry?_put, entry?_erase]
  simp [hne, hne', hplace]

lemma read_of_rename {source target : String} (h : tree.rename source target = .ok after)
    {content : Content} (hcontent : tree.entry? (locationOf source) = some (.file content)) :
    after.read target = .ok content := by
  have hdirectories : ∀ place, tree.entry? place = some .directory →
      after.entry? place = some .directory := fun _ hplace =>
    entry?_of_rename_of_directory h hplace
  obtain ⟨moved, -, hlocate, hsource, htarget, -, hname, hafter⟩ := rename_eq_ok h
  have hlocated := locate_of_directories hdirectories hlocate
  rw [hsource] at hcontent
  cases hcontent
  have hentry : after.entry? (locationOf target) = some (.file content) := by
    rw [hafter, entry?_put]
    simp [isStart_eq_false_of_ne_directory htarget]
  simp [read, at?, bind, Except.bind, hlocated, hentry, hname]

lemma eq_ok_of_attempt {change : Except FileFault FileTree}
    (h : (tree.attempt change).answer = .ok ()) : change = .ok (tree.attempt change).state := by
  cases change with
  | error fault => cases h
  | ok after => rfl

lemma entry?_of_write {path : String} {content : Content}
    (h : tree.write path content = .ok after) :
    after.entry? (locationOf path) = some (.file content) := by
  obtain ⟨hfree, rfl⟩ := write_eq_ok h
  rw [entry?_put]
  simp [isStart_eq_false_of_ne_directory hfree]

lemma exists_of_replace {path : String} {content : Content}
    (h : (tree.replace path content).answer = .ok ()) :
    ∃ written, (tree.createParents path).answer = .ok () ∧
      (tree.createParents path).state.write (FilePath.sibling path) content = .ok written ∧
      written.rename (FilePath.sibling path) path = .ok (tree.replace path content).state := by
  unfold replace at h ⊢
  obtain ⟨_, hmade, h⟩ := Outcome.answer_andThen_eq_ok h
  rw [Outcome.andThen_of_ok hmade]
  obtain ⟨_, hwrite, hadopt⟩ := Outcome.answer_andThen_eq_ok h
  rw [Outcome.andThen_of_ok hwrite]
  exact ⟨_, hmade, eq_ok_of_attempt hwrite, eq_ok_of_attempt hadopt⟩

theorem readText_of_replace {path s : String}
    (h : (tree.replace path (.text s)).answer = .ok ()) :
    (tree.replace path (.text s)).state.readText path = .ok s := by
  obtain ⟨written, -, hwrite, hrename⟩ := exists_of_replace h
  have hread := read_of_rename hrename (entry?_of_write hwrite)
  rw [readText, hread]
  rfl

end DocStore.FileTree
