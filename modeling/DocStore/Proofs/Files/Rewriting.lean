import DocStore.Proofs.Files.Frame

/-!
# Replacing a file once more

A file that was replaced can be replaced again, with whatever content (`replace_again`): the
directories above it are there, its temporary file is gone, and no directory has come in the way.
Each operation that succeeded in a tree does so again where the directories of that tree are kept
and its own place is free.
-/

namespace DocStore.FileTree

variable {tree later : FileTree}

lemma createAlong_again {making : Bool} {location : Location} {steps : List String}
    (h : (tree.createAlong making location steps).answer = .ok ())
    (hkeeps : ∀ place, entry? (tree.createAlong making location steps).state place =
      some .directory → later.entry? place = some .directory) (again : Bool) :
    later.createAlong again location steps = .pass () later := by
  induction steps generalizing tree making location again with
  | nil => rfl
  | cons step rest ih =>
    rw [createAlong] at h hkeeps ⊢
    split at h
    · rename_i hup
      rw [if_pos hup] at hkeeps ⊢
      exact ih h hkeeps again
    · rename_i hup
      rw [if_neg hup] at hkeeps ⊢
      split at h
      · cases h
      · rename_i hshort
        rw [if_neg hshort] at hkeeps ⊢
        dsimp only at h hkeeps ⊢
        -- What this step finds or makes is a directory still when the rest has been made.
        split at h
        · rename_i hentry
          have hframe : Frame [] (Route.places (location ++ [step]) rest) tree
              (tree.createAlong making (location ++ [step]) rest).state :=
            frame_createAlong tree making _ rest (List.Subset.refl _)
          simp only [hentry] at hkeeps
          rw [hkeeps _ (hframe.directories _ hentry)]
          exact ih h hkeeps again
        · cases h
        · rename_i hentry
          have hframe : Frame [] (Route.places (location ++ [step]) rest)
              (tree.put (location ++ [step]) .directory)
              ((tree.put (location ++ [step]) .directory).createAlong true (location ++ [step])
                rest).state :=
            frame_createAlong _ true _ rest (List.Subset.refl _)
          have hmade : entry? (tree.put (location ++ [step]) .directory) (location ++ [step]) =
              some .directory :=
            entry?_put_self (by simp [hentry]) _
          simp only [hentry] at hkeeps
          rw [hkeeps _ (hframe.directories _ hmade)]
          exact ih h hkeeps again

lemma createParents_again {path : String} (h : (tree.createParents path).answer = .ok ())
    (hkeeps : ∀ place, entry? (tree.createParents path).state place = some .directory →
      later.entry? place = some .directory) :
    later.createParents path = .pass () later := by
  simp only [createParents, createDirectories] at h hkeeps ⊢
  cases hfault : textFault? (FilePath.parent path) with
  | some fault =>
    rw [hfault] at h
    cases h
  | none =>
    simp only [hfault] at h hkeeps ⊢
    exact createAlong_again h hkeeps false

variable {after : FileTree} {path : String}

lemma write_again {content : Content} (h : tree.write path content = .ok after)
    (hkeeps : ∀ place, tree.entry? place = some .directory → later.entry? place = some .directory)
    (hfree : later.entry? (locationOf path) ≠ some .directory) (another : Content) :
    later.write path another = .ok (later.put (locationOf path) (.file another)) := by
  simp only [write, bind, Except.bind] at h
  cases hlocate : tree.locate path with
  | error fault =>
    rw [hlocate] at h
    cases h
  | ok location =>
    obtain rfl := locate_eq_location hlocate
    have hlater := locate_of_directories hkeeps hlocate
    rw [hlocate] at h
    dsimp only at h
    have hfile : (Route.ofText path).asDirectory = false := by
      rw [Bool.eq_false_iff]
      intro hdirectory
      rw [if_pos hdirectory, if_pos hdirectory] at h
      split at h <;> cases h
    simp only [write, bind, Except.bind, hlater, hfile, Bool.false_eq_true, if_false]
    split
    · rename_i hentry
      exact absurd hentry hfree
    · rfl
    · rfl

lemma rename_again {source target : String} (h : tree.rename source target = .ok after)
    (hkeeps : ∀ place, tree.entry? place = some .directory → later.entry? place = some .directory)
    {content : Content} (hsource : later.entry? (locationOf source) = some (.file content))
    (hfree : later.entry? (locationOf target) ≠ some .directory) :
    ∃ last, later.rename source target = .ok last := by
  obtain ⟨moved, horigin, hgoal, hmoved, htarget, hfile, hfile', -⟩ := rename_eq_ok h
  have hnames : (!endsInName source || !endsInName target) = false := by
    rw [Bool.eq_false_iff]
    intro hnames
    simp only [rename, bind, Except.bind, horigin, hgoal, if_pos hnames] at h
    cases h
  refine ⟨(later.erase (locationOf source)).put (locationOf target) (.file content), ?_⟩
  simp only [rename, bind, Except.bind, locate_of_directories hkeeps horigin,
    locate_of_directories hkeeps hgoal, hnames, hsource, hfile, hfile', Bool.or_self,
    Bool.false_eq_true, if_false]

lemma replace_of_steps {content : Content} {written renamed : FileTree}
    (hmade : tree.createParents path = .pass () tree)
    (hwrite : tree.write (FilePath.sibling path) content = .ok written)
    (hrename : written.rename (FilePath.sibling path) path = .ok renamed) :
    tree.replace path content = .pass () renamed := by
  rw [replace, hmade, Outcome.pass_andThen, hwrite, attempt, Except.map, Outcome.ofExcept,
    Outcome.pass_andThen, adopt, hrename]
  rfl

/-- A file that was replaced can be replaced again. -/
theorem replace_again {content : Content} (h : (tree.replace path content).answer = .ok ())
    (another : Content) :
    ((tree.replace path content).state.replace path another).answer = .ok () := by
  obtain ⟨hread, hgone⟩ := replace_eq_ok h
  have hentry := (read_eq_ok_iff.mp hread).2.1
  obtain ⟨written, hmade, hwrite, hrename⟩ := exists_of_replace h
  generalize (tree.replace path content).state = last at hread hgone hentry hrename ⊢
  have hrenamed : ∀ place, written.entry? place = some .directory →
      last.entry? place = some .directory :=
    fun place hplace => entry?_of_rename_of_directory hrename hplace
  have hkeeps : ∀ place, entry? (tree.createParents path).state place = some .directory →
      last.entry? place = some .directory := by
    have hframe : Frame [locationOf (FilePath.sibling path)] [] _ written :=
      frame_write (List.mem_singleton_self _) hwrite
    exact fun place hplace => hrenamed place (hframe.directories place hplace)
  have hfree : last.entry? (locationOf (FilePath.sibling path)) ≠ some .directory := by
    simp [hgone]
  -- The temporary file is there once more, and the directories are as they were.
  have hagain := write_again hwrite hkeeps hfree another
  have hframe : Frame [locationOf (FilePath.sibling path)] [] last
      (last.put (locationOf (FilePath.sibling path)) (.file another)) :=
    .put_file (List.mem_singleton_self _) hfree another
  have htarget : entry? (last.put (locationOf (FilePath.sibling path)) (.file another))
      (locationOf path) ≠ some .directory := by
    have hne : locationOf path ≠ locationOf (FilePath.sibling path) := by
      intro heq
      rw [heq, hgone] at hentry
      cases hentry
    rw [entry?_put_of_ne last hne, hentry]
    simp
  obtain ⟨renamed, hrenamedAgain⟩ := rename_again hrename
    (fun place hplace => hframe.directories place (hrenamed place hplace))
    (entry?_put_self hfree _) htarget
  rw [replace_of_steps (createParents_again hmade hkeeps) hagain hrenamedAgain]
  rfl

end DocStore.FileTree
