import DocStore.Proofs.Files.Companions

/-!
# Databases that are opened again

A path that the engine has once followed to a temporary file it follows to the file itself as well
(`resolve_of_walk`), and the image that it finds there is read unless a directory stands in the way
(`Hindered`): `loadDatabase_of_keepsImage`.
-/

namespace DocStore.FileTree

open FilePath (Names name)

variable {tree after : FileTree} {location : Location}

lemma stepsSize_concat (steps : List String) (step : String) :
    stepsSize (steps ++ [step]) = stepsSize steps + 1 + step.utf8ByteSize := by
  rw [stepsSize, stepsSize, List.foldl_append]
  rfl

lemma takeWhile_concat_of_neg {p : String → Bool} (steps : List String) {step : String}
    (h : p step = false) : (steps ++ [step]).takeWhile p = steps.takeWhile p := by
  induction steps with
  | nil => simp [h]
  | cons first rest ih => by_cases hfirst : p first <;> simp [hfirst, ih]

lemma exists_pathSize_concat (tree : FileTree) (location : Location) :
    ∃ size, ∀ step, step ≠ ".." → step ≠ "/" →
      tree.pathSize (location ++ [step]) = size + step.utf8ByteSize := by
  by_cases hroot : (location.head? == some "/") = true
  · refine ⟨stepsSize location.tail + 1, fun step _ _ => ?_⟩
    cases location with
    | nil => cases hroot
    | cons first rest =>
      rw [pathSize, List.cons_append, List.head?_cons, List.tail_cons, ← List.head?_cons (l := rest),
        if_pos hroot, stepsSize_concat]
      rfl
  -- A name behind a location never changes how many steps the location goes up.
  · let base := (Route.ofText tree.workingDirectory).steps
    let up := (location.takeWhile (· == "..")).length
    have hup : up ≤ location.length := (List.takeWhile_sublist _).length_le
    refine ⟨stepsSize (base.take (base.length - up)) + (stepsSize (location.drop up) + 1),
      fun step hstep hslash => ?_⟩
    have hhead : ((location ++ [step]).head? == some "/") = false := by
      cases location with
      | nil => simpa using hslash
      | cons first rest => simpa using hroot
    have hsteps : (location ++ [step]).takeWhile (· == "..") = location.takeWhile (· == "..") :=
      takeWhile_concat_of_neg location (by simpa using hstep)
    rw [pathSize, hhead, if_neg Bool.false_ne_true, hsteps]
    change stepsSize (base.take (base.length - up)) + stepsSize ((location ++ [step]).drop up) = _
    rw [List.drop_append_of_le_length hup, stepsSize_concat]
    omega

lemma pathSize_concat_le (tree : FileTree) (location : Location) {step longer : String}
    (hstep : step ≠ ".." ∧ step ≠ "/") (hlonger : longer ≠ ".." ∧ longer ≠ "/")
    (h : step.utf8ByteSize ≤ longer.utf8ByteSize) :
    tree.pathSize (location ++ [step]) ≤ tree.pathSize (location ++ [longer]) := by
  obtain ⟨size, hsize⟩ := exists_pathSize_concat tree location
  rw [hsize step hstep.1 hstep.2, hsize longer hlonger.1 hlonger.2]
  omega

lemma pathSize_congr (h : after.workingDirectory = tree.workingDirectory) (location : Location) :
    after.pathSize location = tree.pathSize location := by
  rw [pathSize, pathSize, h]

lemma resolve_cons_eq_some {goal : Location} {step : String} {rest : List String}
    (hstep : step ≠ "..") (h : tree.resolve location (step :: rest) = some goal) :
    tree.pathSize (location ++ [step]) < databasePathBound ∧
      tree.resolve (location ++ [step]) rest = some goal := by
  rw [resolve, if_neg hstep] at h
  dsimp only at h
  by_cases hbound : databasePathBound ≤ tree.pathSize (location ++ [step])
  · rw [if_pos hbound] at h
    cases h
  · rw [if_neg hbound] at h
    refine ⟨Nat.lt_of_not_le hbound, ?_⟩
    split at h
    · cases h
    · split_ifs at h
      exact h
    · exact h

lemma resolve_of_directory {step : String} {rest : List String} (hstep : step ≠ "..")
    (hbound : tree.pathSize (location ++ [step]) < databasePathBound)
    (hentry : tree.entry? location = some .directory) (hname : ¬nameLimit < step.utf8ByteSize) :
    tree.resolve location (step :: rest) = tree.resolve (location ++ [step]) rest := by
  rw [resolve, if_neg hstep]
  dsimp only
  rw [if_neg (Nat.not_le.mpr hbound), hentry]
  dsimp only
  rw [if_neg hname]

/-- Where the operating system follows a path, the engine does, once it has followed a path that
differs in a longer last name. -/
lemma resolve_of_walk (hroot : after.workingDirectory = tree.workingDirectory)
    {goal other : Location} {steps : List String} {step longer : String}
    (hstep : step ≠ ".." ∧ step ≠ "/") (hlonger : longer ≠ ".." ∧ longer ≠ "/")
    (hsize : step.utf8ByteSize ≤ longer.utf8ByteSize)
    (hwalk : after.walk location (steps ++ [step]) = .ok goal)
    (hresolve : tree.resolve location (steps ++ [longer]) = some other) :
    after.resolve location (steps ++ [step]) = some goal := by
  -- The engine passes where the system does, through directories, and only the lengths are left:
  -- in front of the last step both paths are the same, and the last name is the shorter one.
  induction steps generalizing location with
  | nil =>
    obtain ⟨-, hlast⟩ := resolve_cons_eq_some hlonger.1 hresolve
    have hroom : tree.pathSize (location ++ [longer]) + companionRoom ≤ databasePathBound := by
      rw [resolve] at hlast
      split_ifs at hlast with h
      exact h
    have hle : after.pathSize (location ++ [step]) + companionRoom ≤ databasePathBound := by
      rw [pathSize_congr hroot]
      exact Nat.le_trans
        (Nat.add_le_add_right (pathSize_concat_le tree location hstep hlonger hsize) _) hroom
    rw [List.nil_append, walk, if_neg hstep.1] at hwalk
    split at hwalk
    · cases hwalk
    · cases hwalk
    · rename_i hentry
      split_ifs at hwalk with hname
      cases hwalk
      have hbound : after.pathSize (location ++ [step]) < databasePathBound :=
        Nat.lt_of_lt_of_le (Nat.lt_add_of_pos_right (by decide)) hle
      rw [List.nil_append, resolve_of_directory hstep.1 hbound hentry hname, resolve, if_pos hle]
  | cons first rest ih =>
    rw [List.cons_append, walk] at hwalk
    rw [List.cons_append] at hresolve ⊢
    split at hwalk
    · cases hwalk
    · cases hwalk
    · rename_i hentry
      by_cases hup : first = ".."
      · rw [if_pos hup] at hwalk
        rw [resolve, if_pos hup] at hresolve ⊢
        exact ih hwalk hresolve
      · rw [if_neg hup] at hwalk
        split_ifs at hwalk with hname
        obtain ⟨hbound, hrest⟩ := resolve_cons_eq_some hup hresolve
        rw [← pathSize_congr hroot] at hbound
        rw [resolve_of_directory hup hbound hentry hname]
        exact ih hwalk hrest

/-- A file keeps an image, and the engine follows its path to it. -/
structure KeepsImage (tree : FileTree) (path : String) (image : Sql.Image) : Prop where
  read : tree.read path = .ok (.ofImage image)
  followed : tree.resolve (start (!FilePath.isRelative path)) (Route.ofText path).steps =
    some (locationOf path)

variable {path : String} {image : Sql.Image} {touched made : List Location}

lemma steps_ofText (h : Names (name path)) :
    (Route.ofText path).steps = FilePath.leading path ++ [name path] := by
  rw [Route.ofText]
  dsimp only
  rw [FilePath.pieces_eq, List.filter_append]
  simp [FilePath.leading, h.isIdle]

lemma name_ne_root (path : String) : name path ≠ "/" := by
  intro heq
  have hslash := FilePath.notMem_name path
  rw [heq] at hslash
  exact hslash (by decide)

lemma resolve_of_read {content : Content} {goal : Location} {suffix : String}
    (hroot : after.workingDirectory = tree.workingDirectory) (hread : after.read path = .ok content)
    (hsuffix : '/' ∉ suffix.toList) (hnames : Names (name path ++ suffix))
    (h : tree.resolve (start (!FilePath.isRelative (path ++ suffix)))
      (Route.ofText (path ++ suffix)).steps = some goal) :
    after.resolve (start (!FilePath.isRelative path)) (Route.ofText path).steps =
      some (locationOf path) := by
  obtain ⟨hlocate, -, -⟩ := read_eq_ok_iff.mp hread
  have hname := names_of_isFile (isFile_of_read hread)
  have hwalk := walk_of_locate hlocate
  have happend := FilePath.name_append path hsuffix
  have hroot' : name path ++ suffix ≠ "/" := happend ▸ name_ne_root (path ++ suffix)
  rw [steps_ofText (happend ▸ hnames), FilePath.leading_append path hsuffix, happend,
    FilePath.isRelative_append path hsuffix] at h
  rw [steps_ofText hname] at hwalk ⊢
  refine resolve_of_walk hroot ⟨hname.2.2, name_ne_root path⟩ ⟨hnames.2.2, hroot'⟩ ?_ hwalk h
  rw [String.utf8ByteSize_append]
  exact Nat.le_add_right _ _

lemma Frame.read (h : Frame touched made tree after) (hpath : locationOf path ∉ touched)
    {content : Content} (hread : tree.read path = .ok content) :
    after.read path = .ok content := by
  obtain ⟨hlocate, hentry, hdirectory⟩ := read_eq_ok_iff.mp hread
  have hkept := (h.outside _ hpath).eq fun _ => by simp [hentry]
  exact read_eq_ok_iff.mpr
    ⟨locate_of_directories h.directories hlocate, hkept.trans hentry, hdirectory⟩

lemma KeepsImage.frame (hkeeps : tree.KeepsImage path image) (h : Frame touched made tree after)
    (hpath : locationOf path ∉ touched) : after.KeepsImage path image := by
  have hread := h.read hpath hkeeps.read
  have hname := names_of_isFile (isFile_of_read hread)
  have hfollowed := hkeeps.followed
  rw [← String.append_empty (s := path)] at hfollowed
  exact ⟨hread, resolve_of_read h.root hread (by decide) (by rwa [String.append_empty]) hfollowed⟩

/-- A directory stands where the engine looks for the journal or the log of a database, or for the
index of a log that it has to clear away. -/
def Hindered (tree : FileTree) (location : Location) : Prop :=
  tree.entry? (journal location) = some .directory ∨
  tree.entry? (log location) = some .directory ∨
  (∃ left, tree.entry? (log location) = some (.file left) ∧ left.isEmpty = false) ∧
    tree.entry? (logIndex location) = some .directory

variable {locator : Sql.Locator} {content : Content}

lemma answer_clearJournal (hmode : locator.mode ≠ .readOnly)
    (h : tree.entry? (journal location) ≠ some .directory) :
    (tree.clearJournal locator location content).answer = .ok () := by
  unfold clearJournal
  split
  · rfl
  · rename_i hentry
    exact absurd hentry h
  · split_ifs <;> rfl

lemma answer_clearLog (hmode : locator.mode ≠ .readOnly)
    (h : tree.entry? (log location) ≠ some .directory)
    (hindex : ∀ left, tree.entry? (log location) = some (.file left) → left.isEmpty = false →
      tree.entry? (logIndex location) ≠ some .directory) :
    (tree.clearLog locator location content).answer = .ok () := by
  unfold clearLog
  split
  · rfl
  · rename_i hentry
    exact absurd hentry h
  · rename_i left hentry
    split_ifs with hleft
    · rfl
    · rfl
    · split
      · rename_i hdirectory
        exact absurd hdirectory (hindex left hentry (by simpa [hmode] using hleft))
      · rfl

lemma entry?_clearJournal (tree : FileTree) (locator : Sql.Locator) (location : Location)
    (content : Content) :
    entry? (tree.clearJournal locator location content).state (log location) =
        tree.entry? (log location) ∧
      entry? (tree.clearJournal locator location content).state (logIndex location) =
        tree.entry? (logIndex location) := by
  have hframe : Frame [journal location] [] tree
      (tree.clearJournal locator location content).state :=
    frame_clearJournal (List.mem_singleton_self _) tree locator content
  have hother : ∀ suffix, suffix ≠ "-journal" → beside location suffix ∉ [journal location] := by
    intro suffix h
    rw [List.mem_singleton]
    exact beside_ne_beside location h
  exact ⟨(hframe.outside _ (hother "-wal" (by decide))).eq (by simp),
    (hframe.outside _ (hother "-shm" (by decide))).eq (by simp)⟩

lemma answer_readImage_of_not_hindered (hmode : locator.mode ≠ .readOnly)
    (himmutable : locator.isImmutable = false)
    (hentry : tree.entry? location = some (.file content)) (himage : content.asImage? = some image)
    (h : ¬tree.Hindered location) : (tree.readImage locator location).answer = .ok image := by
  rw [Hindered, not_or, not_or] at h
  obtain ⟨hjournal, hlog, hindex⟩ := h
  obtain ⟨hlog', hindex'⟩ := entry?_clearJournal tree locator location content
  have hfirst : (tree.clearJournal locator location content).answer = .ok () :=
    answer_clearJournal hmode hjournal
  have hsecond : ((tree.clearJournal locator location content).state.clearLog locator location
      content).answer = .ok () := by
    refine answer_clearLog hmode (hlog'.trans_ne hlog) fun left hleft hfull hdirectory => hindex ?_
    exact ⟨⟨left, hlog'.symm.trans hleft, hfull⟩, hindex'.symm.trans hdirectory⟩
  unfold readImage
  rw [hentry]
  dsimp only
  rw [himmutable, if_neg Bool.false_ne_true, Outcome.andThen_of_ok hfirst,
    Outcome.andThen_of_ok hsecond, himage]
  rfl

/-- The engine gives up on a file that is not empty where something is in its way. -/
lemma not_hindered_of_readImage (hmode : locator.mode ≠ .readOnly)
    (himmutable : locator.isImmutable = false)
    (hentry : tree.entry? location = some (.file content)) (hfull : content.isEmpty = false)
    (h : (tree.readImage locator location).answer = .ok image) : ¬tree.Hindered location := by
  obtain ⟨hlog', hindex'⟩ := entry?_clearJournal tree locator location content
  unfold readImage at h
  rw [hentry] at h
  dsimp only at h
  rw [himmutable, if_neg Bool.false_ne_true] at h
  obtain ⟨_, hcleared, -⟩ := Outcome.answer_andThen_eq_ok h
  obtain ⟨_, hfirst, hsecond⟩ := Outcome.answer_andThen_eq_ok hcleared
  rintro (hdirectory | hdirectory | ⟨⟨left, hleft, hnonempty⟩, hdirectory⟩)
  · rw [clearJournal, hdirectory] at hfirst
    simp [hfull, Outcome.fail] at hfirst
  · rw [clearLog, hlog', hdirectory] at hsecond
    cases hsecond
  · rw [clearLog, hlog', hindex', hleft, hdirectory] at hsecond
    simp [hfull, hnonempty, hmode, Outcome.fail] at hsecond

/-- An image that a file keeps is loaded unless something is in the way. -/
theorem loadDatabase_of_keepsImage (hpath : ¬Sql.Locator.Marked path) (hmemory : path ≠ ":memory:")
    (htables : image.tables ≠ []) (h : tree.KeepsImage path image) :
    (¬tree.Hindered (locationOf path) → (tree.loadDatabase path).answer = .ok image) ∧
      (tree.Hindered (locationOf path) → ∃ fault, (tree.loadDatabase path).answer = .error fault) := by
  obtain ⟨-, hentry, -⟩ := read_eq_ok_iff.mp h.read
  have hname := names_of_isFile (isFile_of_read h.read)
  have hempty : path ≠ "" := by
    rintro rfl
    exact hname.1 rfl
  have hkept : (Sql.Locator.ofName path).isUnkept = false := by
    simp [Sql.Locator.isUnkept, Sql.Locator.ofName, hmemory, hempty]
  have hopen : tree.openDatabase? (Sql.Locator.ofName path) = some (locationOf path, tree) := by
    refine Option.bind_eq_some_iff.mpr ⟨locationOf path, h.followed, ?_⟩
    rw [hentry]
  have hload : tree.loadDatabase path =
      tree.readImage (Sql.Locator.ofName path) (locationOf path) := by
    rw [loadDatabase, Sql.Locator.ofPath_of_not_marked hpath]
    simp only [hkept, hopen, Bool.false_eq_true, if_false]
  have hmode : (Sql.Locator.ofName path).mode ≠ .readOnly := fun hmode => by cases hmode
  have himmutable : (Sql.Locator.ofName path).isImmutable = false := rfl
  have hfull : (Content.ofImage image).isEmpty = false := by
    rw [Content.ofImage, if_neg (by simpa using htables)]
    rfl
  rw [hload]
  refine ⟨answer_readImage_of_not_hindered hmode himmutable hentry
    (Content.asImage?_ofImage image),
    fun hhindered => ?_⟩
  cases hanswer : (tree.readImage (Sql.Locator.ofName path) (locationOf path)).answer with
  | error fault => exact ⟨fault, rfl⟩
  | ok found =>
    exact absurd hhindered (not_hindered_of_readImage hmode himmutable hentry hfull hanswer)

end DocStore.FileTree
