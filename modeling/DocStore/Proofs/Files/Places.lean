import DocStore.Proofs.Files.Tree
import Mathlib.Logic.Function.Iterate
import Mathlib.Tactic.SplitIfs

/-!
# Places of texts

Where the text of a path leads once something is written behind it: into the same folder, to a
longer name (`locationOf_append`). So the files beside a file all have places of their own
(`locationOf_append_ne`), and a path that leads to a file ends in a name (`names_of_isFile`).
-/

namespace DocStore

lemma splitOnChar_of_notMem {separator : Char} {s : List Char} (h : separator ∉ s) :
    splitOnChar separator s = [s] := by
  induction s with
  | nil => rfl
  | cons c rest ih =>
    rw [List.mem_cons, not_or] at h
    rw [splitOnChar, if_neg (Ne.symm h.1), ih h.2]

lemma exists_splitOnChar_append {separator : Char} (s : List Char) {t : List Char}
    (h : separator ∉ t) :
    ∃ front last, splitOnChar separator s = front ++ [last] ∧
      splitOnChar separator (s ++ t) = front ++ [last ++ t] := by
  induction s with
  | nil => exact ⟨[], [], rfl, splitOnChar_of_notMem h⟩
  | cons c rest ih =>
    obtain ⟨front, last, hrest, happend⟩ := ih
    rw [List.cons_append, splitOnChar, splitOnChar, hrest, happend]
    by_cases hc : c = separator
    · exact ⟨[] :: front, last, by simp [hc], by simp [hc]⟩
    · cases front with
      | nil => exact ⟨[], c :: last, by simp [hc], by simp [hc]⟩
      | cons piece more => exact ⟨(c :: piece) :: more, last, by simp [hc], by simp [hc]⟩

lemma splitOnChar_concat (separator : Char) (s : List Char) :
    splitOnChar separator (s ++ [separator]) = splitOnChar separator s ++ [[]] := by
  induction s with
  | nil => simp [splitOnChar]
  | cons c rest ih =>
    rw [List.cons_append, splitOnChar, splitOnChar, ih]
    by_cases hc : c = separator
    · simp [hc]
    · cases hrest : splitOnChar separator rest with
      | nil => exact absurd hrest (splitOnChar_ne_nil separator rest)
      | cons piece more => simp [hc]

lemma notMem_of_mem_splitOnChar {separator : Char} {s piece : List Char}
    (h : piece ∈ splitOnChar separator s) : separator ∉ piece := by
  induction s generalizing piece with
  | nil =>
    rw [splitOnChar, List.mem_singleton] at h
    simp [h]
  | cons c rest ih =>
    rw [splitOnChar] at h
    split_ifs at h with hc
    · rcases List.mem_cons.mp h with rfl | h
      · exact List.not_mem_nil
      · exact ih h
    · cases hrest : splitOnChar separator rest with
      | nil => exact absurd hrest (splitOnChar_ne_nil separator rest)
      | cons first more =>
        rw [hrest] at h ih
        rcases List.mem_cons.mp h with rfl | h
        · rw [List.mem_cons, not_or]
          exact ⟨Ne.symm hc, ih (List.mem_cons_self ..)⟩
        · exact ih (List.mem_cons_of_mem _ h)

/-- The location behind a piece of a path. -/
def Route.follow (location : Location) (piece : String) : Location :=
  if FilePath.isIdle piece then location else descend location piece

namespace FilePath

/-- What stands behind the last slash. -/
def name (path : String) : String :=
  (pieces path).getLast?.getD ""

/-- The steps in front of the last slash. -/
def leading (path : String) : List String :=
  (pieces path).dropLast.filter (!isIdle ·)

/-- The location that a path leads to in front of its last slash. -/
def folder (path : String) : Location :=
  (leading path).foldl Route.descend (FileTree.start (!isRelative path))

/-- A piece of a path that is the name of something. -/
def Names (piece : String) : Prop :=
  piece ≠ "" ∧ piece ≠ "." ∧ piece ≠ ".."

lemma Names.isIdle {piece : String} (h : Names piece) : isIdle piece = false := by
  simp [FilePath.isIdle, h.1, h.2.1]

lemma names_append (piece : String) {suffix : String} (h : 3 ≤ suffix.length) :
    Names (piece ++ suffix) := by
  have hlength : 3 ≤ (piece ++ suffix).length := by
    rw [String.length_append]
    omega
  refine ⟨?_, ?_, ?_⟩
  all_goals
    intro heq
    rw [heq] at hlength
    exact absurd hlength (by decide)

variable {path suffix : String}

lemma exists_pieces_append (path : String) (h : '/' ∉ suffix.toList) :
    ∃ front last, pieces path = front ++ [last] ∧
      pieces (path ++ suffix) = front ++ [last ++ suffix] := by
  obtain ⟨front, last, hpath, happend⟩ := exists_splitOnChar_append path.toList h
  refine ⟨front.map String.ofList, String.ofList last, ?_, ?_⟩
  · simp [pieces, hpath]
  · simp [pieces, String.toList_append, happend, String.ofList_append]

lemma pieces_eq (path : String) : pieces path = (pieces path).dropLast ++ [name path] := by
  have hempty : '/' ∉ "".toList := List.not_mem_nil
  obtain ⟨front, last, hpath, -⟩ := exists_pieces_append path hempty
  simp [name, hpath]

lemma notMem_name (path : String) : '/' ∉ (name path).toList := by
  have hmem : name path ∈ pieces path := by
    rw [pieces_eq path]
    exact List.mem_append_right _ (List.mem_singleton_self _)
  obtain ⟨piece, hpiece, heq⟩ := List.mem_map.mp hmem
  rw [← heq, String.toList_ofList]
  exact notMem_of_mem_splitOnChar hpiece

lemma name_append (path : String) (h : '/' ∉ suffix.toList) :
    name (path ++ suffix) = name path ++ suffix := by
  obtain ⟨front, last, hpath, happend⟩ := exists_pieces_append path h
  simp [name, hpath, happend]

lemma leading_append (path : String) (h : '/' ∉ suffix.toList) :
    leading (path ++ suffix) = leading path := by
  obtain ⟨front, last, hpath, happend⟩ := exists_pieces_append path h
  simp [leading, hpath, happend]

lemma isRelative_append (path : String) (h : '/' ∉ suffix.toList) :
    isRelative (path ++ suffix) = isRelative path := by
  rw [isRelative, isRelative, String.toList_append]
  cases hpath : path.toList with
  | cons c rest => rfl
  | nil =>
    cases hsuffix : suffix.toList with
    | nil => rfl
    | cons c rest =>
      have hc : c ≠ '/' := fun heq => h (by simp [hsuffix, heq])
      rw [List.nil_append, List.head?_cons, bne_iff_ne.mpr (by simpa using hc)]
      rfl

lemma folder_append (path : String) (h : '/' ∉ suffix.toList) :
    folder (path ++ suffix) = folder path := by
  rw [folder, folder, leading_append path h, isRelative_append path h]

lemma exists_join_eq (directory : String) :
    ∃ base, name base = "" ∧
      ∀ file : String, '/' ∉ file.toList → join directory file = base ++ file := by
  have hrelative : ∀ file : String, '/' ∉ file.toList → isRelative file = true := by
    intro file hfile
    cases h : file.toList with
    | nil => simp [isRelative, h]
    | cons c rest =>
      have hc : c ≠ '/' := fun heq => hfile (by simp [h, heq])
      simpa [isRelative, h] using hc
  have hslash : ∀ front : List Char, name (String.ofList (front ++ ['/'])) = "" := by
    intro front
    simp [name, pieces, splitOnChar_concat]
  by_cases hempty : directory.isEmpty
  · exact ⟨"", rfl, fun file hfile => by simp [join, hrelative file hfile, hempty]⟩
  · by_cases hend : directory.toList.getLast? = some '/'
    · refine ⟨directory, ?_, fun file hfile => by simp [join, hrelative file hfile, hempty, hend]⟩
      obtain ⟨front, hfront⟩ := List.getLast?_eq_some_iff.mp hend
      rw [← String.ofList_toList (s := directory), hfront]
      exact hslash front
    · refine ⟨directory ++ "/", ?_, fun file hfile => by
        simp [join, hrelative file hfile, hempty, hend]⟩
      rw [← String.ofList_toList (s := directory ++ "/"), String.toList_append]
      exact hslash _

end FilePath

open FilePath (Names name folder)

lemma Route.follow_of_names {piece : String} (h : Names piece) (location : Location) :
    follow location piece = location ++ [piece] := by
  rw [follow, h.isIdle, if_neg Bool.false_ne_true, descend, if_neg h.2.2]

lemma Route.follow_ne {piece other : String} (h : Names piece) (hne : other ≠ piece)
    (location : Location) : follow location other ≠ location ++ [piece] := by
  intro heq
  have hlength := congrArg List.length heq
  rw [follow, descend, FileTree.above] at heq hlength
  split_ifs at heq hlength with hidle hup hroot hdots
  · simp at hlength
  · simp at hlength
  · have hstep := List.append_cancel_left heq
    exact h.2.2 (by simpa using hstep.symm)
  · rw [List.length_dropLast, List.length_append, List.length_singleton] at hlength
    omega
  · have hstep := List.append_cancel_left heq
    exact hne (by simpa using hstep)

namespace FileTree

variable {path suffix : String}

lemma locationOf_eq (path : String) :
    locationOf path = Route.follow (folder path) (name path) := by
  rw [locationOf, Route.location, Route.ofText]
  dsimp only
  rw [FilePath.pieces_eq path, List.filter_append, List.foldl_append]
  change _ = Route.follow ((FilePath.leading path).foldl _ _) _
  rw [Route.follow]
  cases hidle : FilePath.isIdle (name path) <;> simp [hidle, FilePath.leading]

theorem locationOf_append (path : String) (h : '/' ∉ suffix.toList) :
    locationOf (path ++ suffix) = Route.follow (folder path) (name path ++ suffix) := by
  rw [locationOf_eq, FilePath.folder_append path h, FilePath.name_append path h]

/-- Files whose names differ in what is appended have places of their own. -/
theorem locationOf_append_ne (path : String) {other : String} (h : '/' ∉ suffix.toList)
    (ho : '/' ∉ other.toList) (hlong : 3 ≤ suffix.length) (hne : other ≠ suffix) :
    locationOf (path ++ other) ≠ locationOf (path ++ suffix) := by
  have hnames : Names (name path ++ suffix) := FilePath.names_append _ hlong
  rw [locationOf_append path h, locationOf_append path ho, Route.follow_of_names hnames]
  refine Route.follow_ne hnames (fun heq => hne ?_) _
  exact (String.append_right_inj _).mp heq

variable {tree : FileTree}

/-- Everything above a location is a directory. -/
def StandsBelow (tree : FileTree) (location : Location) : Prop :=
  ∀ n, tree.entry? (above^[n + 1] location) = some .directory

lemma entry?_of_isStart (tree : FileTree) {location : Location} (h : isStart location = true) :
    tree.entry? location = some .directory := by
  unfold entry?
  rw [if_pos h]

lemma isStart_above {location : Location} (h : isStart location = true) :
    isStart (above location) = true := by
  unfold above
  split_ifs with hroot hdots
  · exact h
  · simp only [List.all_eq_true, beq_iff_eq] at hdots
    simpa [isStart] using .inr hdots
  · simp [isStart, hroot, hdots] at h

lemma standsBelow_of_isStart {location : Location} (h : isStart location = true) :
    tree.StandsBelow location := by
  intro n
  refine entry?_of_isStart tree ?_
  induction n generalizing location with
  | zero => exact isStart_above h
  | succ n ih => exact ih (isStart_above h)

lemma isStart_start (absolute : Bool) : isStart (start absolute) = true := by
  cases absolute <;> rfl

lemma StandsBelow.descend {location : Location} (h : tree.StandsBelow location)
    (hentry : tree.entry? location = some .directory) (step : String) :
    tree.StandsBelow (Route.descend location step) := by
  rw [Route.descend]
  split_ifs with hup
  · exact fun n => h (n + 1)
  · by_cases hroot : location ++ [step] = ["/"]
    · exact standsBelow_of_isStart (by rw [hroot]; rfl)
    · have habove : above (location ++ [step]) = location := by
        simp [above, hroot, hup]
      intro n
      cases n with
      | zero => simpa [habove] using hentry
      | succ n => simpa [Function.iterate_succ_apply, habove] using h n

lemma standsBelow_of_walk {location goal : Location} {steps : List String}
    (h : tree.StandsBelow location) (hwalk : tree.walk location steps = .ok goal) :
    tree.StandsBelow goal := by
  induction steps generalizing location with
  | nil =>
    cases hwalk
    exact h
  | cons step rest ih =>
    rw [walk] at hwalk
    split at hwalk
    · cases hwalk
    · cases hwalk
    · rename_i hentry
      have hnext := h.descend hentry step
      rw [Route.descend] at hnext
      split_ifs at hwalk hnext with hup
      · exact ih hnext hwalk
      · exact ih hnext hwalk

lemma walk_append {location goal : Location} {steps rest : List String}
    (h : tree.walk location (steps ++ rest) = .ok goal) :
    ∃ middle, tree.walk location steps = .ok middle ∧ tree.walk middle rest = .ok goal := by
  induction steps generalizing location with
  | nil => exact ⟨location, rfl, h⟩
  | cons step more ih =>
    rw [List.cons_append, walk] at h
    rw [walk]
    split at h
    · cases h
    · cases h
    · rename_i hentry
      split_ifs at h ⊢
      · exact ih h
      · exact ih h

lemma walk_of_locate {location : Location} (h : tree.locate path = .ok location) :
    tree.walk (start (!FilePath.isRelative path)) (Route.ofText path).steps = .ok location := by
  unfold locate at h
  split at h
  · cases h
  · split_ifs at h
    exact h

lemma entry?_of_isFile (h : tree.isFile path = true) :
    ∃ content, tree.entry? (locationOf path) = some (.file content) := by
  unfold isFile at h
  split at h
  · rename_i content hat
    exact ⟨content, entry?_of_at? hat⟩
  · cases h

lemma asDirectory_ofText (path : String) :
    (Route.ofText path).asDirectory = FilePath.isIdle (name path) := by
  rw [Route.ofText]
  dsimp only
  rw [FilePath.pieces_eq, List.getLast?_concat]
  rfl

lemma read_eq_ok_iff {content : Content} :
    tree.read path = .ok content ↔
      tree.locate path = .ok (locationOf path) ∧
        tree.entry? (locationOf path) = some (.file content) ∧
        (Route.ofText path).asDirectory = false := by
  simp only [read, at?, bind, Except.bind]
  cases hlocate : tree.locate path with
  | error fault => simp
  | ok location =>
    obtain rfl := locate_eq_location hlocate
    cases hentry : tree.entry? (locationOf path) with
    | none => simp [hentry]
    | some entry =>
      cases entry with
      | directory => simp [hentry]
      | file found => cases hdirectory : (Route.ofText path).asDirectory <;> simp [hentry]

lemma isFile_of_read {content : Content} (h : tree.read path = .ok content) :
    tree.isFile path = true := by
  obtain ⟨hlocate, hentry, hdirectory⟩ := read_eq_ok_iff.mp h
  simp [isFile, at?, bind, Except.bind, hlocate, hentry, hdirectory]

/-- A path that leads to a file ends in a name: behind an idle piece or `..` is a directory. -/
theorem names_of_isFile (h : tree.isFile path = true) : Names (name path) := by
  unfold isFile at h
  split at h
  · rename_i content hat
    have hplace := entry?_of_at? hat
    simp only [at?, bind, Except.bind] at hat
    split at hat
    · cases hat
    · rename_i location hlocation
      rw [locate_eq_location hlocation, hplace] at hat
      have hidle : FilePath.isIdle (name path) = false := by
        rw [← asDirectory_ofText]
        cases h : (Route.ofText path).asDirectory with
        | false => rfl
        | true => simp [h] at hat
      refine ⟨fun heq => ?_, fun heq => ?_, fun hup => ?_⟩
      · simp [heq, FilePath.isIdle] at hidle
      · simp [heq, FilePath.isIdle] at hidle
      -- The last step goes up from a place below which everything is a directory.
      · have hsteps : (Route.ofText path).steps = FilePath.leading path ++ [".."] := by
          rw [Route.ofText]
          dsimp only
          rw [FilePath.pieces_eq, List.filter_append, hup]
          rfl
        have hwalk := walk_of_locate hlocation
        rw [hsteps] at hwalk
        obtain ⟨middle, hmiddle, hlast⟩ := walk_append hwalk
        have hstart : tree.StandsBelow (start (Route.ofText path).absolute) :=
          standsBelow_of_isStart (isStart_start _)
        have hbelow := standsBelow_of_walk hstart hmiddle
        have hgoal := walk_eq_foldl hlast
        rw [← locate_eq_location hlocation, hgoal] at hplace
        have habove := hbelow 0
        simp [Route.descend] at hplace habove
        rw [habove] at hplace
        cases hplace
  · cases h

end FileTree

end DocStore
