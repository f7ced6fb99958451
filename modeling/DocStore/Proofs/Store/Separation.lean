import DocStore.Proofs.Store.Sessions
import DocStore.Proofs.Store.WholeFiles

/-!
# Files of the other backend

A configuration names a file for each backend, and only one backend is used. The other file is kept
by every run unless its name is what the backend in use takes for a file beside its own:
`other_file_kept`.
-/

namespace DocStore

namespace Config

variable {config : Config}

lemma notMem_of_nameFault?_eq_none {field name : String} (h : nameFault? field name = none) :
    '/' ∉ name.toList := by
  unfold nameFault? at h
  split_ifs at h with hblank hslash
  simp only [Bool.or_eq_true, not_or, List.contains_iff_mem] at hslash
  exact hslash.1

lemma bare_of_fault?_eq_none (h : config.fault? = none) :
    '/' ∉ config.snapshotFile.toList ∧ '/' ∉ config.sqliteFile.toList ∧
      config.snapshotFile ≠ config.sqliteFile := by
  simp only [fault?, Option.orElse_eq_orElse, Option.orElse_eq_or, Option.or_eq_none_iff] at h
  obtain ⟨hsnapshot, hsqlite, hsame, -⟩ := h
  refine ⟨notMem_of_nameFault?_eq_none hsnapshot, notMem_of_nameFault?_eq_none hsqlite, ?_⟩
  intro heq
  rw [if_pos heq] at hsame
  cases hsame

end Config

namespace FilePath

variable {directory file : String}

lemma name_join (h : '/' ∉ file.toList) : name (join directory file) = file := by
  obtain ⟨base, hbase, hjoin⟩ := exists_join_eq directory
  rw [hjoin file h, name_append base h, hbase, String.empty_append]

lemma join_append {suffix : String} (h : '/' ∉ file.toList) (hsuffix : '/' ∉ suffix.toList) :
    join directory file ++ suffix = join directory (file ++ suffix) := by
  obtain ⟨base, -, hjoin⟩ := exists_join_eq directory
  have happend : '/' ∉ (file ++ suffix).toList := by
    rw [String.toList_append, List.mem_append, not_or]
    exact ⟨h, hsuffix⟩
  rw [hjoin file h, hjoin _ happend, String.append_assoc]

/-- Only the name of a file leads to its place in the directory. -/
lemma locationOf_join_ne {other : String} (h : '/' ∉ file.toList) (hother : '/' ∉ other.toList)
    (hnames : Names file) (hne : other ≠ file) :
    FileTree.locationOf (join directory other) ≠ FileTree.locationOf (join directory file) := by
  obtain ⟨base, hbase, hjoin⟩ := exists_join_eq directory
  rw [hjoin file h, hjoin other hother, FileTree.locationOf_append base h,
    FileTree.locationOf_append base hother, hbase, String.empty_append, String.empty_append,
    Route.follow_of_names hnames]
  exact Route.follow_ne hnames hne _

end FilePath

/-- What a backend appends to the name of its file for the files beside it. -/
def BackendKind.suffixes : BackendKind → List String
  | .snapshot => [".tmp"]
  | .sqlite => [".tmp", ".tmp-journal", ".tmp-wal", ".tmp-shm", "-journal", "-wal", "-shm"]

namespace Config

def usedFile (config : Config) : String :=
  match config.backend with
  | .snapshot => config.snapshotFile
  | .sqlite => config.sqliteFile

def otherFile (config : Config) : String :=
  match config.backend with
  | .snapshot => config.sqliteFile
  | .sqlite => config.snapshotFile

def usedPath (config : Config) : String :=
  FilePath.join config.cacheDir config.usedFile

def otherPath (config : Config) : String :=
  FilePath.join config.cacheDir config.otherFile

/-- A place that the backend in use does not take. -/
structure Spares (config : Config) (place : Location) : Prop where
  file : FilePath.Names (FilePath.name config.usedPath) →
    place ≠ FileTree.locationOf config.usedPath
  beside : ∀ suffix ∈ config.backend.suffixes,
    place ≠ FileTree.locationOf (config.usedPath ++ suffix)
  locator : config.backend = .sqlite → ¬Sql.Locator.Marked config.usedPath

variable {config : Config}

lemma bare_usedFile (h : config.fault? = none) : '/' ∉ config.usedFile.toList := by
  obtain ⟨hsnapshot, hsqlite, -⟩ := bare_of_fault?_eq_none h
  unfold usedFile
  split
  · exact hsnapshot
  · exact hsqlite

lemma bare_otherFile (h : config.fault? = none) : '/' ∉ config.otherFile.toList := by
  obtain ⟨hsnapshot, hsqlite, -⟩ := bare_of_fault?_eq_none h
  unfold otherFile
  split
  · exact hsqlite
  · exact hsnapshot

lemma otherFile_ne_usedFile (h : config.fault? = none) : config.otherFile ≠ config.usedFile := by
  have hne := (bare_of_fault?_eq_none h).2.2
  unfold otherFile usedFile
  cases config.backend with
  | snapshot => exact hne.symm
  | sqlite => exact hne

lemma spares_otherPath (h : config.fault? = none)
    (hlocator : config.backend = .sqlite → ¬Sql.Locator.Marked config.usedPath)
    (hother : ∀ suffix ∈ config.backend.suffixes, config.otherFile ≠ config.usedFile ++ suffix) :
    config.Spares (FileTree.locationOf config.otherPath) where
  file hnames := by
    rw [usedPath, FilePath.name_join (bare_usedFile h)] at hnames
    exact FilePath.locationOf_join_ne (bare_usedFile h) (bare_otherFile h) hnames
      (otherFile_ne_usedFile h)
  beside suffix hsuffix := by
    have hshape : ∀ kind : BackendKind, ∀ suffix ∈ kind.suffixes,
        '/' ∉ suffix.toList ∧ 3 ≤ suffix.length := by
      rintro (_ | _) <;> decide
    obtain ⟨hslash, hlong⟩ := hshape _ suffix hsuffix
    have hfile : '/' ∉ (config.usedFile ++ suffix).toList := by
      rw [String.toList_append, List.mem_append, not_or]
      exact ⟨bare_usedFile h, hslash⟩
    rw [usedPath, FilePath.join_append (bare_usedFile h) hslash]
    exact FilePath.locationOf_join_ne hfile (bare_otherFile h)
      (FilePath.names_append _ hlong) (hother suffix hsuffix)
  locator := hlocator

end Config

namespace Backend

open FileTree

/-- The backend is the one that the configuration asks for, and so is the path of its file. -/
def Serves (config : Config) : Backend → Prop
  | .snapshot kept => config.backend = .snapshot ∧ kept.path = config.usedPath
  | .relational kept => config.backend = .sqlite ∧ kept.path = config.usedPath

/-- The backend serves a configuration, and a place that it spares has been kept since an earlier
tree. -/
def KeepsAt (config : Config) (place : Location) (files : FileTree) (held : Held) : Prop :=
  held.1.Serves config ∧ (config.Spares place →
    KeptAt (FilePath.way (FilePath.parent config.usedPath)) files held.2 place)

variable {config : Config} {place : Location} {files tree : FileTree}

lemma usedPath_of_snapshot (h : config.backend = .snapshot) :
    config.usedPath = config.snapshotPath := by
  rw [Config.usedPath, Config.usedFile, h, Config.snapshotPath]

lemma usedPath_of_sqlite (h : config.backend = .sqlite) : config.usedPath = config.sqlitePath := by
  rw [Config.usedPath, Config.usedFile, h, Config.sqlitePath]

lemma state_commit {α : Type} (kept : Snapshot) (files : FileTree) (change : α × Collections) :
    (ofSnapshot (kept.commit files change)).state =
      (.snapshot { kept with collections := change.2 },
        (Snapshot.persist { kept with collections := change.2 } files).state) := by
  simp only [ofSnapshot, Snapshot.commit, Outcome.mapState, Outcome.mapError, Outcome.map]

lemma keptAt_persist (kept : Snapshot) (hbackend : config.backend = .snapshot)
    (hpath : kept.path = config.usedPath) (hplace : config.Spares place) (tree : FileTree) :
    KeptAt (FilePath.way (FilePath.parent config.usedPath)) tree (kept.persist tree).state place := by
  have hbeside := hplace.beside
  rw [hbackend] at hbeside
  have hwhole := kept.wholeOrNot_persist tree
  rw [hpath] at hwhole
  refine hwhole.keptAt hplace.file ?_
  simpa [temporaries, BackendKind.suffixes, FilePath.sibling] using hbeside

lemma keepsAt_iff {backend : Backend} {after : FileTree} :
    KeepsAt config place files (backend, after) ↔ backend.Serves config ∧ (config.Spares place →
      KeptAt (FilePath.way (FilePath.parent config.usedPath)) files after place) := Iff.rfl

lemma KeepsAt.commit {kept : Snapshot} (h : KeepsAt config place files (.snapshot kept, tree))
    {α : Type} (change : α × Collections) :
    KeepsAt config place files (ofSnapshot (kept.commit tree change)).state := by
  obtain ⟨⟨hbackend, hpath⟩, hkept⟩ := h
  rw [state_commit, keepsAt_iff]
  have hnext (hplace : config.Spares place) :=
    keptAt_persist { kept with collections := change.2 } hbackend hpath hplace tree
  exact ⟨⟨hbackend, hpath⟩, fun hplace => (hkept hplace).trans (hnext hplace)⟩

lemma path_commit {α : Type} (db : Relational) (change : Except StoreError (α × Sql.Image)) :
    (db.commit change).state.path = db.path := by
  cases change <;> rfl

lemma KeepsAt.ofRelational {db : Relational} (h : KeepsAt config place files (.relational db, tree))
    {α : Type} (change : Except StoreError (α × Sql.Image)) :
    KeepsAt config place files (ofRelational tree (db.commit change)).state := by
  obtain ⟨⟨hbackend, hpath⟩, hkept⟩ := h
  exact ⟨⟨hbackend, (path_commit db change).trans hpath⟩, hkept⟩

lemma keptAt_flush {db : Relational} (hbackend : config.backend = .sqlite)
    (hpath : db.path = config.usedPath) (hplace : config.Spares place) (tree : FileTree) :
    KeptAt (FilePath.way (FilePath.parent config.usedPath)) tree (db.flush tree).state place := by
  have hbeside := hplace.beside
  rw [hbackend] at hbeside
  simp only [BackendKind.suffixes, List.forall_mem_cons] at hbeside
  have hwhole := Relational.wholeOrNot_flush (hpath ▸ hplace.locator hbackend) tree
  rw [hpath] at hwhole
  refine hwhole.keptAt hplace.file ?_
  simpa [temporaries, Relational.suffixes, FilePath.sibling, String.append_assoc] using
    ⟨hbeside.1, hbeside.2.1, hbeside.2.2.1, hbeside.2.2.2.1⟩

lemma keptAt_loadDatabase (hbackend : config.backend = .sqlite) (hplace : config.Spares place)
    (hfile : tree.isFile config.usedPath = true) (made : List Location) :
    KeptAt made tree (tree.loadDatabase config.usedPath).state place := by
  have hbeside := hplace.beside
  rw [hbackend] at hbeside
  have hframe : Frame (companions (locationOf config.usedPath)) made tree
      (tree.loadDatabase config.usedPath).state :=
    frame_loadDatabase (hplace.locator hbackend) hfile (List.Subset.refl _)
  refine hframe.outside place ?_
  rw [companions_locationOf (names_of_isFile hfile)]
  simp only [BackendKind.suffixes, List.forall_mem_cons] at hbeside
  simpa using hbeside.2.2.2.2

/-! ## Runs -/

lemma KeepsAt.carryOut {held : Held} (h : KeepsAt config place files held) (name : String)
    (request : Request) : KeepsAt config place files (carryOut name request held).state := by
  refine carryOut_preserves ?_ ?_ ?_ request h
  · rintro filter update upsert ⟨kept | db, tree⟩ h
    · rw [updateOne, Snapshot.updateOne]
      split
      · exact h
      · exact h.commit _
    · exact h.ofRelational _
  · rintro filter ⟨kept | db, tree⟩ h
    · rw [deleteMany, Snapshot.deleteMany]
      exact h.commit _
    · exact h.ofRelational _
  · rintro filter update ⟨kept | db, tree⟩ h
    · rw [findOneAndUpdate, Snapshot.findOneAndUpdate]
      exact h.commit _
    · exact h.ofRelational _

lemma KeepsAt.flush {held : Held} (h : KeepsAt config place files held) :
    KeepsAt config place files (flush held).state := by
  obtain ⟨kept | db, tree⟩ := held
  · rw [Backend.flush, Snapshot.flush]
    exact h.commit _
  · obtain ⟨⟨hbackend, hpath⟩, hkept⟩ := h
    rw [Backend.flush, Outcome.mapState, keepsAt_iff]
    exact ⟨⟨hbackend, hpath⟩,
      fun hplace => (hkept hplace).trans (keptAt_flush hbackend hpath hplace tree)⟩

lemma answer_persist_of_commit {kept : Snapshot} {α : Type} {change : α × Collections} {answer : α}
    (h : (ofSnapshot (kept.commit tree change)).answer = .ok answer) :
    (Snapshot.persist { kept with collections := change.2 } tree).answer = .ok () := by
  simp only [ofSnapshot, Snapshot.commit, Outcome.mapState, Outcome.mapError, Outcome.map] at h
  cases hpersist : (Snapshot.persist { kept with collections := change.2 } tree).answer with
  | error fault =>
    rw [hpersist] at h
    cases h
  | ok done => rfl

lemma contains_sibling_of_flush {held : Held} (hserves : held.1.Serves config)
    (hlocator : config.backend = .sqlite → ¬Sql.Locator.Marked config.usedPath)
    (h : (Backend.flush held).answer = .ok ()) :
    (Backend.flush held).state.2.contains (FilePath.sibling config.usedPath) = false := by
  obtain ⟨kept | db, tree⟩ := held
  · obtain ⟨-, hpath⟩ := hserves
    rw [flush, Snapshot.flush] at h ⊢
    have hpersist := answer_persist_of_commit h
    rw [state_commit, ← hpath]
    dsimp only
    exact (Snapshot.wholeOrNot_persist { kept with collections := kept.collections } tree).cleared
      hpersist
  · obtain ⟨hbackend, hpath⟩ := hserves
    have hwhole := Relational.wholeOrNot_flush (hpath ▸ hlocator hbackend) tree
    simp only [flush, Outcome.mapState] at h ⊢
    rw [← hpath]
    exact hwhole.cleared h

lemma keepsAt_restore (h : config.Spares place →
    KeptAt (FilePath.way (FilePath.parent config.usedPath)) files tree place) :
    KeepsAt config place files (restore config tree) := by
  unfold restore
  split
  · rename_i hbackend
    exact ⟨⟨hbackend, (usedPath_of_snapshot hbackend).symm⟩, h⟩
  · rename_i hbackend
    rw [← usedPath_of_sqlite hbackend, Relational.restore]
    by_cases hfile : tree.isFile config.usedPath = true
    · rw [if_pos hfile]
      exact ⟨⟨hbackend, rfl⟩,
        fun hplace => (h hplace).trans (keptAt_loadDatabase hbackend hplace hfile _)⟩
    · rw [if_neg hfile]
      exact ⟨⟨hbackend, rfl⟩, h⟩

end Backend

namespace Store

open FileTree Backend

variable {config : Config} {files : FileTree}

/-- What the backend in use spares is kept by every run. -/
theorem keptBy_run_start (config : Config) (place : Location) (files : FileTree)
    (actions : List Action) :
    KeptBy config
      (fun later => config.Spares place →
        KeptAt (FilePath.way (FilePath.parent config.usedPath)) files later place)
      (KeepsAt config place files) (run (.start config files) actions) :=
  keptBy_run (keptBy_start fun _ => .inl rfl) (fun _ h => keepsAt_restore h)
    (fun name request _ h => h.carryOut name request) (fun _ h => h.flush) (fun _ h => h.2) actions

/-- The file of the backend that is not used stays as it is over every run, but a directory may be
made where the way to the other file runs through a place at which nothing is. This fails when the
file has a name that the other backend takes: a store that is closed leaves nothing at the name of
the temporary file. -/
theorem other_file_kept {config : Config} (h : config.fault? = none)
    (hlocator : config.backend = .sqlite → ¬Sql.Locator.Marked config.sqlitePath)
    (files : FileTree) (actions : List Action) :
    let store := run (.start config files) actions
    ((∀ suffix ∈ config.backend.suffixes, config.otherFile ≠ config.usedFile ++ suffix) →
      KeptAt (FilePath.way (FilePath.parent config.usedPath)) files store.files
        (locationOf config.otherPath)) ∧
    (config.otherFile = config.usedFile ++ ".tmp" → store.isInitialized = true →
      store.close.answer = .ok () → store.close.state.files.contains config.otherPath = false) := by
  have hused : config.backend = .sqlite → ¬Sql.Locator.Marked config.usedPath := fun hbackend =>
    usedPath_of_sqlite hbackend ▸ hlocator hbackend
  have hkept := keptBy_run_start config (locationOf config.otherPath) files actions
  refine ⟨fun hother => hkept.files (config.spares_otherPath h hused hother), ?_⟩
  -- The other file has the name of the temporary file, which is gone after a flush.
  intro hcollide hinitialized hclosed
  obtain ⟨backend, hbackend⟩ := Option.isSome_iff_exists.mp hinitialized
  have hsibling : config.otherPath = FilePath.sibling config.usedPath := by
    rw [Config.otherPath, hcollide, FilePath.sibling, Config.usedPath,
      FilePath.join_append (Config.bare_usedFile h) (by decide)]
  have hheld : held (run (.start config files) actions) =
      (backend, (run (.start config files) actions).files) := by
    rw [held, hbackend]
  have hserves := (hkept.backend backend hbackend).1
  rw [close, if_pos hinitialized, write, hheld] at hclosed ⊢
  rw [hsibling]
  exact contains_sibling_of_flush hserves hused hclosed

/-- With the conventional names the file of the snapshot stays. A database whose name is that of the
snapshot's temporary file is lost. -/
theorem other_file_kept_by_default :
    let config : Config := { Config.default with backend := .sqlite }
    let files := ((FileTree.empty "/w").put [".cache"] .directory).put [".cache", "localdb.json"]
      (.file (.text "junk"))
    let actions : List Action := [.ask "plugins" (.deleteMany .empty), .close, .reopen, .close]
    let colliding : Config := { Config.default with sqliteFile := "localdb.json.tmp" }
    let store := run (.start colliding files) [.ask "plugins" .count]
    config.fault? = none ∧ ¬Sql.Locator.Marked config.sqlitePath ∧
      (∀ suffix ∈ config.backend.suffixes, config.otherFile ≠ config.usedFile ++ suffix) ∧
      entry? (run (.start config files) actions).files [".cache", "localdb.json"] =
        files.entry? [".cache", "localdb.json"] ∧
      colliding.fault? = none ∧ colliding.backend = .snapshot ∧ store.close.answer = .ok () ∧
      store.close.state.files.contains ".cache/localdb.json.tmp" = false := by
  intro config files actions colliding store
  have hconfig : config.fault? = none := by decide +kernel
  have hlocator : ¬Sql.Locator.Marked config.sqlitePath := by decide +kernel
  have hnames : ∀ suffix ∈ config.backend.suffixes,
      config.otherFile ≠ config.usedFile ++ suffix := by decide +kernel
  have hcolliding : colliding.fault? = none := by decide +kernel
  have hclosed : store.close.answer = .ok () := by decide +kernel
  have hplace : locationOf config.otherPath = [".cache", "localdb.json"] := by decide +kernel
  have hkept := (other_file_kept hconfig (fun _ => hlocator) files actions).1 hnames
  have hlost := (other_file_kept hcolliding (fun h => by cases h) files [.ask "plugins" .count]).2
    (by decide +kernel) (by decide +kernel) hclosed
  have hother : colliding.otherPath = ".cache/localdb.json.tmp" := by decide +kernel
  rw [hplace] at hkept
  rw [hother] at hlost
  refine ⟨hconfig, hlocator, hnames, hkept.eq fun _ hnone => ?_, hcolliding, rfl, hclosed, hlost⟩
  have hsome : Option.isSome <| files.entry? [".cache", "localdb.json"] := by decide +kernel
  rw [hnone] at hsome
  cases hsome

/-- The names that a backend takes are free for the other one, and the file is lost. -/
theorem other_file_lost :
    (∃ config files actions, config.fault? = none ∧ config.backend = .snapshot ∧
      files.isFile config.sqlitePath = true ∧
      (run (.start config files) actions).files.contains config.sqlitePath = false) ∧
    ∀ suffix ∈ [".tmp", ".tmp-journal", ".tmp-wal", "-journal", "-wal", "-shm"],
      ∃ config files actions, config.fault? = none ∧ config.backend = .sqlite ∧
        config.snapshotFile = config.sqliteFile ++ suffix ∧
        ¬Sql.Locator.Marked config.sqlitePath ∧ files.isFile config.snapshotPath = true ∧
        (run (.start config files) actions).files.contains config.snapshotPath = false := by
  let files (other : String) : FileTree :=
    ((((FileTree.empty "/w").put ["c"] .directory).put ["c", "x"]
      (.file (.image (.restore none)))).put ["c", "x-wal"] (.file (.text "junk"))).put ["c", other]
        (.file (.text "junk"))
  let actions : List Action := [.ask "plugins" .count, .close]
  constructor
  · refine ⟨⟨.snapshot, "c", "x", "x.tmp", true⟩, files "x.tmp", actions, ?_⟩
    decide +kernel
  · intro suffix hsuffix
    refine ⟨⟨.sqlite, "c", "x" ++ suffix, "x", true⟩, files ("x" ++ suffix), actions, ?_⟩
    revert suffix
    decide +kernel

end Store

end DocStore
