import DocStore.Proofs.Files.Reopening
import DocStore.Proofs.Store.RelationalRun
import DocStore.Proofs.Store.Sessions
import DocStore.Proofs.Store.WholeFiles

/-!
# Databases that are closed and opened again

A `Session` is a store in use together with the image that was last written when it was closed. The
file of a database holds this image and nothing else over every run, and a store that is opened on
it has exactly its tables again: `reopened_as_written`.
-/

namespace DocStore

/-- A store in use, and the image that was last written when it was closed. -/
structure Session where
  store : Store
  written : Option Sql.Image

/-- The image that is written when a store is closed. -/
def Store.closing? (store : Store) : Option Sql.Image :=
  match store.backend, store.close.answer with
  | some (.relational db), .ok () => some db.image
  | _, _ => none

/-- All values that are written are ordered. -/
def Store.Action.Ordered : Action → Prop
  | .ask _ request => request.Ordered
  | .close | .reopen => True

namespace Session

def start (config : Config) (files : FileTree) : Session :=
  ⟨.start config files, none⟩

def act (session : Session) (action : Store.Action) : Session where
  store := session.store.act action
  written := match action with
    | .close => session.store.closing? <|> session.written
    | .ask _ _ | .reopen => session.written

def run (session : Session) (actions : List Store.Action) : Session :=
  actions.foldl act session

lemma held_reopen (session : Session) :
    (session.act .reopen).store.held =
      Backend.restore session.store.config session.store.files := rfl

/-- What was written is only remembered: a session does with its store what a run does. -/
lemma store_run (session : Session) (actions : List Store.Action) :
    (session.run actions).store = session.store.run actions := by
  induction actions generalizing session with
  | nil => rfl
  | cons action rest ih => exact ih (session.act action)

end Session

namespace Relational

open FileTree Sql.Locator

/-- What the file of a database holds: the image that was last written, or nothing when there was
none. -/
def FileHolds (path : String) (files : FileTree) : Option Sql.Image → Prop
  | none => ∀ content, files.entry? (locationOf path) ≠ some (.file content)
  | some image => image.Sound ∧ files.KeepsImage path image

variable {path : String} {files after : FileTree} {touched made : List Location}
  {written : Option Sql.Image} {db : Relational}

lemma FileHolds.frame (h : FileHolds path files written) (hframe : Frame touched made files after)
    (hpath : locationOf path ∉ touched) : FileHolds path after written := by
  cases written with
  | some image => exact ⟨h.1, h.2.frame hframe hpath⟩
  | none =>
    intro content hcontent
    rcases hframe.outside _ hpath with heq | ⟨-, hdirectory, -⟩
    · exact h content (heq ▸ hcontent)
    · rw [hdirectory] at hcontent
      cases hcontent

lemma FileHolds.entry?_iff (h : FileHolds path files written) (content : Content) :
    files.entry? (locationOf path) = some (.file content) ↔
      ∃ image, written = some image ∧ content = .ofImage image := by
  cases written with
  | none =>
    constructor
    · exact fun hcontent => absurd hcontent (h content)
    · rintro ⟨image, himage, -⟩
      cases himage
  | some image =>
    obtain ⟨-, hentry, -⟩ := read_eq_ok_iff.mp h.2.read
    simp [hentry, eq_comm]

/-- A database that starts from its file. -/
structure Restored (path : String) (files : FileTree) (written : Option Sql.Image)
    (opened : Relational × FileTree) : Prop where
  place : opened.1.path = path
  sound : opened.1.image.Sound
  file : FileHolds path opened.2 written
  found : ¬files.Hindered (locationOf path) → opened.1.image = written.getD .fresh
  lost : files.Hindered (locationOf path) → opened.1.image = .fresh

lemma restored (hpath : ¬Marked path) (hmemory : path ≠ ":memory:")
    (h : FileHolds path files written) : Restored path files written (restore files path) := by
  cases written with
  | none =>
    have hfile : files.isFile path = false := by
      rw [Bool.eq_false_iff]
      intro hfile
      obtain ⟨content, hcontent⟩ := entry?_of_isFile hfile
      exact h content hcontent
    rw [restore, hfile, if_neg Bool.false_ne_true, Sql.Image.restore_none]
    exact ⟨rfl, Sql.Image.sound_fresh, h, fun _ => rfl, fun _ => rfl⟩
  | some image =>
    have hfile := isFile_of_read h.2.read
    have hframe : Frame (companions (locationOf path)) [] files (files.loadDatabase path).state :=
      frame_loadDatabase hpath hfile (List.Subset.refl _)
    have hleft := h.frame hframe (notMem_companions _)
    obtain ⟨hfound, hlost⟩ := loadDatabase_of_keepsImage hpath hmemory
      (Sql.Image.tables_ne_nil_of_sound h.1) h.2
    have hfound' : ¬files.Hindered (locationOf path) →
        Sql.Image.restore (files.loadDatabase path).answer.toOption = image := by
      intro hfree
      rw [hfound hfree]
      exact Sql.Image.restore_of_sound h.1
    have hlost' : files.Hindered (locationOf path) →
        Sql.Image.restore (files.loadDatabase path).answer.toOption = .fresh := by
      intro hhindered
      obtain ⟨fault, hfault⟩ := hlost hhindered
      rw [hfault]
      exact Sql.Image.restore_none
    have hsound : (Sql.Image.restore (files.loadDatabase path).answer.toOption).Sound := by
      by_cases hhindered : files.Hindered (locationOf path)
      · rw [hlost' hhindered]
        exact Sql.Image.sound_fresh
      · rw [hfound' hhindered]
        exact h.1
    rw [restore, if_pos hfile]
    exact ⟨rfl, hsound, hleft, hfound', hlost'⟩

lemma keepsImage_flush (hpath : ¬Marked db.path) (h : (db.flush files).answer = .ok ()) :
    (db.flush files).state.KeepsImage db.path db.image := by
  have hread := (wholeOrNot_flush hpath files).written h
  have hroot := (frame_flush hpath files).root
  rw [flush_eq] at h
  obtain ⟨_, hstage, -⟩ := Outcome.answer_andThen_eq_ok h
  obtain ⟨cleared, hcleared, hsaved, -⟩ := exists_saveDatabase_of_stage hstage
  obtain ⟨opened, hopen, -⟩ := exists_openDatabase?_of_saveDatabase (not_marked_sibling hpath)
    (isUnkept_sibling db.path) hsaved
  obtain ⟨goal, hgoal, -⟩ := Option.bind_eq_some_iff.mp hopen
  exact ⟨hread, resolve_of_read (hroot.trans hcleared.symm) hread (by decide)
    (FilePath.names_append _ (by decide)) hgoal⟩

lemma FileHolds.flush (hpath : ¬Marked db.path) (h : FileHolds db.path files written)
    (hdb : db.image.Sound) :
    ((db.flush files).answer = .ok () →
      FileHolds db.path (db.flush files).state (some db.image)) ∧
    ∀ error, (db.flush files).answer = .error error →
      FileHolds db.path (db.flush files).state written :=
  ⟨fun hok => ⟨hdb, keepsImage_flush hpath hok⟩, fun _ herror =>
    h.frame (frame_flush_of_error hpath herror)
      (locationOf_notMem_temporaries db.path (by decide))⟩

end Relational

namespace Backend

lemma files_carryOut_relational (db : Relational) (files : FileTree) (name : String)
    (request : Request) : (carryOut name request (.relational db, files)).state.2 = files := by
  let Kept (held : Held) : Prop := (∃ later, held.1 = .relational later) ∧ held.2 = files
  have hkept : Kept (carryOut name request (.relational db, files)).state := by
    refine carryOut_preserves ?_ ?_ ?_ request ⟨⟨db, rfl⟩, rfl⟩
    · rintro _ _ _ ⟨_, _⟩ ⟨⟨_, rfl⟩, rfl⟩
      exact ⟨⟨_, rfl⟩, rfl⟩
    · rintro _ ⟨_, _⟩ ⟨⟨_, rfl⟩, rfl⟩
      exact ⟨⟨_, rfl⟩, rfl⟩
    · rintro _ _ ⟨_, _⟩ ⟨⟨_, rfl⟩, rfl⟩
      exact ⟨⟨_, rfl⟩, rfl⟩
  exact hkept.2

end Backend

namespace Session

open FileTree Sql.Locator Relational

/-- A backend that is a database with a sound image, and its file holds what was last written. -/
def HeldSound (path : String) (written : Option Sql.Image) (held : Backend.Held) : Prop :=
  ∃ db, held.1 = .relational db ∧ db.path = path ∧ db.image.Sound ∧
    FileHolds path held.2 written

/-- A session with a database whose file holds what was last written. -/
structure Sound (config : Config) (session : Session) : Prop where
  file : FileHolds config.sqlitePath session.store.files session.written
  backend : ∀ backend, session.store.backend = some backend →
    HeldSound config.sqlitePath session.written (backend, session.store.files)
  config : session.store.config = config

variable {config : Config} {session : Session} {written : Option Sql.Image} {held : Backend.Held}

lemma soundDatabase_of_heldSound (hpath : ¬Marked config.sqlitePath)
    (h : HeldSound config.sqlitePath written held) :
    Backend.SoundDatabase config.sqlitePath held := by
  obtain ⟨db, hdb, hplace, himage, hfile⟩ := h
  refine ⟨db, hdb, hplace, himage, fun location hhome content hcontent => ?_⟩
  rw [home?, ofPath_of_not_marked hpath] at hhome
  cases hhome
  obtain ⟨image, rfl, rfl⟩ := (hfile.entry?_iff content).mp hcontent
  exact Content.sound_ofImage hfile.1

lemma HeldSound.carryOut (hpath : ¬Marked config.sqlitePath)
    (h : HeldSound config.sqlitePath written held) (name : String) {request : Request}
    (hrequest : request.Ordered) :
    HeldSound config.sqlitePath written (Backend.carryOut name request held).state := by
  obtain ⟨later, hlater, hsound⟩ := (soundDatabase_of_heldSound hpath h).carryOut name hrequest
  obtain ⟨db, hdb, -, -, hfile⟩ := h
  obtain ⟨backend, files⟩ := held
  cases hdb
  refine ⟨later, hlater, hsound.place, hsound.image, ?_⟩
  rwa [Backend.files_carryOut_relational]

lemma heldSound_restore (hbackend : config.backend = .sqlite) (hpath : ¬Marked config.sqlitePath)
    (hmemory : config.sqlitePath ≠ ":memory:") {files : FileTree}
    (h : FileHolds config.sqlitePath files written) :
    HeldSound config.sqlitePath written (Backend.restore config files) := by
  have hrestored := restored hpath hmemory h
  rw [Backend.restore, hbackend]
  exact ⟨_, rfl, hrestored.place, hrestored.sound, hrestored.file⟩

lemma Sound.heldSound (h : Sound config session) (hbackend : config.backend = .sqlite)
    (hpath : ¬Marked config.sqlitePath) (hmemory : config.sqlitePath ≠ ":memory:") :
    HeldSound config.sqlitePath session.written session.store.held := by
  unfold Store.held
  split
  · rename_i backend hopen
    exact h.backend backend hopen
  · rw [h.config]
    exact heldSound_restore hbackend hpath hmemory h.file

lemma Sound.keep (h : Sound config session)
    (hheld : HeldSound config.sqlitePath written held) :
    Sound config ⟨session.store.keep held, written⟩ := by
  obtain ⟨db, hdb, hplace, himage, hfile⟩ := hheld
  refine ⟨hfile, ?_, h.config⟩
  rintro _ ⟨⟩
  exact ⟨db, hdb, hplace, himage, hfile⟩

lemma act_close_of_none (h : session.store.backend = none) : session.act .close = session := by
  simp [act, Store.act, Store.close, Store.isInitialized, Store.closing?, h, Outcome.pass]

lemma act_close_of_database {db : Relational} {left : FileTree} {answer : Except StoreError Unit}
    (hopen : session.store.backend = some (.relational db))
    (hflush : db.flush session.store.files = ⟨answer, left⟩) :
    session.act .close =
      ⟨session.store.keep (.relational db, left), match answer with
        | .ok _ => some db.image
        | .error _ => session.written⟩ := by
  have hheld : session.store.held = (.relational db, session.store.files) := by
    rw [Store.held, hopen]
  have hclose : session.store.close = ⟨answer, session.store.keep (.relational db, left)⟩ := by
    rw [Store.close, Store.isInitialized, hopen, Option.isSome_some, if_pos rfl, Store.write, hheld,
      Backend.flush, hflush]
    rfl
  cases answer with
  | error error => simp [act, Store.act, Store.closing?, hopen, hclose]
  | ok done => simp [act, Store.act, Store.closing?, hopen, hclose]

lemma Sound.act_close (h : Sound config session) (hpath : ¬Marked config.sqlitePath) :
    Sound config (session.act .close) := by
  cases hopen : session.store.backend with
  -- A store that was not used writes nothing when it is closed.
  | none => rwa [act_close_of_none hopen]
  | some backend =>
    obtain ⟨db, rfl, hplace, himage, hfile⟩ := h.backend backend hopen
    rw [← hplace] at hpath hfile
    obtain ⟨hok, herror⟩ := FileHolds.flush hpath hfile himage
    rcases hflush : db.flush session.store.files with ⟨answer, left⟩
    rw [hflush, hplace] at hok herror
    rw [act_close_of_database hopen hflush]
    cases answer with
    | error error => exact h.keep ⟨db, rfl, hplace, himage, herror error rfl⟩
    | ok done => exact h.keep ⟨db, rfl, hplace, himage, hok rfl⟩

lemma Sound.act (h : Sound config session) (hbackend : config.backend = .sqlite)
    (hpath : ¬Marked config.sqlitePath) (hmemory : config.sqlitePath ≠ ":memory:")
    {action : Store.Action} (haction : action.Ordered) : Sound config (session.act action) := by
  cases action with
  | ask name request =>
    have hheld := (h.heldSound hbackend hpath hmemory).carryOut hpath name haction
    have hasked : session.act (.ask name request) =
        ⟨session.store.keep (Backend.carryOut name request session.store.held).state,
          session.written⟩ := by
      rw [Session.act, Store.act_ask]
    rw [hasked]
    exact h.keep hheld
  | close => exact h.act_close hpath
  | reopen =>
    refine ⟨h.file, fun _ hnone => ?_, h.config⟩
    cases hnone

/-- A session keeps its file over every run. -/
theorem Sound.run (h : Sound config session) (hbackend : config.backend = .sqlite)
    (hpath : ¬Marked config.sqlitePath) (hmemory : config.sqlitePath ≠ ":memory:")
    {actions : List Store.Action} (hactions : ∀ action ∈ actions, action.Ordered) :
    Sound config (session.run actions) :=
  List.foldlRecOn actions Session.act (motive := Sound config) h
    fun _ h action haction => h.act hbackend hpath hmemory (hactions action haction)

end Session

open FileTree in
/-- Over every run with a database whose file was missing at first, the file holds what was last
written when the store was closed, and nothing before. A store that is opened on it has exactly these
tables, and empty ones before; but when a directory stands in the way of the engine its tables are
empty. What was written passes the check of the layout and is restored as it is. -/
theorem reopened_as_written {config : Config} (hbackend : config.backend = .sqlite)
    (hpath : ¬Sql.Locator.Marked config.sqlitePath) (hmemory : config.sqlitePath ≠ ":memory:")
    {files : FileTree}
    (habsent : ∀ content, files.entry? (locationOf config.sqlitePath) ≠ some (.file content))
    {actions : List Store.Action} (hactions : ∀ action ∈ actions, action.Ordered) :
    let session := (Session.start config files).run actions
    (∀ content, session.store.files.entry? (locationOf config.sqlitePath) = some (.file content) ↔
      ∃ image, session.written = some image ∧ content = .ofImage image) ∧
    (∃ db, (session.act .reopen).store.held.1 = .relational db ∧
      (¬session.store.files.Hindered (locationOf config.sqlitePath) →
        db.image = session.written.getD .fresh) ∧
      (session.store.files.Hindered (locationOf config.sqlitePath) → db.image = .fresh)) ∧
    ∀ image, session.written = some image →
      image.fits = true ∧ Sql.Image.restore (some image) = image := by
  have hstart : Session.Sound config (Session.start config files) :=
    ⟨habsent, fun _ hnone => (by cases hnone), rfl⟩
  have hsound := hstart.run hbackend hpath hmemory hactions
  refine ⟨hsound.file.entry?_iff, ?_, fun image himage => ?_⟩
  · have hrestored := Relational.restored hpath hmemory hsound.file
    refine ⟨_, ?_, hrestored.found, hrestored.lost⟩
    rw [Session.held_reopen, hsound.config, Backend.restore, hbackend]
  · have hfile := hsound.file
    rw [himage] at hfile
    exact ⟨hfile.1.fits, Sql.Image.restore_of_sound hfile.1⟩

open FileTree in
/-- What was written when the store was closed is found again, and not what was changed after. -/
theorem settings_after_reopening :
    let config : Config := { Config.default with backend := .sqlite }
    let change : Request := .findOneAndUpdate (.push .empty "_id" (.equals (.string "s")))
      ⟨[.increment "views" (.int 1)]⟩
    let actions : List Store.Action :=
      [.ask "system_settings" change, .close, .ask "system_settings" change, .reopen]
    let session := (Session.start config (.empty "/w")).run actions
    ¬Sql.Locator.Marked config.sqlitePath ∧ config.sqlitePath ≠ ":memory:" ∧
      (∀ content, entry? (.empty "/w") (locationOf config.sqlitePath) ≠
        some (.file content)) ∧
      (∀ action ∈ actions, action.Ordered) ∧
      ¬session.store.files.Hindered (locationOf config.sqlitePath) ∧
      ∃ db image, (session.act .reopen).store.held.1 = .relational db ∧
        session.written = some image ∧ db.image = image := by
  intro config change actions session
  have hpath : ¬Sql.Locator.Marked config.sqlitePath := by decide +kernel
  have hmemory : config.sqlitePath ≠ ":memory:" := by decide +kernel
  have habsent : ∀ content, entry? (.empty "/w") (locationOf config.sqlitePath) ≠
      some (.file content) := by
    intro content hcontent
    have hnone : Option.isNone <| entry? (.empty "/w") (locationOf config.sqlitePath) := by
      decide +kernel
    rw [hcontent] at hnone
    cases hnone
  have hactions : ∀ action ∈ actions, action.Ordered := by
    simp [actions, change, Store.Action.Ordered, Request.Ordered, Filter.Ordered, Filter.push,
      Filter.empty, Update.Ordered, UpdateOp.Ordered, Condition.Ordered, Value.Ordered]
  have hfree : ∀ suffix ∈ ["-journal", "-wal", "-shm"],
      Option.isNone <| session.store.files.entry? (beside (locationOf config.sqlitePath) suffix) := by
    decide +kernel
  have hclear : ¬session.store.files.Hindered (locationOf config.sqlitePath) := by
    have hnone : ∀ suffix ∈ ["-journal", "-wal", "-shm"],
        session.store.files.entry? (beside (locationOf config.sqlitePath) suffix) = none :=
      fun suffix hsuffix => Option.isNone_iff_eq_none.mp (hfree suffix hsuffix)
    rintro (hdirectory | hdirectory | ⟨-, hdirectory⟩)
    · exact absurd ((hnone "-journal" (by simp)).symm.trans hdirectory) (by simp)
    · exact absurd ((hnone "-wal" (by simp)).symm.trans hdirectory) (by simp)
    · exact absurd ((hnone "-shm" (by simp)).symm.trans hdirectory) (by simp)
  have hwritten : session.written.isSome = true := by decide +kernel
  obtain ⟨image, himage⟩ := Option.isSome_iff_exists.mp hwritten
  obtain ⟨-, ⟨db, hdb, hfound, -⟩, -⟩ :=
    reopened_as_written rfl hpath hmemory habsent hactions
  refine ⟨hpath, hmemory, habsent, hactions, hclear, db, image, hdb, himage, ?_⟩
  rw [hfound hclear, himage, Option.getD_some]

/-- A directory at the place of the log hides what was written, a database of a special name is kept
in no file, and a locator leads to the file itself, which then changes without a success. -/
theorem reopened_as_written_fails :
    let change : Request := .findOneAndUpdate (.push .empty "_id" (.equals (.string "s")))
      ⟨[.increment "views" (.int 1)]⟩
    let actions : List Store.Action := [.ask "system_settings" change, .close]
    (∀ action ∈ actions, action.Ordered) ∧
    (∃ config files, config.backend = .sqlite ∧ files.contains config.sqlitePath = false ∧
      config.sqlitePath = "c/registry.sqlite" ∧
      ((Session.start config files).run actions).written.isSome = true ∧
      (((Session.start config files).run actions).act .reopen).store.held.1.count
        "system_settings" = 0) ∧
    (∃ config files, config.backend = .sqlite ∧ files.contains config.sqlitePath = false ∧
      config.sqlitePath = ":memory:" ∧
      ((Session.start config files).run actions).written.isSome = true ∧
      (((Session.start config files).run actions).act .reopen).store.held.1.count
        "system_settings" = 0) ∧
    ∃ config files, config.backend = .sqlite ∧ files.contains config.sqlitePath = false ∧
      config.sqlitePath = "file:b?/../b" ∧
      ((Session.start config files).run actions).written.isNone = true ∧
      ((Session.start config files).run actions).store.files.isFile config.sqlitePath = true := by
  intro change actions
  refine ⟨?_, ⟨⟨.sqlite, "c", "localdb.json", "registry.sqlite", true⟩,
      ((FileTree.empty "/w").put ["c"] .directory).put ["c", "registry.sqlite-wal"] .directory, ?_⟩,
    ⟨⟨.sqlite, "", "localdb.json", ":memory:", true⟩, .empty "/w", ?_⟩,
    ⟨⟨.sqlite, "file:b?/..", "localdb.json", "b", true⟩, .empty "/w", ?_⟩⟩
  · simp [actions, change, Store.Action.Ordered, Request.Ordered, Filter.Ordered, Filter.push,
      Filter.empty, Update.Ordered, UpdateOp.Ordered, Condition.Ordered, Value.Ordered]
  all_goals decide +kernel

end DocStore
