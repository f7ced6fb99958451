import DocStore.Proofs.Store.Following
import DocStore.Proofs.Store.SnapshotRun

/-!
# A snapshot and a database side by side

A snapshot and a database are `Paired` when the rows are written from the documents of the snapshot.
Requests that both carry out keep this and are answered alike, as long as the documents that they
find stored are read back from their text as they are (`Paired.carryOut`). The rows then give the
documents of the snapshot exactly when these read back (`parity`). A double that is finite need not
(`parity_fails`): its text has its shortest digits, and a reader does not always round them to the
nearest double.
-/

namespace DocStore

open Sql (Image Prefilter Table)

lemma Snapshot.stored_of_absent {files : FileTree} {path : String}
    (h : ∀ content, files.entry? (FileTree.locationOf path) ≠ some (.file content)) :
    stored files path = [] := by
  unfold stored
  cases hread : files.readText path with
  | error fault => rfl
  | ok s => exact absurd (FileTree.entry?_of_readText hread) (h _)

lemma Relational.restore_of_absent {files : FileTree} {path : String}
    (h : ∀ location, FileTree.home? path = some location →
      ∀ content, files.entry? location ≠ some (.file content)) :
    (restore files path).1.image = Image.fresh := by
  unfold restore
  split
  · change Image.restore (files.loadDatabase path).answer.toOption = Image.fresh
    cases hanswer : (files.loadDatabase path).answer with
    | error fault => exact Image.restore_none
    | ok image =>
      obtain ⟨content, rfl, himage⟩ := FileTree.answer_loadDatabase (P := (· = .text "")) rfl
        (fun location hhome content hentry => absurd hentry (h location hhome content)) hanswer
      cases himage
      exact Image.restore_empty
  · exact Image.restore_none

namespace Backend

/-- The documents of a collection in their order: those in memory, or those of the rows. -/
def contents (schema : Schema) : Backend → Except StoreError (List Document)
  | .snapshot kept => .ok (kept.collections.docs schema.name)
  | .relational db => Table.contents schema (db.image.tableOf schema)

/-- A snapshot, and a database whose rows are written from its documents. -/
def Paired (a b : Held) : Prop :=
  ∃ kept db, a.1 = .snapshot kept ∧ b.1 = .relational db ∧ db.image.Keeps kept.collections

/-- Every document of a collection is read back from its text as it is. -/
def AllReadable (schema : Schema) (backend : Backend) : Prop :=
  ∀ docs, backend.contents schema = .ok docs → ∀ doc ∈ docs, doc.Readable

/-- The first match of a filter in a collection does not depend on the order of visits. -/
def PicksOne (schema : Schema) (filter : Filter) (backend : Backend) : Prop :=
  ∀ docs, backend.contents schema = .ok docs → filter.PicksOne schema docs

variable {schema : Schema} {kept : Snapshot} {db : Relational} {files : FileTree}

lemma answer_commit_of_written {α : Type} (kept : Snapshot) (files : FileTree)
    {change : α × Collections}
    (h : ∀ fault, (kept.commit files change).answer ≠ .error (.file fault)) :
    (kept.commit files change).answer = .ok change.1 := by
  have hanswer : (kept.commit files change).answer =
      ((Snapshot.persist { kept with collections := change.2 } files).answer.map
        fun _ => change.1).mapError StoreError.file := by
    simp only [Snapshot.commit, Outcome.mapState, Outcome.mapError, Outcome.map]
  rw [hanswer] at h ⊢
  generalize (Snapshot.persist { kept with collections := change.2 } files).answer = written at h
  cases written with
  | ok => rfl
  | error fault => exact absurd rfl (h fault)

lemma commit_follows {α : Type} {change : Collection → α × Collection}
    {imageChange : Except StoreError (α × Image)}
    (hfollows : Image.Keeps.Follows schema kept.collections imageChange
      (change (kept.collections.docs schema.name)))
    (hwritten : ∀ fault,
      (kept.commit files (kept.collections.modify schema.name change)).answer ≠
        .error (.file fault))
    (hkeyed : ∀ name path, (db.commit imageChange).answer ≠
      .error (.missingPrimaryKey name path)) :
    (db.commit imageChange).answer =
        (kept.commit files (kept.collections.modify schema.name change)).answer ∧
      (db.commit imageChange).state.image.Keeps
        (kept.commit files (kept.collections.modify schema.name change)).state.1.collections := by
  rw [answer_commit_of_written kept files hwritten, Snapshot.state_commit]
  rcases hfollows with ⟨name, path, hrefused⟩ | ⟨after, hchange, hkeeps⟩
  · rw [hrefused] at hkeyed
    exact absurd rfl (hkeyed name path)
  · rw [hchange]
    exact ⟨rfl, hkeeps⟩

variable {a b : Held} {filter : Filter}

theorem Paired.updateOne (h : Paired a b) (hschema : schema ∈ Schema.all)
    (hread : AllReadable schema a.1) (hfits : (Prefilter.ofFilter schema filter).Fits)
    (hpick : PicksOne schema filter a.1) (hfilter : filter.Ordered) {update : Update}
    (hupdate : update.Ordered) (upsert : Bool)
    (hwritten : ∀ fault,
      (updateOne schema.name filter update upsert a).answer ≠ .error (.file fault))
    (hkeyed : ∀ name path, (updateOne schema.name filter update upsert b).answer ≠
      .error (.missingPrimaryKey name path)) :
    (updateOne schema.name filter update upsert b).answer =
        (updateOne schema.name filter update upsert a).answer ∧
      Paired (updateOne schema.name filter update upsert a).state
        (updateOne schema.name filter update upsert b).state := by
  obtain ⟨backend, files⟩ := a
  obtain ⟨other, filesB⟩ := b
  obtain ⟨kept, db, rfl, rfl, hkeeps⟩ := h
  simp only [Backend.updateOne, ofSnapshot, ofRelational, Outcome.mapState, Snapshot.updateOne,
    Relational.updateOne] at hwritten hkeyed ⊢
  cases hallowed : update.requireAssignments with
  | error error =>
    have hrefused : db.image.updateOne schema.name filter update upsert = .error error := by
      rw [Image.updateOne, hallowed]
      rfl
    simp only [hrefused]
    exact ⟨rfl, kept, db, rfl, rfl, hkeeps⟩
  | ok =>
    have hfollows := hkeeps.updateOne hschema (hread _ rfl) hfits (hpick _ rfl) hfilter hupdate
      hallowed upsert
    simp only [hallowed] at hwritten ⊢
    obtain ⟨hanswer, hafter⟩ := commit_follows hfollows hwritten hkeyed
    exact ⟨hanswer, _, _, rfl, rfl, hafter⟩

theorem Paired.findOneAndUpdate (h : Paired a b) (hschema : schema ∈ Schema.all)
    (hread : AllReadable schema a.1) (hfits : (Prefilter.ofFilter schema filter).Fits)
    (hpick : PicksOne schema filter a.1) (hfilter : filter.Ordered) {update : Update}
    (hupdate : update.Ordered)
    (hwritten : ∀ fault,
      (findOneAndUpdate schema.name filter update a).answer ≠ .error (.file fault))
    (hkeyed : ∀ name path, (findOneAndUpdate schema.name filter update b).answer ≠
      .error (.missingPrimaryKey name path)) :
    (findOneAndUpdate schema.name filter update b).answer =
        (findOneAndUpdate schema.name filter update a).answer ∧
      Paired (findOneAndUpdate schema.name filter update a).state
        (findOneAndUpdate schema.name filter update b).state := by
  obtain ⟨backend, files⟩ := a
  obtain ⟨other, filesB⟩ := b
  obtain ⟨kept, db, rfl, rfl, hkeeps⟩ := h
  simp only [Backend.findOneAndUpdate, ofSnapshot, ofRelational, Outcome.mapState,
    Snapshot.findOneAndUpdate, Relational.findOneAndUpdate] at hwritten hkeyed ⊢
  have hfollows := hkeeps.findOneAndUpdate hschema (hread _ rfl) hfits (hpick _ rfl) hfilter
    hupdate
  obtain ⟨hanswer, hafter⟩ := commit_follows hfollows hwritten hkeyed
  exact ⟨hanswer, _, _, rfl, rfl, hafter⟩

theorem Paired.deleteMany (h : Paired a b) (hschema : schema ∈ Schema.all)
    (hread : AllReadable schema a.1) (hfits : (Prefilter.ofFilter schema filter).Fits)
    (hwritten : ∀ fault, (deleteMany schema.name filter a).answer ≠ .error (.file fault))
    (hkeyed : ∀ name path,
      (deleteMany schema.name filter b).answer ≠ .error (.missingPrimaryKey name path)) :
    (deleteMany schema.name filter b).answer = (deleteMany schema.name filter a).answer ∧
      Paired (deleteMany schema.name filter a).state
        (deleteMany schema.name filter b).state := by
  obtain ⟨backend, files⟩ := a
  obtain ⟨other, filesB⟩ := b
  obtain ⟨kept, db, rfl, rfl, hkeeps⟩ := h
  simp only [Backend.deleteMany, ofSnapshot, ofRelational, Outcome.mapState,
    Snapshot.deleteMany, Relational.deleteMany] at hwritten hkeyed ⊢
  obtain ⟨hanswer, hafter⟩ := commit_follows (hkeeps.deleteMany hschema (hread _ rfl) hfits)
    hwritten hkeyed
  exact ⟨hanswer, _, _, rfl, rfl, hafter⟩

lemma bulkWrite_cons_of_ok {name : String} {model : WriteModel} {held next : Held}
    {result : UpdateResult}
    (h : Backend.updateOne name model.filter model.update model.upsert held = ⟨.ok result, next⟩)
    (rest : List WriteModel) :
    bulkWrite name (model :: rest) held =
      (bulkWrite name rest next).map (BatchResult.ofUpdate result).add := by
  rw [bulkWrite, Outcome.batch, h]
  rfl

lemma bulkWrite_cons_of_error {name : String} {model : WriteModel} {held next : Held}
    {error : StoreError}
    (h : Backend.updateOne name model.filter model.update model.upsert held = ⟨.error error, next⟩)
    (rest : List WriteModel) : bulkWrite name (model :: rest) held = .fail error next := by
  rw [bulkWrite, Outcome.batch, h]
  rfl

/-- The entries of a batch meet a state that the entries before them left. -/
def Meets (name : String) (models : List WriteModel) (held : Held) (model : WriteModel)
    (met : Held) : Prop :=
  ∃ done rest result, models = done ++ model :: rest ∧
    bulkWrite name done held = ⟨.ok result, met⟩

lemma meets_head (name : String) (model : WriteModel) (rest : List WriteModel) (held : Held) :
    Meets name (model :: rest) held model held :=
  ⟨[], rest, .zero, rfl, rfl⟩

lemma Meets.cons {name : String} {first model : WriteModel} {rest : List WriteModel}
    {held next met : Held} {result : UpdateResult}
    (hfirst : Backend.updateOne name first.filter first.update first.upsert held =
      ⟨.ok result, next⟩)
    (h : Meets name rest next model met) : Meets name (first :: rest) held model met := by
  obtain ⟨done, more, total, rfl, hdone⟩ := h
  refine ⟨first :: done, more, (BatchResult.ofUpdate result).add total, rfl, ?_⟩
  rw [bulkWrite_cons_of_ok hfirst, hdone]
  rfl

/-- A batch is answered alike, and what is left is paired again, whether it fails or not. -/
theorem Paired.bulkWrite {models : List WriteModel} (h : Paired a b) (hschema : schema ∈ Schema.all)
    (hordered : ∀ model ∈ models, model.Ordered)
    (hread : ∀ model met, Meets schema.name models a model met → AllReadable schema met.1)
    (hfits : ∀ model met, Meets schema.name models a model met →
      (Prefilter.ofFilter schema model.filter).Fits)
    (hpick : ∀ model met, Meets schema.name models a model met →
      PicksOne schema model.filter met.1)
    (hwritten : ∀ fault, (bulkWrite schema.name models a).answer ≠ .error (.file fault))
    (hkeyed : ∀ name path,
      (bulkWrite schema.name models b).answer ≠ .error (.missingPrimaryKey name path)) :
    (bulkWrite schema.name models b).answer = (bulkWrite schema.name models a).answer ∧
      Paired (bulkWrite schema.name models a).state (bulkWrite schema.name models b).state := by
  induction models generalizing a b with
  | nil => exact ⟨rfl, h⟩
  | cons model rest ih =>
    have hhead := meets_head schema.name model rest a
    obtain ⟨hfilter, hupdate⟩ := hordered model (by simp)
    have hfirst := h.updateOne hschema (hread model a hhead) (hfits model a hhead)
      (hpick model a hhead) hfilter hupdate model.upsert
    rcases ha : Backend.updateOne schema.name model.filter model.update model.upsert a with
      ⟨answerA, nextA⟩
    rcases hb : Backend.updateOne schema.name model.filter model.update model.upsert b with
      ⟨answerB, nextB⟩
    rw [ha, hb] at hfirst
    -- What the first entry answers when it fails is what the batch answers.
    have hwrittenFirst : ∀ fault, answerA ≠ .error (.file fault) := by
      rintro fault rfl
      rw [bulkWrite_cons_of_error ha] at hwritten
      exact hwritten fault rfl
    have hkeyedFirst : ∀ name path, answerB ≠ .error (.missingPrimaryKey name path) := by
      rintro name path rfl
      rw [bulkWrite_cons_of_error hb] at hkeyed
      exact hkeyed name path rfl
    obtain ⟨hanswer, hnext⟩ := hfirst hwrittenFirst hkeyedFirst
    dsimp only at hanswer hnext
    subst hanswer
    cases answerB with
    | error error =>
      rw [bulkWrite_cons_of_error ha, bulkWrite_cons_of_error hb]
      exact ⟨rfl, hnext⟩
    | ok result =>
      rw [bulkWrite_cons_of_ok ha] at hwritten ⊢
      rw [bulkWrite_cons_of_ok hb] at hkeyed ⊢
      obtain ⟨hrest, hlast⟩ := ih hnext
        (fun other ho => hordered other (List.mem_cons_of_mem model ho))
        (fun other met hmeets => hread other met (hmeets.cons ha))
        (fun other met hmeets => hfits other met (hmeets.cons ha))
        (fun other met hmeets => hpick other met (hmeets.cons ha))
        (fun fault hfault => hwritten fault (by simp [Outcome.map, hfault, Except.map]))
        (fun name path hmissing => hkeyed name path (by simp [Outcome.map, hmissing, Except.map]))
      exact ⟨by simp [Outcome.map, hrest], hlast⟩

lemma find_of_holds {docs : List Document} (hschema : schema ∈ Schema.all)
    (h : Table.Holds schema (db.image.tableOf schema) docs)
    (hfits : (Prefilter.ofFilter schema filter).Fits) :
    ∃ matching, (Backend.relational db).find schema.name filter = .ok matching ∧
      matching.Perm (docs.filter filter.accepts) := by
  refine ⟨(Table.found schema (db.image.tableOf schema) filter).map (·.2), ?_, ?_⟩
  · rw [Backend.find, Relational.find, Schema.for?_name hschema]
    dsimp only
    rw [h.select_eq_found hfits]
    rfl
  · have hperm := (h.found_perm filter).map (·.2)
    rwa [Table.map_snd_filterMap_keyed?] at hperm
    exact fun doc hdoc => h.isSome_keyOf? (List.mem_of_mem_filter hdoc)

lemma Paired.find (h : Paired a b) (hschema : schema ∈ Schema.all)
    (hread : AllReadable schema a.1) (hfits : (Prefilter.ofFilter schema filter).Fits) :
    ∃ docs found, a.1.find schema.name filter = .ok docs ∧
      b.1.find schema.name filter = .ok found ∧ found.Perm docs := by
  obtain ⟨kept, db, ha, hb, hkeeps⟩ := h
  rw [ha] at hread
  have hholds := (hkeeps.written hschema).holds hschema (hread _ rfl)
  obtain ⟨found, hfound, hperm⟩ := find_of_holds hschema hholds hfits
  exact ⟨_, found, by rw [ha]; rfl, hb ▸ hfound, hperm⟩

lemma Paired.findOne (h : Paired a b) (hschema : schema ∈ Schema.all)
    (hread : AllReadable schema a.1) (hfits : (Prefilter.ofFilter schema filter).Fits)
    (hpick : PicksOne schema filter a.1) :
    b.1.findOne schema.name filter = a.1.findOne schema.name filter := by
  obtain ⟨kept, db, ha, hb, hkeeps⟩ := h
  rw [ha] at hread hpick
  have hname := Schema.for?_name hschema
  have hfirst := hkeeps.selectFirst_eq hschema (hread _ rfl) hfits (hpick _ rfl)
  rw [ha, hb, Backend.findOne, Backend.findOne, Relational.findOne, hname, Snapshot.findOne,
    Snapshot.find, Table.head?_filter_eq]
  dsimp only
  rw [hfirst]
  cases hsplit : splitFirst filter.accepts (kept.collections.docs schema.name) with
  | none => rfl
  | some parts =>
    obtain ⟨before, old, after⟩ := parts
    obtain ⟨key, hkey⟩ := hkeeps.exists_key_of_match hschema (splitFirst_eq_some hsplit).1
    simp [Table.keyed?, hkey, Except.map]

lemma Paired.count (h : Paired a b) (hschema : schema ∈ Schema.all) :
    b.1.count schema.name = a.1.count schema.name := by
  obtain ⟨kept, db, ha, hb, hkeeps⟩ := h
  have hname := Schema.for?_name hschema
  rw [ha, hb, Backend.count, Backend.count, Relational.count, hname, Snapshot.count]
  exact (hkeeps.rows schema hschema).length_eq

/-! ## Runs -/

/-- Two answers that are the same, found documents in any order. -/
inductive Agree : Except StoreError Answer → Except StoreError Answer → Prop where
  | same (answer : Except StoreError Answer) : Agree answer answer
  | found {docs others : List Document} (h : others.Perm docs) :
    Agree (.ok (.found docs)) (.ok (.found others))

lemma agree_of_eq {answer other : Except StoreError Answer} (h : other = answer) :
    Agree answer other :=
  h ▸ .same other

/-- The states in which a request looks for matches of a filter; `first` tells that it is the first
match that counts. -/
inductive Looks (name : String) (held : Held) : Request → Bool → Filter → Held → Prop where
  | find (filter : Filter) : Looks name held (.find filter) false filter held
  | findOne (filter : Filter) : Looks name held (.findOne filter) true filter held
  | updateOne (filter : Filter) (update : Update) (upsert : Bool) :
    Looks name held (.updateOne filter update upsert) true filter held
  | bulkWrite {models : List WriteModel} {model : WriteModel} {met : Held}
      (hmeets : Meets name models held model met) :
    Looks name held (.bulkWrite models) true model.filter met
  | deleteMany (filter : Filter) : Looks name held (.deleteMany filter) false filter held
  | findOneAndUpdate (filter : Filter) (update : Update) :
    Looks name held (.findOneAndUpdate filter update) true filter held

/-- A request that both carry out as they should: the snapshot writes its file, the database is not
refused a document without a key, the statements are within the limits, a first match is the first
in any order of visits, and the stored documents are read back as they are. -/
structure Regular (schema : Schema) (request : Request) (a b : Held) : Prop where
  ordered : request.Ordered
  written : ∀ fault, (carryOut schema.name request a).answer ≠ .error (.file fault)
  keyed : ∀ name path,
    (carryOut schema.name request b).answer ≠ .error (.missingPrimaryKey name path)
  fits : ∀ first filter met, Looks schema.name a request first filter met →
    (Prefilter.ofFilter schema filter).Fits
  picks : ∀ filter met, Looks schema.name a request true filter met → PicksOne schema filter met.1
  readable : ∀ first filter met, Looks schema.name a request first filter met →
    AllReadable schema met.1

lemma answer_ne_of_map {α β : Type} {outcome : Outcome StoreError Held α} {f : α → β}
    {error : StoreError} (h : (outcome.map f).answer ≠ .error error) :
    outcome.answer ≠ .error error := by
  intro heq
  exact h (by simp [Outcome.map, heq, Except.map])

theorem Paired.carryOut (h : Paired a b) (hschema : schema ∈ Schema.all) {request : Request}
    (hregular : Regular schema request a b) :
    Agree (carryOut schema.name request a).answer (carryOut schema.name request b).answer ∧
      Paired (carryOut schema.name request a).state (carryOut schema.name request b).state := by
  obtain ⟨hordered, hwritten, hkeyed, hfits, hpicks, hread⟩ := hregular
  cases request with
  | find filter =>
    have hlooks : Looks schema.name a (.find filter) false filter a := .find filter
    obtain ⟨docs, others, ha, hb, hperm⟩ := h.find hschema (hread _ _ _ hlooks) (hfits _ _ _ hlooks)
    have hanswer : (Backend.carryOut schema.name (.find filter) a).answer = .ok (.found docs) := by
      simp [Backend.carryOut, ha, Except.map]
    have hother : (Backend.carryOut schema.name (.find filter) b).answer = .ok (.found others) := by
      simp [Backend.carryOut, hb, Except.map]
    exact ⟨hanswer ▸ hother ▸ .found hperm, h⟩
  | findOne filter =>
    have hlooks : Looks schema.name a (.findOne filter) true filter a := .findOne filter
    have heq := h.findOne hschema (hread _ _ _ hlooks) (hfits _ _ _ hlooks) (hpicks _ _ hlooks)
    exact ⟨agree_of_eq (by simp only [Backend.carryOut, heq]), h⟩
  | count => exact ⟨agree_of_eq (by simp [Backend.carryOut, h.count hschema, Outcome.pass]), h⟩
  | updateOne filter update upsert =>
    have hlooks : Looks schema.name a (.updateOne filter update upsert) true filter a :=
      .updateOne filter update upsert
    obtain ⟨hanswer, hstates⟩ := h.updateOne hschema (hread _ _ _ hlooks) (hfits _ _ _ hlooks)
      (hpicks _ _ hlooks) hordered.1 hordered.2 upsert
      (fun fault => answer_ne_of_map (hwritten fault))
      (fun name path => answer_ne_of_map (hkeyed name path))
    exact ⟨agree_of_eq (by simp only [Backend.carryOut, Outcome.map, hanswer]), hstates⟩
  | bulkWrite models =>
    obtain ⟨hanswer, hstates⟩ := h.bulkWrite hschema hordered
      (fun model met hmeets => hread _ _ _ (.bulkWrite hmeets))
      (fun model met hmeets => hfits _ _ _ (.bulkWrite hmeets))
      (fun model met hmeets => hpicks _ _ (.bulkWrite hmeets))
      (fun fault => answer_ne_of_map (hwritten fault))
      (fun name path => answer_ne_of_map (hkeyed name path))
    exact ⟨agree_of_eq (by simp only [Backend.carryOut, Outcome.map, hanswer]), hstates⟩
  | deleteMany filter =>
    have hlooks : Looks schema.name a (.deleteMany filter) false filter a := .deleteMany filter
    obtain ⟨hanswer, hstates⟩ := h.deleteMany hschema (hread _ _ _ hlooks) (hfits _ _ _ hlooks)
      (fun fault => answer_ne_of_map (hwritten fault))
      (fun name path => answer_ne_of_map (hkeyed name path))
    exact ⟨agree_of_eq (by simp only [Backend.carryOut, Outcome.map, hanswer]), hstates⟩
  | findOneAndUpdate filter update =>
    have hlooks : Looks schema.name a (.findOneAndUpdate filter update) true filter a :=
      .findOneAndUpdate filter update
    obtain ⟨hanswer, hstates⟩ := h.findOneAndUpdate hschema (hread _ _ _ hlooks)
      (hfits _ _ _ hlooks) (hpicks _ _ hlooks) hordered.1 hordered.2
      (fun fault => answer_ne_of_map (hwritten fault))
      (fun name path => answer_ne_of_map (hkeyed name path))
    exact ⟨agree_of_eq (by simp only [Backend.carryOut, Outcome.map, hanswer]), hstates⟩

/-- The rows give the documents of the snapshot exactly when these are read back as they are. -/
theorem Paired.contents_eq_iff (h : Paired a b) (hschema : schema ∈ Schema.all) :
    b.1.contents schema = a.1.contents schema ↔ AllReadable schema a.1 := by
  obtain ⟨kept, db, ha, hb, hkeeps⟩ := h
  rw [ha, hb, contents, contents, (hkeeps.written hschema).contents_eq_iff hschema]
  constructor
  · rintro hread docs ⟨⟩
    exact hread
  · exact fun hread => hread _ rfl

/-- What a snapshot and a database become when they are opened without their files and then carry
out the same regular requests. -/
inductive SideBySide (snapshotConfig databaseConfig : Config) : Held → Held → Prop where
  | opened {files others : FileTree}
      (habsent : ∀ location, snapshotConfig.home? = some location →
        ∀ content, files.entry? location ≠ some (.file content))
      (hother : ∀ location, databaseConfig.home? = some location →
        ∀ content, others.entry? location ≠ some (.file content)) :
    SideBySide snapshotConfig databaseConfig (restore snapshotConfig files)
      (restore databaseConfig others)
  | request {a b : Held} (h : SideBySide snapshotConfig databaseConfig a b) {schema : Schema}
      (hschema : schema ∈ Schema.all) {request : Request}
      (hregular : Regular schema request a b) :
    SideBySide snapshotConfig databaseConfig (carryOut schema.name request a).state
      (carryOut schema.name request b).state

lemma paired_restore {snapshotConfig databaseConfig : Config}
    (hsnapshot : snapshotConfig.backend = .snapshot) (hdatabase : databaseConfig.backend = .sqlite)
    {files others : FileTree}
    (habsent : ∀ location, snapshotConfig.home? = some location →
      ∀ content, files.entry? location ≠ some (.file content))
    (hother : ∀ location, databaseConfig.home? = some location →
      ∀ content, others.entry? location ≠ some (.file content)) :
    Paired (restore snapshotConfig files) (restore databaseConfig others) := by
  have hempty : Snapshot.stored files snapshotConfig.snapshotPath = [] :=
    Snapshot.stored_of_absent fun content hentry =>
      habsent _ (by rw [Config.home?, hsnapshot]) content hentry
  have hfresh : (Relational.restore others databaseConfig.sqlitePath).1.image = Image.fresh :=
    Relational.restore_of_absent fun location hlocation content hentry =>
      hother location (by rw [Config.home?, hdatabase]; exact hlocation) content hentry
  rw [restore, restore, hsnapshot, hdatabase]
  refine ⟨_, _, rfl, rfl, ?_⟩
  change (Relational.restore others databaseConfig.sqlitePath).1.image.Keeps
    (Snapshot.stored files snapshotConfig.snapshotPath)
  rw [hempty, hfresh]
  exact Image.Keeps.fresh

lemma paired_of_sideBySide {snapshotConfig databaseConfig : Config}
    (hsnapshot : snapshotConfig.backend = .snapshot) (hdatabase : databaseConfig.backend = .sqlite)
    (h : SideBySide snapshotConfig databaseConfig a b) : Paired a b := by
  induction h with
  | opened habsent hother => exact paired_restore hsnapshot hdatabase habsent hother
  | request h hschema hregular ih => exact (ih.carryOut hschema hregular).2

lemma sideBySide_restore_empty (snapshotConfig databaseConfig : Config) (directory : String) :
    SideBySide snapshotConfig databaseConfig (restore snapshotConfig (.empty directory))
      (restore databaseConfig (.empty directory)) := by
  refine .opened ?_ ?_ <;>
  · intro location _ content hentry
    unfold FileTree.entry? at hentry
    simp [FileTree.empty, LocationMap.get?_empty] at hentry

lemma ne_error_of_isOk {α : Type} {answer : Except StoreError α} (h : answer.isOk = true)
    (error : StoreError) : answer ≠ .error error := by
  rintro rfl
  cases h

lemma regular_of_empty {request : Request} (hempty : a.1.contents schema = .ok [])
    (hlooks : ∀ first filter met, Looks schema.name a request first filter met →
      met = a ∧ (Prefilter.ofFilter schema filter).Fits)
    (hordered : request.Ordered) (ha : (carryOut schema.name request a).answer.isOk = true)
    (hb : (carryOut schema.name request b).answer.isOk = true) : Regular schema request a b where
  ordered := hordered
  written := fun _ => ne_error_of_isOk ha _
  keyed := fun _ _ => ne_error_of_isOk hb _
  fits := fun _ _ _ hmet => (hlooks _ _ _ hmet).2
  picks := by
    rintro filter met hmet docs hdocs
    rw [(hlooks _ _ _ hmet).1, hempty] at hdocs
    cases hdocs
    exact .inr (by simp)
  readable := by
    rintro first filter met hmet docs hdocs
    rw [(hlooks _ _ _ hmet).1, hempty] at hdocs
    cases hdocs
    simp

lemma contents_findOneAndUpdate_of_empty (hempty : a.1.contents schema = .ok [])
    (hsnapshot : ∃ kept, a.1 = .snapshot kept) (filter : Filter) (update : Update) :
    (findOneAndUpdate schema.name filter update a).state.1.contents schema =
      .ok [update.create filter] := by
  obtain ⟨backend, files⟩ := a
  obtain ⟨kept, rfl⟩ := hsnapshot
  have hdocs : kept.collections.docs schema.name = [] := by
    simpa [contents] using hempty
  simp only [findOneAndUpdate, ofSnapshot, Outcome.mapState, Snapshot.findOneAndUpdate,
    Snapshot.state_commit, Collections.modify, hdocs]
  simp [contents, Collection.findOneAndUpdate, Collection.updateFirst?, splitFirst,
    Collection.push, Collection.place]

/-- As long as all statements are within the limits and all documents that requests find stored are
read back from their text as they are, a snapshot and a database answer alike; and the rows of a
table then give the documents of the snapshot, in order, exactly when those that are stored now are
read back as they are. -/
theorem parity {snapshotConfig databaseConfig : Config}
    (hsnapshot : snapshotConfig.backend = .snapshot) (hdatabase : databaseConfig.backend = .sqlite)
    {a b : Held} (h : SideBySide snapshotConfig databaseConfig a b) :
    (∀ schema ∈ Schema.all,
      b.1.contents schema = a.1.contents schema ↔ AllReadable schema a.1) ∧
    ∀ schema ∈ Schema.all, ∀ request, Regular schema request a b →
      Agree (carryOut schema.name request a).answer (carryOut schema.name request b).answer := by
  have hpaired := paired_of_sideBySide hsnapshot hdatabase h
  exact ⟨fun schema hschema => hpaired.contents_eq_iff hschema,
    fun schema hschema request hregular => (hpaired.carryOut hschema hregular).1⟩

/-- A document that is made on both sides. -/
theorem parity_after_create :
    ∃ a b, SideBySide .default { Config.default with backend := .sqlite } a b ∧
      a.1.count "plugins" = 1 ∧ b.1.count "plugins" = 1 ∧
      (∀ schema ∈ Schema.all, b.1.contents schema = a.1.contents schema ↔
        AllReadable schema a.1) ∧
      ∀ schema ∈ Schema.all, ∀ request, Regular schema request a b →
        Agree (carryOut schema.name request a).answer (carryOut schema.name request b).answer := by
  have hopened := sideBySide_restore_empty .default { Config.default with backend := .sqlite } "/w"
  have hregular : Regular .plugins
      (.updateOne (Filter.empty.push "package.name" (.equals (.string "a"))) .empty true)
      (restore .default (.empty "/w"))
      (restore { Config.default with backend := .sqlite } (.empty "/w")) :=
    regular_of_empty rfl
      (by rintro _ _ _ ⟨⟩; exact ⟨rfl, by decide +kernel, by decide +kernel⟩)
      (by simp [Request.Ordered, Filter.Ordered, Filter.push, Filter.empty, Update.Ordered,
        Update.empty, Condition.Ordered, Value.Ordered])
      (by decide +kernel) (by decide +kernel)
  have hmade := hopened.request (by decide) hregular
  exact ⟨_, _, hmade, by decide +kernel, by decide +kernel, parity rfl rfl hmade⟩

/-- A sum of doubles is stored that is finite but does not read back. -/
theorem parity_fails :
    ∃ (filter : Filter) (update : Update) (a b : Held) (docs : List Document),
      a = restore .default (.empty "/w") ∧
      b = restore { Config.default with backend := .sqlite } (.empty "/w") ∧
      Regular .systemSettings (.findOneAndUpdate filter update) a b ∧
      (findOneAndUpdate "system_settings" filter update a).state.1.contents .systemSettings =
        .ok docs ∧
      (∀ doc ∈ docs, doc.nesting ≤ Value.nestingLimit ∧
        ∀ x ∈ (Value.object doc).floats, x.isFinite = true) ∧
      (findOneAndUpdate "system_settings" filter update b).state.1.contents .systemSettings ≠
        .ok docs := by
  let filter : Filter := .push .empty "_id" (.equals (.string "s"))
  let update : Update := ⟨[.increment "n" (.float (.ofQuotient false 1 100)),
    .increment "n" (.float (.ofQuotient false 9 100))]⟩
  have hempty : (restore .default (.empty "/w")).1.contents .systemSettings = .ok [] := rfl
  have hregular : Regular .systemSettings (.findOneAndUpdate filter update)
      (restore .default (.empty "/w"))
      (restore { Config.default with backend := .sqlite } (.empty "/w")) :=
    regular_of_empty hempty
      (by rintro _ _ _ ⟨⟩; exact ⟨rfl, by decide +kernel, by decide +kernel⟩)
      (by simp [filter, update, Request.Ordered, Filter.Ordered, Filter.push, Filter.empty,
        Update.Ordered, UpdateOp.Ordered, Condition.Ordered, Value.Ordered])
      (by decide +kernel) (by decide +kernel)
  have hpaired := paired_of_sideBySide rfl rfl
    ((sideBySide_restore_empty .default { Config.default with backend := .sqlite } "/w").request
      (by decide) hregular)
  have hdocs := contents_findOneAndUpdate_of_empty hempty ⟨_, rfl⟩ filter update
  refine ⟨_, _, _, _, _, rfl, rfl, hregular, hdocs, by decide +kernel, fun hsame => ?_⟩
  have hread := (hpaired.contents_eq_iff (by decide)).mp (hsame.trans hdocs.symm) _ hdocs _
    (List.mem_singleton_self _)
  exact Binary64.tenthSum_finite_not_readsBack.2 (hread.2 _ (by decide +kernel))

end Backend

end DocStore
