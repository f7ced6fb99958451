import DocStore.Proofs.Store.ByKey
import DocStore.Proofs.Store.Parity

/-!
# Documents that were inserted in the same order

Documents that were `Inserted` one after the other into an empty collection of a snapshot, and into
its table in a database, stand there in the order in which they were inserted (`Inserted.written`).
-/

namespace DocStore

open Sql (Image Table)

variable {schema : Schema} {docs : List Document} {filter : Filter}

lemma Sql.Image.store_of_created (hschema : schema ∈ Schema.all) {image after : Image}
    {update : Update} {upsert : Bool}
    (h : image.updateOne schema.name filter update upsert = .ok (.created, after)) :
    image.store schema none (update.create filter) = .ok after := by
  obtain ⟨-, -, h⟩ := bind_eq_ok_iff.mp h
  rw [Keeps.writable_name hschema, Keeps.ok_bind] at h
  obtain ⟨match?, -, h⟩ := bind_eq_ok_iff.mp h
  cases match? with
  | some entry =>
    obtain ⟨stored, -, heq⟩ := bind_eq_ok_iff.mp h
    cases heq
  | none =>
    dsimp only at h
    split at h
    · obtain ⟨stored, hstore, heq⟩ := bind_eq_ok_iff.mp h
      cases heq
      exact hstore
    · cases h

lemma Collection.push_of_created {name : String} {update : Update} {upsert : Bool}
    (h : (updateOne name filter update upsert docs).1 = .created) :
    (updateOne name filter update upsert docs).2 = push name (update.create filter) docs := by
  revert h
  unfold updateOne
  split
  · intro h
    cases h
  · split
    · exact fun _ => rfl
    · intro h
      cases h

namespace Backend

lemma eq_of_answer_commit {α : Type} {kept : Snapshot} {files : FileTree}
    {change : α × Collections} {answer : α}
    (h : (kept.commit files change).answer = .ok answer) : change.1 = answer := by
  have hwritten := answer_commit_of_written kept files fun fault hfault => by
    rw [h] at hfault
    cases hfault
  exact Except.ok.inj (hwritten.symm.trans h)

/-- An upsert that makes a document. -/
def Inserts (schema : Schema) (doc : Document) (held after : Held) : Prop :=
  ∃ (filter : Filter) (update : Update), filter.Ordered ∧ update.Ordered ∧
    update.create filter = doc ∧
    updateOne schema.name filter update true held = ⟨.ok .created, after⟩

/-- Documents that were inserted in the same order into a collection of a snapshot and into its
table in a database, both of which were empty. Each has a key that none before it has. -/
inductive Inserted (schema : Schema) (snapshotConfig databaseConfig : Config) :
    List Document → Held → Held → Prop where
  | none {a b : Held} (ha : Reachable snapshotConfig a) (hb : Reachable databaseConfig b)
      (hempty : a.1.count schema.name = 0) (hother : b.1.count schema.name = 0) :
    Inserted schema snapshotConfig databaseConfig [] a b
  | insert {docs : List Document} {a b after later : Held} {doc : Document} {key : String}
      (h : Inserted schema snapshotConfig databaseConfig docs a b)
      (hkey : schema.keyOf? doc = some key)
      (hnew : ∀ other ∈ docs, schema.keyOf? other ≠ some key)
      (ha : Inserts schema doc a after) (hb : Inserts schema doc b later) :
    Inserted schema snapshotConfig databaseConfig (docs ++ [doc]) after later

variable {doc : Document} {held after : Held}

lemma Inserts.ordered (h : Inserts schema doc held after) : doc.Ordered := by
  obtain ⟨filter, update, hfilter, hupdate, rfl, -⟩ := h
  exact hupdate.create hfilter

lemma Inserts.reachable {config : Config} (h : Inserts schema doc held after)
    (hreached : Reachable config held) : Reachable config after := by
  obtain ⟨filter, update, hfilter, hupdate, rfl, houtcome⟩ := h
  have hnext := hreached.request schema.name
    (show (Request.updateOne filter update true).Ordered from ⟨hfilter, hupdate⟩)
  rwa [carryOut, houtcome] at hnext

lemma Inserts.snapshot {kept : Snapshot} {files : FileTree}
    (h : Inserts schema doc (.snapshot kept, files) after) :
    ∃ next, after.1 = .snapshot next ∧ next.collections.docs schema.name =
      Collection.push schema.name doc (kept.collections.docs schema.name) := by
  obtain ⟨filter, update, -, -, rfl, houtcome⟩ := h
  simp only [updateOne, ofSnapshot, Outcome.mapState, Snapshot.updateOne] at houtcome
  cases hallowed : update.requireAssignments with
  | error error =>
    rw [hallowed] at houtcome
    cases houtcome
  | ok =>
    simp only [hallowed, Outcome.mk.injEq] at houtcome
    obtain ⟨hanswer, rfl⟩ := houtcome
    refine ⟨_, rfl, (Collections.docs_insert_self _ _ _).trans ?_⟩
    exact Collection.push_of_created (eq_of_answer_commit hanswer)

lemma Inserts.relational {db : Relational} {files : FileTree} (hschema : schema ∈ Schema.all)
    (himage : db.image.Sound) (hwritten : Table.Written schema (db.image.tableOf schema) docs)
    {key : String} (hkey : schema.keyOf? doc = some key)
    (h : Inserts schema doc (.relational db, files) after) :
    ∃ next, after.1 = .relational next ∧ Table.Written schema (next.image.tableOf schema)
      (Collection.push schema.name doc docs) := by
  have hdoc := h.ordered
  obtain ⟨filter, update, -, -, rfl, houtcome⟩ := h
  simp only [updateOne, ofRelational, Outcome.mapState, Relational.updateOne] at houtcome
  cases hchange : db.image.updateOne schema.name filter update true with
  | error error =>
    rw [hchange] at houtcome
    cases houtcome
  | ok result =>
    obtain ⟨answer, image⟩ := result
    rw [hchange] at houtcome
    obtain ⟨hanswer, rfl⟩ := Outcome.mk.inj houtcome
    cases hanswer
    have hstore := Image.store_of_created hschema hchange
    obtain ⟨table, htable, hnext⟩ := hwritten.store_new (Schema.for?_name hschema) hdoc hkey
    rw [Image.store, htable] at hstore
    cases hstore
    refine ⟨_, rfl, ?_⟩
    change Table.Written schema ((db.image.setTable table).tableOf schema) _
    rw [Image.tableOf_setTable_self himage hschema hnext.sound.name]
    exact hnext

theorem Inserted.written {snapshotConfig databaseConfig : Config}
    (hsnapshot : snapshotConfig.backend = .snapshot) (hdatabase : databaseConfig.backend = .sqlite)
    (hschema : schema ∈ Schema.all) {a b : Held}
    (h : Inserted schema snapshotConfig databaseConfig docs a b) :
    (∃ kept, a.1 = .snapshot kept ∧ kept.collections.docs schema.name = docs) ∧
      (∃ db, b.1 = .relational db ∧ Table.Written schema (db.image.tableOf schema) docs) ∧
      Reachable snapshotConfig a ∧ Reachable databaseConfig b := by
  induction h with
  | @none a b ha hb hempty hother =>
    obtain ⟨kept, hkept, -⟩ := soundSnapshot_of_reachable hsnapshot ha
    obtain ⟨db, hdb, hsound⟩ := soundDatabase_of_reachable hdatabase hb
    rw [hkept] at hempty
    rw [hdb, count, Relational.count, Schema.for?_name hschema] at hother
    refine ⟨⟨kept, hkept, List.length_eq_zero_iff.mp hempty⟩,
      ⟨db, hdb, hsound.image.tableOf hschema, ?_⟩, ha, hb⟩
    rw [List.length_eq_zero_iff.mp hother]
    exact .nil
  | @insert docs a b after later doc key _ hkey hnew ha hb ih =>
    obtain ⟨⟨kept, hkept, hdocs⟩, ⟨db, hdb, hwritten⟩, hreached, hother⟩ := ih
    obtain ⟨db', hdb', hsound⟩ := soundDatabase_of_reachable hdatabase hother
    obtain rfl : db = db' := Backend.relational.inj (hdb.symm.trans hdb')
    -- Nothing is dropped for the new document, since none has its key.
    have hpush : Collection.push schema.name doc docs = docs ++ [doc] :=
      Collection.place_of_forall_ne (Schema.for?_name hschema) hkey (by simpa using hnew)
    have hreachedNext := ha.reachable hreached
    have hotherNext := hb.reachable hother
    obtain ⟨backend, files⟩ := a
    obtain ⟨other, filesB⟩ := b
    obtain rfl := hkept
    obtain rfl := hdb
    obtain ⟨next, hnext, hnextDocs⟩ := ha.snapshot
    obtain ⟨last, hlast, hlastWritten⟩ := hb.relational hschema hsound.image hwritten hkey
    rw [hdocs, hpush] at hnextDocs
    rw [hpush] at hlastWritten
    exact ⟨⟨next, hnext, hnextDocs⟩, ⟨last, hlast, hlastWritten⟩, hreachedNext, hotherNext⟩

/-- The state after an upsert by key that updates nothing. -/
def upserted (schema : Schema) (key : String) (held : Held) : Held :=
  (updateOne schema.name (.byKey schema key) .empty true held).state

lemma inserts_upserted {key : String}
    (h : (updateOne schema.name (.byKey schema key) .empty true held).answer.toOption =
      some .created) :
    Inserts schema (Filter.byKey schema key).seed held (upserted schema key held) := by
  refine ⟨.byKey schema key, .empty, Filter.ordered_byKey schema key, ?_, rfl, ?_⟩
  · simp [Update.Ordered, Update.empty]
  · rw [upserted]
    generalize updateOne schema.name (.byKey schema key) .empty true held = outcome at h
    obtain ⟨error | answer, state⟩ := outcome
    · cases h
    · cases h
      rfl

lemma Inserted.upserted {snapshotConfig databaseConfig : Config} {a b : Held}
    (h : Inserted schema snapshotConfig databaseConfig docs a b) (key : String)
    (hnew : ∀ other ∈ docs, schema.keyOf? other ≠ some key)
    (ha : (updateOne schema.name (.byKey schema key) .empty true a).answer.toOption =
      some .created)
    (hb : (updateOne schema.name (.byKey schema key) .empty true b).answer.toOption =
      some .created) :
    Inserted schema snapshotConfig databaseConfig (docs ++ [(Filter.byKey schema key).seed])
      (upserted schema key a) (upserted schema key b) :=
  h.insert (Filter.keyOf?_seed_byKey schema key) hnew (inserts_upserted ha) (inserts_upserted hb)

end Backend

end DocStore
