import DocStore.Proofs.Store.KeyedWrites
import DocStore.Proofs.Store.Parity

/-!
# Batches of writes by key

A backend is a list of entries with keys, documents or rows, in which a write by key is an edit
(`KeyedView`). So a batch of writes for distinct keys may be carried out in any order
(`bulkWrite_perm`): it is counted alike, leaves the same documents, and leaves alone those of other
keys and those without one.
-/

namespace DocStore

open Sql (Image Row Table)

variable {schema : Schema}

namespace Backend

open KeyedWrite (models Apart)

/-- A backend seen as entries with keys, among which a write by key is an edit. The entries with the
key of a write must be legible for it, and the files must be written. -/
structure KeyedView (schema : Schema) (α : Type) where
  keyOf : α → Option String
  Valid : α → Prop
  Legible : α → Prop
  Shows : Held → List α → Prop
  edit : KeyedWrite → Edit α
  key_edit : ∀ write, (edit write).key = write.key
  keepsKey : ∀ write, write.KeepsKey schema → (edit write).KeepsKey keyOf Valid
  valid : ∀ held entries, Shows held entries → ∀ entry ∈ entries, Valid entry
  step : ∀ write, write.KeepsKey schema → ∀ held entries, Shows held entries →
    (∀ entry ∈ entries, keyOf entry = some write.key → Legible entry) →
    (∀ fault, (updateOne schema.name (.byKey schema write.key) write.update write.upsert
      held).answer ≠ .error (.file fault)) →
    ∃ after, updateOne schema.name (.byKey schema write.key) write.update write.upsert held =
        ⟨.ok ((edit write).result keyOf entries), after⟩ ∧
      Shows after ((edit write).apply keyOf entries)

namespace KeyedView

variable {α : Type} (view : KeyedView schema α) {writes : List KeyedWrite} {held : Held}
  {entries : List α}

/-- A batch of writes by key makes the edits of the writes. -/
theorem bulkWrite (hapart : Apart schema writes) (hshows : view.Shows held entries)
    (hlegible : ∀ write ∈ writes, ∀ entry ∈ entries,
      view.keyOf entry = some write.key → view.Legible entry)
    (hwritten : ∀ fault,
      (bulkWrite schema.name (models schema writes) held).answer ≠ .error (.file fault)) :
    ∃ after, Backend.bulkWrite schema.name (models schema writes) held =
        ⟨.ok (Edit.counts view.keyOf (writes.map view.edit) entries), after⟩ ∧
      view.Shows after (Edit.run view.keyOf (writes.map view.edit) entries) := by
  induction writes generalizing held entries with
  | nil => exact ⟨held, rfl, hshows⟩
  | cons write rest ih =>
    obtain ⟨hwrite, hrest⟩ := List.forall_mem_cons.mp hapart.keeps
    obtain ⟨hfresh, hkeys⟩ := List.nodup_cons.mp hapart.keys
    obtain ⟨hself, hothers⟩ := List.forall_mem_cons.mp hlegible
    have hfirst : ∀ fault, (updateOne schema.name (.byKey schema write.key) write.update
        write.upsert held).answer ≠ .error (.file fault) := by
      intro fault hfault
      rcases hout : updateOne schema.name (.byKey schema write.key) write.update write.upsert held
        with ⟨answer, state⟩
      rw [hout] at hfault
      subst hfault
      have hfails : Backend.bulkWrite schema.name (models schema (write :: rest)) held =
          .fail (.file fault) state := bulkWrite_cons_of_error hout _
      exact hwritten fault (by rw [hfails]; rfl)
    obtain ⟨next, hnext, hshowsNext⟩ := view.step write hwrite held entries hshows hself hfirst
    have hcons : Backend.bulkWrite schema.name (models schema (write :: rest)) held =
        (Backend.bulkWrite schema.name (models schema rest) next).map
          (BatchResult.ofUpdate ((view.edit write).result view.keyOf entries)).add :=
      bulkWrite_cons_of_ok hnext _
    have hwrittenRest : ∀ fault, (Backend.bulkWrite schema.name (models schema rest) next).answer ≠
        .error (.file fault) := by
      intro fault
      rw [hcons] at hwritten
      exact answer_ne_of_map (hwritten fault)
    -- Entries with the keys of later writes are not touched by this one.
    have hlegibleRest : ∀ other ∈ rest, ∀ entry ∈ (view.edit write).apply view.keyOf entries,
        view.keyOf entry = some other.key → view.Legible entry := by
      intro other hother entry hentry hkey
      refine hothers other hother entry ?_ hkey
      obtain ⟨-, hsame | hold⟩ :=
        Edit.mem_apply (view.keepsKey write hwrite) (view.valid held entries hshows) hentry
      · rw [hkey, view.key_edit, Option.some.injEq] at hsame
        exact absurd (List.mem_map.mpr ⟨other, hother, hsame⟩) hfresh
      · exact hold
    obtain ⟨after, hafter, hlast⟩ := ih ⟨hkeys, hrest⟩ hshowsNext hlegibleRest hwrittenRest
    refine ⟨after, ?_, hlast⟩
    rw [hcons, hafter]
    rfl

lemma keepsKey_of_mem (hapart : Apart schema writes) :
    ∀ edit ∈ writes.map view.edit, edit.KeepsKey view.keyOf view.Valid := by
  intro edit hedit
  obtain ⟨write, hwrite, rfl⟩ := List.mem_map.mp hedit
  exact view.keepsKey write (hapart.keeps write hwrite)

lemma filter_run (hapart : Apart schema writes) (hshows : view.Shows held entries)
    {others : List KeyedWrite} (hothers : ∀ write ∈ others, write ∈ writes) :
    (Edit.run view.keyOf (others.map view.edit) entries).filter
        (KeyedWrite.spares writes view.keyOf) =
      entries.filter (KeyedWrite.spares writes view.keyOf) := by
  have hedits : others.map view.edit ⊆ writes.map view.edit :=
    List.map_subset view.edit fun _ hwrite => hothers _ hwrite
  refine Edit.filter_run (fun edit hedit => view.keepsKey_of_mem hapart edit (hedits hedit))
    (view.valid held entries hshows) fun edit hedit entry hkey => ?_
  obtain ⟨write, hwrite, rfl⟩ := List.mem_map.mp (hedits hedit)
  rw [view.key_edit] at hkey
  refine List.all_eq_false.mpr ⟨write, hwrite, ?_⟩
  simp [hkey]

/-- Batches of the same writes by key in two orders are counted alike, and show the same entries up
to order. Entries with other keys, or with none, stay as they are. -/
theorem bulkWrite_reordered (hapart : Apart schema writes) (hshows : view.Shows held entries)
    (hlegible : ∀ write ∈ writes, ∀ entry ∈ entries,
      view.keyOf entry = some write.key → view.Legible entry)
    (hwritten : ∀ fault,
      (Backend.bulkWrite schema.name (models schema writes) held).answer ≠ .error (.file fault))
    {others : List KeyedWrite} (hperm : others.Perm writes)
    (hother : ∀ fault,
      (Backend.bulkWrite schema.name (models schema others) held).answer ≠
        .error (.file fault)) :
    ∃ counts after later first second,
      Backend.bulkWrite schema.name (models schema writes) held = ⟨.ok counts, after⟩ ∧
      Backend.bulkWrite schema.name (models schema others) held = ⟨.ok counts, later⟩ ∧
      view.Shows after first ∧ view.Shows later second ∧ second.Perm first ∧
      first.filter (KeyedWrite.spares writes view.keyOf) =
        entries.filter (KeyedWrite.spares writes view.keyOf) ∧
      second.filter (KeyedWrite.spares writes view.keyOf) =
        entries.filter (KeyedWrite.spares writes view.keyOf) := by
  have hkeys : ((writes.map view.edit).map Edit.key).Nodup := by
    have hsame : (writes.map view.edit).map Edit.key = writes.map (·.key) := by
      rw [List.map_map]
      exact List.map_congr_left fun write _ => view.key_edit write
    rw [hsame]
    exact hapart.keys
  obtain ⟨after, hafter, hfirst⟩ := view.bulkWrite hapart hshows hlegible hwritten
  obtain ⟨later, hlater, hsecond⟩ := view.bulkWrite (hapart.perm hperm) hshows
    (fun write hwrite => hlegible write (hperm.mem_iff.mp hwrite)) hother
  obtain ⟨hcounts, hentries⟩ := Edit.run_perm (hperm.map view.edit) hkeys
    (view.keepsKey_of_mem hapart) (view.valid held entries hshows)
  rw [hcounts] at hlater
  exact ⟨_, after, later, _, _, hafter, hlater, hfirst, hsecond, hentries,
    view.filter_run hapart hshows fun _ hwrite => hwrite,
    view.filter_run hapart hshows fun _ hwrite => hperm.mem_iff.mp hwrite⟩

end KeyedView

variable {writes : List KeyedWrite}

/-- The documents of a snapshot, seen from collections that are edited in one place. -/
def documentView (hschema : schema ∈ Schema.all) (collections : Collections) :
    KeyedView schema Document where
  keyOf := schema.keyOf?
  Valid := Document.Ordered
  Legible := fun _ => True
  Shows := fun held docs => ∃ kept, held.1 = .snapshot kept ∧ kept.collections.Sound ∧
    kept.collections.docs schema.name = docs ∧
    ∀ name, name ≠ schema.name → kept.collections.docs name = collections.docs name
  edit := KeyedWrite.documentEdit schema
  key_edit := fun _ => rfl
  keepsKey := fun _ h => h.documentEdit
  valid := by
    rintro held docs ⟨kept, -, hsound, rfl, -⟩
    exact (hsound.docs schema.name).documents
  step := by
    rintro write hkeeps ⟨-, files⟩ docs ⟨kept, rfl, hsound, rfl, hothers⟩ - hwritten
    have hallowed := write.update.requireAssignments_eq_ok_iff.mpr hkeeps.assigns
    have hupdate := Collection.updateOne_eq_edit (hsound.docs schema.name) hschema hkeeps
    have hafter := (hsound.docs schema.name).updateOne (Filter.ordered_byKey schema write.key)
      hkeeps.ordered write.upsert
    rw [hupdate] at hafter
    simp only [Backend.updateOne, ofSnapshot, Outcome.mapState, Snapshot.updateOne, hallowed,
      Collections.modify, hupdate] at hwritten ⊢
    rw [answer_commit_of_written kept files hwritten]
    refine ⟨_, rfl, _, rfl, hsound.insert hafter, Collections.docs_insert_self _ _ _,
      fun name hne => ?_⟩
    exact (Collections.docs_insert_of_ne hne _ _).trans (hothers name hne)

/-- The rows of a database, seen from an image that is edited in one table. -/
def rowView (hschema : schema ∈ Schema.all) (image : Image) : KeyedView schema Row where
  keyOf := Row.primary
  Valid := fun _ => True
  Legible := fun row => ∃ doc, Table.Writes schema row doc ∧ doc.nesting ≤ Value.nestingLimit
  Shows := fun held rows => ∃ db, held.1 = .relational db ∧
    Image.EditedTo schema image rows db.image
  edit := KeyedWrite.rowEdit schema
  key_edit := fun _ => rfl
  keepsKey := fun write _ => KeyedWrite.keepsKey_rowEdit schema write
  valid := fun _ _ _ _ _ => trivial
  step := by
    rintro write hkeeps ⟨-, files⟩ rows ⟨db, rfl, hedited⟩ hlegible -
    obtain ⟨after, hupdate, hafter⟩ :=
      Image.updateOne_eq_edit hedited.sound hschema hkeeps (hedited.rows ▸ hlegible)
    rw [hedited.rows] at hupdate hafter
    simp only [Backend.updateOne, ofRelational, Outcome.mapState, Relational.updateOne, hupdate]
    refine ⟨_, rfl, _, rfl, hafter.sound, hafter.rows, fun other hother hne => ?_⟩
    exact (hafter.others other hother hne).trans (hedited.others other hother hne)

/-- A document that stands in a collection: in memory, or in a row. -/
def Stores (schema : Schema) (backend : Backend) (doc : Document) : Prop :=
  match backend with
  | .snapshot kept => doc ∈ kept.collections.docs schema.name
  | .relational db => ∃ row ∈ (db.image.tableOf schema).rows, Table.Writes schema row doc

/-- Two backends that hold the same documents of a collection, in whatever order. -/
def Alike (schema : Schema) : Backend → Backend → Prop
  | .snapshot kept, .snapshot other =>
    (other.collections.docs schema.name).Perm (kept.collections.docs schema.name)
  | .relational db, .relational other =>
    (other.image.tableOf schema).rows.Perm (db.image.tableOf schema).rows
  | _, _ => False

/-- What writes by key leave alone: the documents with other keys or without one, in their order,
and all other collections. -/
def Spares (schema : Schema) (writes : List KeyedWrite) : Backend → Backend → Prop
  | .snapshot kept, .snapshot after =>
    (after.collections.docs schema.name).filter (KeyedWrite.spares writes schema.keyOf?) =
        (kept.collections.docs schema.name).filter (KeyedWrite.spares writes schema.keyOf?) ∧
      ∀ name, name ≠ schema.name → after.collections.docs name = kept.collections.docs name
  | .relational db, .relational after =>
    (after.image.tableOf schema).rows.filter (KeyedWrite.spares writes Row.primary) =
        (db.image.tableOf schema).rows.filter (KeyedWrite.spares writes Row.primary) ∧
      ∀ other ∈ Schema.all, other ≠ schema → after.image.tableOf other = db.image.tableOf other
  | _, _ => False

/-- The document of a key is the same in whatever order the documents are held. -/
lemma findOne_byKey_snapshot {kept other : Snapshot} (hschema : schema ∈ Schema.all)
    (h : Collection.Sound schema.name (kept.collections.docs schema.name))
    (hperm : (other.collections.docs schema.name).Perm (kept.collections.docs schema.name))
    (key : String) :
    other.findOne schema.name (.byKey schema key) =
      kept.findOne schema.name (.byKey schema key) := by
  simp only [Snapshot.findOne, Snapshot.find, List.head?_filter]
  refine find?_eq_of_perm hperm fun doc hdoc another hanother haccepts hagain => ?_
  rw [Filter.accepts_byKey_iff] at haccepts hagain
  exact h.eq_of_keyOf?_eq hschema hdoc hanother haccepts hagain

lemma findOne_byKey_relational {db other : Relational} (hschema : schema ∈ Schema.all)
    (h : Table.Sound schema (db.image.tableOf schema))
    (hother : Table.Sound schema (other.image.tableOf schema))
    (hperm : (other.image.tableOf schema).rows.Perm (db.image.tableOf schema).rows)
    (key : String) :
    other.findOne schema.name (.byKey schema key) = db.findOne schema.name (.byKey schema key) := by
  have hfind : (other.image.tableOf schema).rows.find? (·.primary == some key) =
      (db.image.tableOf schema).rows.find? (·.primary == some key) := by
    refine find?_eq_of_perm hperm fun row hrow another hanother hkey hagain => ?_
    refine List.inj_on_of_nodup_map h.primaries hrow hanother ?_
    rw [beq_iff_eq.mp hkey, beq_iff_eq.mp hagain]
  have hdecode : (other.image.tableOf schema).decode schema =
      (db.image.tableOf schema).decode schema :=
    Table.decode_congr (hother.columns.trans h.columns.symm)
  simp only [Relational.findOne, Schema.for?_name hschema, h.selectFirst_byKey hschema,
    hother.selectFirst_byKey hschema, hfind, hdecode]

/-- In whatever order a batch of writes by pairwise distinct keys is carried out, in any reachable
state: it is counted alike, and leaves the same documents. There is the same document at every key
then, and the documents with other keys or without one stay as they are. This is as long as the
files are written and the documents of the keys are not nested too deep to be read from a row. -/
theorem bulkWrite_perm {config : Config} {held : Held} (hreached : Reachable config held)
    (hschema : schema ∈ Schema.all) {writes : List KeyedWrite} (hapart : Apart schema writes)
    (hnesting : ∀ doc, held.1.Stores schema doc →
      (∃ write ∈ writes, schema.keyOf? doc = some write.key) →
      doc.nesting ≤ Value.nestingLimit)
    (hwritten : ∀ fault,
      (bulkWrite schema.name (models schema writes) held).answer ≠ .error (.file fault))
    {others : List KeyedWrite} (hperm : others.Perm writes)
    (hother : ∀ fault,
      (bulkWrite schema.name (models schema others) held).answer ≠ .error (.file fault)) :
    ∃ counts after later,
      bulkWrite schema.name (models schema writes) held = ⟨.ok counts, after⟩ ∧
      bulkWrite schema.name (models schema others) held = ⟨.ok counts, later⟩ ∧
      Alike schema after.1 later.1 ∧
      (∀ key, later.1.findOne schema.name (.byKey schema key) =
        after.1.findOne schema.name (.byKey schema key)) ∧
      Spares schema writes held.1 after.1 ∧ Spares schema writes held.1 later.1 := by
  cases hconfig : config.backend with
  | snapshot =>
    obtain ⟨kept, hkept, hsound⟩ := soundSnapshot_of_reachable hconfig hreached
    let view := documentView hschema kept.collections
    have hshows : view.Shows held (kept.collections.docs schema.name) :=
      ⟨kept, hkept, hsound.collections, rfl, fun _ _ => rfl⟩
    obtain ⟨counts, ⟨-, files⟩, ⟨-, others⟩, first, second, hafter, hlater,
        ⟨next, rfl, hnext, rfl, hkeptFirst⟩, ⟨last, rfl, -, rfl, hkeptSecond⟩, hsame, hfirst,
        hsecond⟩ :=
      view.bulkWrite_reordered hapart hshows (fun _ _ _ _ _ => trivial) hwritten hperm hother
    refine ⟨counts, _, _, hafter, hlater, hsame, fun key => ?_, ?_, ?_⟩
    · exact congrArg Except.ok
        (findOne_byKey_snapshot hschema (hnext.docs schema.name) hsame key)
    · rw [hkept]
      exact ⟨hfirst, hkeptFirst⟩
    · rw [hkept]
      exact ⟨hsecond, hkeptSecond⟩
  | sqlite =>
    obtain ⟨db, hdb, hsound⟩ := soundDatabase_of_reachable hconfig hreached
    let view := rowView hschema db.image
    have hshows : view.Shows held (db.image.tableOf schema).rows :=
      ⟨db, hdb, Image.editedTo_self hsound.image schema⟩
    have hlegible : ∀ write ∈ writes, ∀ row ∈ (db.image.tableOf schema).rows,
        row.primary = some write.key → view.Legible row := by
      intro write hwrite row hrow hkey
      obtain ⟨doc, hdoc⟩ := (hsound.image.tableOf hschema).rows row hrow
      have hstores : held.1.Stores schema doc := by
        rw [hdb]
        exact ⟨row, hrow, hdoc⟩
      exact ⟨doc, hdoc, hnesting doc hstores
        ⟨write, hwrite, (Table.primary_of_writes hdoc).symm.trans hkey⟩⟩
    obtain ⟨counts, ⟨-, files⟩, ⟨-, others⟩, first, second, hafter, hlater,
        ⟨next, rfl, hnext⟩, ⟨last, rfl, hlast⟩, hsame, hfirst, hsecond⟩ :=
      view.bulkWrite_reordered hapart hshows hlegible hwritten hperm hother
    obtain rfl := hnext.rows
    obtain rfl := hlast.rows
    refine ⟨counts, _, _, hafter, hlater, hsame, fun key => ?_, ?_, ?_⟩
    · exact findOne_byKey_relational hschema (hnext.sound.tableOf hschema)
        (hlast.sound.tableOf hschema) hsame key
    · rw [hdb]
      exact ⟨hfirst, hnext.others⟩
    · rw [hdb]
      exact ⟨hsecond, hlast.others⟩

/-- A setting of a database that is changed, and one that is made, in both orders. -/
theorem bulkWrite_perm_of_settings :
    let config : Config := { Config.default with backend := .sqlite }
    let kept : KeyedWrite := ⟨"b", ⟨[.assign "n" (.int 0)]⟩, true⟩
    let changes : KeyedWrite := ⟨"b", ⟨[.assign "n" (.int 1)]⟩, false⟩
    let makes : KeyedWrite := ⟨"a", ⟨[.assign "n" (.int 2)]⟩, true⟩
    let held := (carryOut "system_settings" (.bulkWrite (models .systemSettings [kept]))
      (restore config (.empty "/w"))).state
    ∃ after later,
      bulkWrite "system_settings" (models .systemSettings [changes, makes]) held =
        ⟨.ok ⟨1, 1⟩, after⟩ ∧
      bulkWrite "system_settings" (models .systemSettings [makes, changes]) held =
        ⟨.ok ⟨1, 1⟩, later⟩ ∧
      Alike .systemSettings after.1 later.1 := by
  intro config kept changes makes held
  have hkeeps : ∀ (key : String) (n : Int64) (upsert : Bool),
      KeyedWrite.KeepsKey .systemSettings ⟨key, ⟨[.assign "n" (.int n)]⟩, upsert⟩ :=
    fun key n upsert => KeyedWrite.keepsKey_of_assign (by decide +kernel) (by simp [Value.Ordered])
      key upsert
  have hreached : Reachable config held := by
    refine (reachable_restore_empty config "/w").request "system_settings" ?_
    intro model hmodel
    obtain rfl := List.mem_singleton.mp hmodel
    exact ⟨Filter.ordered_byKey .systemSettings "b", (hkeeps "b" 0 true).ordered⟩
  obtain ⟨db, hdb, hsound⟩ := soundDatabase_of_reachable rfl hreached
  obtain ⟨found, hfound⟩ : ∃ found, held.1.contents .systemSettings = .ok found := by
    have hread : (held.1.contents .systemSettings).isOk = true := by decide +kernel
    cases hcontents : held.1.contents .systemSettings with
    | ok found => exact ⟨found, rfl⟩
    | error error =>
      rw [hcontents] at hread
      cases hread
  have hapart : Apart .systemSettings [changes, makes] :=
    ⟨by decide +kernel, by simpa [changes, makes] using ⟨hkeeps "b" 1 false, hkeeps "a" 2 true⟩⟩
  obtain ⟨counts, after, later, hafter, hlater, halike, -⟩ :=
    bulkWrite_perm hreached (by decide) hapart
      (by
        intro doc hdoc _
        rw [hdb] at hdoc hfound
        obtain ⟨row, hrow, hwrites⟩ := hdoc
        exact hwrites.nesting_le (by decide) (hsound.image.tableOf (by decide)).columns hfound
          hrow)
      (fun _ => ne_error_of_isOk (by decide +kernel) _) (List.Perm.swap changes makes [])
      (fun _ => ne_error_of_isOk (by decide +kernel) _)
  have hcounts : (bulkWrite "system_settings" (models .systemSettings [changes, makes])
      held).answer.toOption = some ⟨1, 1⟩ := by
    decide +kernel
  have hsame : counts = ⟨1, 1⟩ := by
    have hanswer := congrArg (·.answer.toOption) hafter
    exact Option.some.inj (hanswer.symm.trans hcounts)
  rw [hsame] at hafter hlater
  exact ⟨after, later, hafter, hlater, halike⟩

end Backend

end DocStore
