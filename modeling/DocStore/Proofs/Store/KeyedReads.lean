import DocStore.Proofs.Assignments
import DocStore.Proofs.Files.Places
import DocStore.Proofs.Overwriting
import DocStore.Proofs.Store.KeyedBatches
import DocStore.Proofs.Store.StoredDocuments

/-!
# Reading a document by its key

A document that `SuitsKey` may be assigned as a whole to the document of a key, which is made when
there is none. The key then leads to a document with all members of the assigned one and the other
members of the one that was there, no other document has the key, and the documents of other keys
stay as they are (`findOne_after_assignment`). A database has to read the document back as it is: a
finite double that is read back as another one is enough for the read to give another value
(`findOne_after_assignment_fails`).
-/

namespace DocStore

open Document (segments)
open Sql (Image Row Table)

variable {schema : Schema}

namespace Document

lemma segments_of_notMem {name : String} (h : '.' ∉ name.toList) : segments name = [name] := by
  rw [segments, splitOnChar_of_notMem h, List.map_singleton, String.ofList_toList]

lemma get?_member_setAll {doc : Document} (hdoc : Fields.Ascending doc)
    (hnames : ∀ member ∈ doc, '.' ∉ member.1.toList) (name : String) (old : Document) :
    Fields.get? name (setAll doc old) = (Fields.get? name doc).or (Fields.get? name old) := by
  induction doc generalizing old with
  | nil => rfl
  | cons member rest ih =>
    obtain ⟨first, value⟩ := member
    obtain ⟨hfirst, hrest⟩ := List.pairwise_cons.mp hdoc
    obtain ⟨hdot, hdots⟩ := List.forall_mem_cons.mp hnames
    have hset : Document.set old first value = Fields.insert first value old := by
      rw [Document.set, segments_of_notMem hdot]
      rfl
    rw [setAll_cons, hset, ih hrest hdots, Fields.get?_cons]
    by_cases hname : name = first
    · subst hname
      have hnone : Fields.get? name rest = none := by
        cases hget : Fields.get? name rest with
        | none => rfl
        | some other => exact absurd (hfirst _ (Fields.mem_of_get? hget)) (lt_irrefl name)
      rw [hnone, if_pos rfl, Fields.get?_insert_self]
      rfl
    · rw [if_neg hname, Fields.get?_insert_of_ne hname]

/-- What may be assigned to the document of a key: no name in it is a path of several segments, and
what it has of the key path leads to the key. -/
structure SuitsKey (schema : Schema) (key : String) (doc : Document) : Prop where
  ordered : doc.Ordered
  names : ∀ member ∈ doc, '.' ∉ member.1.toList
  key : ∀ first ∈ (segments schema.key.path).head?, (Fields.get? first doc).isSome = true →
    doc.get? schema.key.path = some (.string key)

end Document

namespace Update

lemma isIncrement_of_mem_assignDocument {doc : Document} :
    ∀ op ∈ (assignDocument doc).ops, op.isIncrement = false := by
  intro op hop
  obtain ⟨member, -, rfl⟩ := List.mem_map.mp hop
  rfl

lemma apply_assignDocument (doc old : Document) :
    (assignDocument doc).apply old = Document.setAll doc old := by
  have hphases : (assignDocument doc).phases = (assignDocument doc).ops :=
    phases_append (List.forall_mem_nil _) isIncrement_of_mem_assignDocument
  rw [apply, hphases, assignDocument, List.foldl_map]
  rfl

end Update

/-- Assigns a whole document to the document of a key. -/
def KeyedWrite.assigning (key : String) (doc : Document) : KeyedWrite :=
  ⟨key, .assignDocument doc, true⟩

namespace Document.SuitsKey

variable {key : String} {doc : Document}

lemma get?_apply (h : doc.SuitsKey schema key) (name : String) (old : Document) :
    Fields.get? name ((Update.assignDocument doc).apply old) =
      (Fields.get? name doc).or (Fields.get? name old) := by
  rw [Update.apply_assignDocument]
  exact get?_member_setAll ((Value.ordered_object_iff doc).mp h.ordered).1 h.names name old

lemma ordered_assignDocument (h : doc.SuitsKey schema key) :
    (Update.assignDocument doc).Ordered := by
  intro op hop
  obtain ⟨member, hmember, rfl⟩ := List.mem_map.mp hop
  exact h.ordered.of_mem hmember

lemma keepsKey (h : doc.SuitsKey schema key) :
    (KeyedWrite.assigning key doc).KeepsKey schema where
  ordered := h.ordered_assignDocument
  assigns := List.any_eq_false.mpr fun op hop => by
    simp [Update.isIncrement_of_mem_assignDocument op hop]
  keeps := by
    intro old _ hold
    change schema.keyOf? ((Update.assignDocument doc).apply old) = some key
    rw [Schema.keyOf?_eq_some_iff] at hold ⊢
    obtain ⟨first, rest, hsegments⟩ := List.exists_cons_of_ne_nil (segments_ne_nil schema.key.path)
    have hmember := h.get?_apply first old
    rw [Document.get?, hsegments] at hold ⊢
    -- The first segment decides which of the two documents the key path leads into.
    cases hfirst : Fields.get? first doc with
    | none =>
      rw [hfirst, Option.none_or] at hmember
      rw [getAt?_cons_congr rest hmember]
      exact hold
    | some value =>
      rw [hfirst, Option.some_or, ← hfirst] at hmember
      rw [getAt?_cons_congr rest hmember, ← hsegments]
      exact h.key first (by rw [hsegments]; rfl) (by rw [hfirst]; rfl)

lemma keyOf?_written (h : doc.SuitsKey schema key) {old? : Option Document}
    (hold : ∀ old ∈ old?, old.Ordered ∧ schema.keyOf? old = some key) :
    schema.keyOf? ((Update.assignDocument doc).written (.byKey schema key) old?) = some key := by
  cases old? with
  | none => exact h.keepsKey.seedling.2
  | some old => exact h.keepsKey.keeps old (hold old rfl).1 (hold old rfl).2

end Document.SuitsKey

lemma Collection.Sound.countP_key_le {docs : Collection} (h : Sound schema.name docs)
    (hschema : schema ∈ Schema.all) (key : String) :
    docs.countP (fun doc => schema.keyOf? doc == some key) ≤ 1 := by
  have hcount := List.nodup_iff_count_le_one.mp (h.keys schema (Schema.for?_name hschema)) key
  rw [List.count, List.countP_filterMap] at hcount
  refine le_trans (List.countP_mono_left fun doc _ hdoc => ?_) hcount
  rw [beq_iff_eq.mp hdoc]
  simp

lemma Sql.Table.Sound.countP_primary_le {table : Table} (h : Sound schema table) (key : String) :
    table.rows.countP (fun row => row.primary == some key) ≤ 1 := by
  have hcount := List.nodup_iff_count_le_one.mp h.primaries (some key)
  rwa [List.count, List.countP_map] at hcount

lemma Sql.Table.Sound.exists_writes_of_selectFirst {table : Table} (h : Sound schema table)
    (hschema : schema ∈ Schema.all) {key : String} {found : Option (String × Document)}
    (hfound : table.selectFirst schema (.byKey schema key) = .ok found) :
    ∀ row ∈ table.rows, row.primary = some key →
      ∃ doc, Writes schema row doc ∧ doc.nesting ≤ Value.nestingLimit := by
  intro row hrow hkey
  obtain ⟨doc, hdoc⟩ := h.rows row hrow
  rw [h.selectFirst_byKey hschema, h.find?_primary hrow hkey] at hfound
  cases hdecode : table.decode schema row with
  | error error => simp [hdecode, Except.map] at hfound
  | ok entry => exact ⟨doc, hdoc, hdoc.nesting_le_of_decode hschema h.columns hdecode⟩

namespace Backend

def countKey (schema : Schema) (key : String) : Backend → Nat
  | .snapshot kept =>
    (kept.collections.docs schema.name).countP fun doc => schema.keyOf? doc == some key
  | .relational db => (db.image.tableOf schema).rows.countP fun row => row.primary == some key

/-- After a write by key that may make a document, one entry has the key, and those of other keys
are as they were. -/
lemma KeyedView.updateOne {α : Type} (view : KeyedView schema α) {write : KeyedWrite}
    (hkeeps : write.KeepsKey schema) (hfresh : (view.edit write).fresh?.isSome = true)
    {held next : Held} {entries : List α} (hshows : view.Shows held entries)
    (hlegible : ∀ entry ∈ entries, view.keyOf entry = some write.key → view.Legible entry)
    (hunique : entries.countP (fun entry => view.keyOf entry == some write.key) ≤ 1)
    {result : UpdateResult}
    (hwrite : Backend.updateOne schema.name (.byKey schema write.key) write.update write.upsert
      held = ⟨.ok result, next⟩) :
    ∃ later, view.Shows next later ∧
      later.countP (fun entry => view.keyOf entry == some write.key) = 1 ∧
      later.filter (KeyedWrite.spares [write] view.keyOf) =
        entries.filter (KeyedWrite.spares [write] view.keyOf) := by
  obtain ⟨after, hafter, hlater⟩ := view.step write hkeeps held entries hshows hlegible
    (by rw [hwrite]; simp)
  obtain ⟨-, rfl⟩ := Outcome.mk.inj (hafter.symm.trans hwrite)
  have hvalid := view.valid held entries hshows
  have hedit := view.keepsKey write hkeeps
  have hkey := view.key_edit write
  refine ⟨_, hlater, ?_, Edit.filter_apply hedit hvalid fun entry hentry => ?_⟩
  · have honce := Edit.countP_apply hedit hvalid hfresh (by rwa [hkey])
    rwa [hkey] at honce
  · rw [hkey] at hentry
    simp [KeyedWrite.spares, hentry]

variable {filter : Filter} {update : Update}

lemma findOne_written_snapshot {kept : Snapshot} {files : FileTree} {name : String}
    {result : UpdateResult} {next : Held}
    (hwrite : updateOne name filter update true (.snapshot kept, files) = ⟨.ok result, next⟩)
    (haccepts : filter.accepts (update.written filter (kept.findOne name filter)) = true) :
    next.1.findOne name filter =
      .ok (some (update.written filter (kept.findOne name filter))) := by
  obtain ⟨after, left, hupdate, rfl⟩ := exists_of_ofSnapshot hwrite
  obtain ⟨-, rfl⟩ := Snapshot.eq_of_commit (Snapshot.commit_of_updateOne hupdate).2
  simp only [findOne, Snapshot.findOne, Snapshot.find, Collections.modify,
    Collections.docs_insert_self]
  exact congrArg Except.ok (Collection.head?_filter_updateOne haccepts name)

lemma findOne_written_relational {db : Relational} {files : FileTree} (h : db.image.Sound)
    {name : String} (hfilter : filter.Ordered) (hupdate : update.Ordered)
    (hlists : ∀ schema, Schema.for? name = some schema → ¬filter.ListsKeys schema)
    {result : UpdateResult} {next : Held}
    (hwrite : updateOne name filter update true (.relational db, files) = ⟨.ok result, next⟩) :
    ∃ found, db.findOne name filter = .ok found ∧
      (∀ old ∈ found, old.Ordered ∧ filter.accepts old = true) ∧
      (filter.accepts (update.written filter found) = true →
        (next.1.findOne name filter = .ok (some (update.written filter found)) ↔
          (update.written filter found).Readable)) := by
  obtain ⟨-, schema, hschema, rfl, found, image, hfound, hstore, rfl⟩ :=
    exists_of_updateOne_relational hwrite
  have hunlisted := hlists schema (Schema.for?_name hschema)
  have hmatch := Image.accepts_of_selectFirst h hschema hunlisted hfound
  refine ⟨found.map (·.2), Relational.findOne_of_selectFirst db hschema hfound, hmatch,
    fun haccepts => ?_⟩
  have hordered := hupdate.written hfilter fun old hold => (hmatch old hold).1
  obtain ⟨before, behind, key, hstored, -⟩ :=
    Image.storedAt_of_store h hschema hunlisted hfound hordered hstore
  constructor
  · intro hshown
    obtain ⟨last, hselect, hlast⟩ := Relational.exists_of_findOne { db with image } hschema hshown
    obtain ⟨⟨other, _⟩, rfl, rfl⟩ := Option.map_eq_some_iff.mp hlast
    exact hstored.readable_of_selectFirst hschema hunlisted hordered hselect
  · intro hread
    have hselect := hstored.selectFirst_eq hschema hunlisted hordered hread haccepts
    exact Relational.findOne_of_selectFirst { db with image } hschema hselect

/-! ## Assigning by key -/

lemma findOne_after_assignment_snapshot {kept : Snapshot} {files : FileTree}
    (h : kept.collections.Sound) (hschema : schema ∈ Schema.all) {key : String} {doc : Document}
    (hdoc : doc.SuitsKey schema key) {result : UpdateResult} {next : Held}
    (hwrite : updateOne schema.name (.byKey schema key) (.assignDocument doc) true
      (.snapshot kept, files) = ⟨.ok result, next⟩) :
    next.1.findOne schema.name (.byKey schema key) =
        .ok (some ((Update.assignDocument doc).written (.byKey schema key)
          (kept.findOne schema.name (.byKey schema key)))) ∧
      next.1.countKey schema key = 1 ∧
      Spares schema [.assigning key doc] (.snapshot kept) next.1 := by
  have hdocs := h.docs schema.name
  have hold : ∀ old ∈ kept.findOne schema.name (.byKey schema key),
      old.Ordered ∧ schema.keyOf? old = some key := by
    intro old hfound
    obtain ⟨hmem, haccepts⟩ := List.mem_filter.mp (List.mem_of_mem_head? hfound)
    exact ⟨hdocs.documents old hmem, (Filter.accepts_byKey_iff schema key old).mp haccepts⟩
  have haccepts := (Filter.accepts_byKey_iff schema key _).mpr (hdoc.keyOf?_written hold)
  let view := documentView hschema kept.collections
  have hshows : view.Shows (.snapshot kept, files) (kept.collections.docs schema.name) :=
    ⟨kept, rfl, h, rfl, fun _ _ => rfl⟩
  obtain ⟨later, ⟨last, hlast, -, rfl, hothers⟩, honce, hspared⟩ :=
    view.updateOne hdoc.keepsKey rfl hshows (fun _ _ _ => trivial)
      (hdocs.countP_key_le hschema key) hwrite
  refine ⟨findOne_written_snapshot hwrite haccepts, ?_, ?_⟩
  · rw [hlast]
    exact honce
  · rw [hlast]
    exact ⟨hspared, hothers⟩

lemma findOne_after_assignment_relational {db : Relational} {files : FileTree}
    (h : db.image.Sound) (hschema : schema ∈ Schema.all) {key : String} {doc : Document}
    (hdoc : doc.SuitsKey schema key) {result : UpdateResult} {next : Held}
    (hwrite : updateOne schema.name (.byKey schema key) (.assignDocument doc) true
      (.relational db, files) = ⟨.ok result, next⟩) :
    ∃ old?, db.findOne schema.name (.byKey schema key) = .ok old? ∧
      (next.1.findOne schema.name (.byKey schema key) =
          .ok (some ((Update.assignDocument doc).written (.byKey schema key) old?)) ↔
        Document.Readable ((Update.assignDocument doc).written (.byKey schema key) old?)) ∧
      next.1.countKey schema key = 1 ∧
      Spares schema [.assigning key doc] (.relational db) next.1 := by
  have htable := h.tableOf hschema
  have hlists : ∀ other, Schema.for? schema.name = some other →
      ¬(Filter.byKey schema key).ListsKeys other := by
    simp [Filter.ListsKeys, Filter.byKey, Filter.push, Filter.empty]
  obtain ⟨old?, hfound, hold, hread⟩ := findOne_written_relational h
    (Filter.ordered_byKey schema key) hdoc.ordered_assignDocument hlists hwrite
  have haccepts := (Filter.accepts_byKey_iff schema key _).mpr
    (hdoc.keyOf?_written fun old hmem =>
      ⟨(hold old hmem).1, (Filter.accepts_byKey_iff schema key old).mp (hold old hmem).2⟩)
  obtain ⟨-, other, hother, hname, found, -, hselect, -, -⟩ :=
    exists_of_updateOne_relational hwrite
  obtain rfl := Schema.eq_of_name_eq hschema hother hname
  let view := rowView hschema db.image
  have hshows : view.Shows (.relational db, files) (db.image.tableOf schema).rows :=
    ⟨db, rfl, Image.editedTo_self h schema⟩
  obtain ⟨later, ⟨last, hlast, hedited⟩, honce, hspared⟩ :=
    view.updateOne hdoc.keepsKey rfl hshows (htable.exists_writes_of_selectFirst hschema hselect)
      (htable.countP_primary_le key) hwrite
  obtain rfl := hedited.rows
  refine ⟨old?, hfound, hread haccepts, ?_, ?_⟩
  · rw [hlast]
    exact honce
  · rw [hlast]
    exact ⟨hspared, hedited.others⟩

/-- After a whole document was assigned to the document of a key, which is made when there is none,
the key leads to a document that has the members of the assigned one, and the other members of the
one that was there. It is the only one with the key, and the documents of other keys or without one
stay as they are. What a database finds is the document as it is read back, which is the same one
exactly when its doubles are read back and it is not nested too deep. -/
theorem findOne_after_assignment {config : Config} {held : Held} (hreached : Reachable config held)
    (hschema : schema ∈ Schema.all) {key : String} {doc : Document}
    (hdoc : doc.SuitsKey schema key) {result : UpdateResult} {next : Held}
    (hwrite : updateOne schema.name (.byKey schema key) (.assignDocument doc) true held =
      ⟨.ok result, next⟩) :
    ∃ old?, held.1.findOne schema.name (.byKey schema key) = .ok old? ∧
      let written := (Update.assignDocument doc).written (.byKey schema key) old?
      (next.1.findOne schema.name (.byKey schema key) = .ok (some written) ↔
        (config.backend = .sqlite → written.Readable)) ∧
      (∀ name value, Fields.get? name doc = some value →
        Fields.get? name written = some value) ∧
      (∀ old ∈ old?, ∀ name, Fields.get? name doc = none →
        Fields.get? name written = Fields.get? name old) ∧
      next.1.countKey schema key = 1 ∧
      Spares schema [.assigning key doc] held.1 next.1 := by
  have hmembers : ∀ (old? : Option Document) (name : String) (value : Value),
      Fields.get? name doc = some value →
      Fields.get? name ((Update.assignDocument doc).written (.byKey schema key) old?) =
        some value := by
    intro old? name value hvalue
    cases old? <;> exact (hdoc.get?_apply name _).trans (by rw [hvalue, Option.some_or])
  have hothers : ∀ (old? : Option Document), ∀ old ∈ old?, ∀ name, Fields.get? name doc = none →
      Fields.get? name ((Update.assignDocument doc).written (.byKey schema key) old?) =
        Fields.get? name old := by
    rintro - old rfl name hnone
    exact (hdoc.get?_apply name old).trans (by rw [hnone, Option.none_or])
  obtain ⟨backend, files⟩ := held
  cases hconfig : config.backend with
  | snapshot =>
    obtain ⟨kept, rfl, hsound⟩ := soundSnapshot_of_reachable hconfig hreached
    obtain ⟨hfound, honce, hspares⟩ :=
      findOne_after_assignment_snapshot hsound.collections hschema hdoc hwrite
    exact ⟨_, rfl, iff_of_true hfound nofun, hmembers _, hothers _, honce, hspares⟩
  | sqlite =>
    obtain ⟨db, rfl, hsound⟩ := soundDatabase_of_reachable hconfig hreached
    obtain ⟨old?, hold, hfound, honce, hspares⟩ :=
      findOne_after_assignment_relational hsound.image hschema hdoc hwrite
    exact ⟨old?, hold, by simpa using hfound, hmembers _, hothers _, honce, hspares⟩

/-- A plugin that is there, and is assigned a table and a number. -/
theorem findOne_after_assignment_of_plugin :
    let config : Config := { Config.default with backend := .sqlite }
    let held := (carryOut "plugins" (.updateOne (.byKey .plugins "a") ⟨[.assign "n" (.int 0)]⟩ true)
      (restore config (.empty "/w"))).state
    let doc : Document :=
      [("package", .object [("name", .string "a"), ("version", .string "1")]), ("size", .int 2)]
    Reachable config held ∧ doc.SuitsKey .plugins "a" ∧ ∃ next found,
      updateOne "plugins" (.byKey .plugins "a") (.assignDocument doc) true held =
        ⟨.ok .matched, next⟩ ∧
      next.1.findOne "plugins" (.byKey .plugins "a") = .ok (some found) ∧
      Fields.get? "size" found = some (.int 2) ∧ next.1.countKey .plugins "a" = 1 := by
  intro config held doc
  have hreached : Reachable config held := by
    refine (reachable_restore_empty config "/w").request "plugins"
      ⟨Filter.ordered_byKey .plugins "a", ?_⟩
    simp [Update.Ordered, UpdateOp.Ordered, Value.Ordered]
  have hordered : doc.Ordered := by
    simp only [doc, Document.Ordered, Value.Ordered, Value.OrderedFields, Fields.Ascending]
    decide
  have hdoc : doc.SuitsKey .plugins "a" :=
    ⟨hordered, by decide +kernel,
      fun _ _ _ => (Schema.keyOf?_eq_some_iff .plugins doc "a").mp (by decide +kernel)⟩
  have hwrite : updateOne "plugins" (.byKey .plugins "a") (.assignDocument doc) true held =
      ⟨.ok .matched,
        (updateOne "plugins" (.byKey .plugins "a") (.assignDocument doc) true held).state⟩ :=
    Outcome.eq_of_answer_eq (by decide +kernel)
  obtain ⟨before, hbefore, hreads⟩ : ∃ old?, held.1.findOne "plugins" (.byKey .plugins "a") =
      .ok old? ∧ decide (Document.Readable
        ((Update.assignDocument doc).written (.byKey .plugins "a") old?)) = true :=
    exists_ok_of_any (by decide +kernel)
  obtain ⟨old?, hold, hfound, hmembers, -, honce, -⟩ :=
    findOne_after_assignment hreached (by decide) hdoc hwrite
  obtain rfl := Except.ok.inj (hbefore.symm.trans hold)
  exact ⟨hreached, hdoc, _, _, hwrite, hfound.mpr fun _ => of_decide_eq_true hreads,
    hmembers "size" (.int 2) rfl, honce⟩

/-- A finite double that is read back as another one: the document that is found by the key has
another number in place of the one that was assigned. -/
theorem findOne_after_assignment_fails :
    let config : Config := { Config.default with backend := .sqlite }
    let held := restore config (.empty "/w")
    let doc : Document := [("n", .float .tenthSum)]
    let written := (Update.assignDocument doc).create (.byKey .systemSettings "s")
    Reachable config held ∧ doc.SuitsKey .systemSettings "s" ∧
      written.nesting ≤ Value.nestingLimit ∧
      (∀ x ∈ (Value.object written).floats, x.isFinite = true) ∧ ∃ next found,
        updateOne "system_settings" (.byKey .systemSettings "s") (.assignDocument doc) true held =
          ⟨.ok .created, next⟩ ∧
        next.1.findOne "system_settings" (.byKey .systemSettings "s") = .ok (some found) ∧
        Fields.get? "n" found ≠ Fields.get? "n" doc := by
  intro config held doc written
  have hordered : doc.Ordered := by
    simp [doc, Document.Ordered, Value.Ordered, Value.OrderedFields, Fields.Ascending]
  have hbeside : ∀ first ∈ (segments Schema.systemSettings.key.path).head?,
      (Fields.get? first doc).isSome = false := by
    decide +kernel
  have hdoc : doc.SuitsKey .systemSettings "s" :=
    ⟨hordered, by decide +kernel, fun first hfirst hsome =>
      absurd hsome (Bool.eq_false_iff.mp (hbeside first hfirst))⟩
  have hwrite : updateOne "system_settings" (.byKey .systemSettings "s") (.assignDocument doc) true
      held = ⟨.ok .created, (updateOne "system_settings" (.byKey .systemSettings "s")
        (.assignDocument doc) true held).state⟩ :=
    Outcome.eq_of_answer_eq (by decide +kernel)
  -- The number that is found does not equal the one that was assigned.
  let agrees (found : Document) : Bool :=
    (Fields.get? "n" found).any fun value => (Fields.get? "n" doc).any (·.eqv value)
  obtain ⟨found?, hfound, hother⟩ : ∃ found?,
      (updateOne "system_settings" (.byKey .systemSettings "s") (.assignDocument doc) true
        held).state.1.findOne "system_settings" (.byKey .systemSettings "s") = .ok found? ∧
      found?.any (fun found => !agrees found) = true :=
    exists_ok_of_any (by decide +kernel)
  obtain ⟨found, rfl, hdiffers⟩ := Option.any_eq_true _ _ |>.mp hother
  have hfloats : (Value.object written).floats = [.tenthSum] := by decide +kernel
  refine ⟨reachable_restore_empty config "/w", hdoc, by decide +kernel,
    by simp [hfloats, Binary64.tenthSum_finite_not_readsBack.1], _, found, hwrite, hfound,
    fun hsame => ?_⟩
  have hagrees : agrees found = agrees doc := by
    simp only [agrees, hsame]
  rw [hagrees] at hdiffers
  exact absurd hdiffers (by decide +kernel)

end Backend

end DocStore
