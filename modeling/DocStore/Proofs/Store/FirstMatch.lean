import DocStore.Proofs.Store.Insertions
import DocStore.Proofs.Store.VisitOrder

/-!
# The first match on both backends

Where the same documents were inserted in the same order into a collection and into its table, a
snapshot finds the first match of a filter, and a database what is shown first in the order of its
visits. The writes through the filter go to what is found. It is the same document in both, and one
with the same key, exactly when the filter `PicksFirst` (`first_match_agrees`).
-/

namespace DocStore

open Sql (Image Prefilter Table)

variable {schema : Schema} {docs : List Document} {filter : Filter}

namespace Collection

lemma updateOne_fst_eq_matched_iff (name : String) (filter : Filter) (update : Update)
    (upsert : Bool) (docs : Collection) :
    (updateOne name filter update upsert docs).1 = .matched ↔
      (docs.filter filter.accepts).head?.isSome = true := by
  rw [Table.head?_filter_eq, updateOne, updateFirst?]
  cases splitFirst filter.accepts docs with
  | some parts => simp
  | none => cases upsert <;> simp

lemma findOneAndUpdate_fst (name : String) (filter : Filter) (update : Update)
    (docs : Collection) :
    (findOneAndUpdate name filter update docs).1 =
      (docs.filter filter.accepts).head?.elim (update.create filter) update.apply := by
  rw [Table.head?_filter_eq, findOneAndUpdate, updateFirst?]
  cases splitFirst filter.accepts docs <;> rfl

end Collection

namespace Sql.Image

variable {image after : Image} {found : Option (String × Document)}

lemma eq_matched_iff_of_selectFirst (hschema : schema ∈ Schema.all)
    (hfound : (image.tableOf schema).selectFirst schema filter = .ok found) {update : Update}
    {upsert : Bool} {result : UpdateResult}
    (h : image.updateOne schema.name filter update upsert = .ok (result, after)) :
    result = .matched ↔ found.isSome = true := by
  obtain ⟨-, -, h⟩ := bind_eq_ok_iff.mp h
  rw [Keeps.writable_name hschema, Keeps.ok_bind, hfound, Keeps.ok_bind] at h
  cases found with
  | some entry =>
    obtain ⟨stored, -, heq⟩ := bind_eq_ok_iff.mp h
    cases heq
    simp
  | none =>
    dsimp only at h
    split at h
    · obtain ⟨stored, -, heq⟩ := bind_eq_ok_iff.mp h
      cases heq
      simp
    · cases h
      simp

lemma eq_elim_of_selectFirst (hschema : schema ∈ Schema.all)
    (hfound : (image.tableOf schema).selectFirst schema filter = .ok found) {update : Update}
    {doc : Document}
    (h : image.findOneAndUpdate schema.name filter update = .ok (doc, after)) :
    doc = found.elim (update.create filter) fun entry => update.apply entry.2 := by
  rw [findOneAndUpdate, Keeps.writable_name hschema, Keeps.ok_bind, hfound, Keeps.ok_bind] at h
  cases found with
  | some entry =>
    obtain ⟨stored, -, heq⟩ := bind_eq_ok_iff.mp h
    cases heq
    rfl
  | none =>
    obtain ⟨stored, -, heq⟩ := bind_eq_ok_iff.mp h
    cases heq
    rfl

end Sql.Image

namespace Backend

/-- The writes through a filter go to a document that it finds, as they would when it is asked for
by its key; what they answer is the update of this document. When none is found, they match none,
and a document may be made. -/
structure WritesTo (schema : Schema) (filter : Filter) (held : Held) (found : Option Document) :
    Prop where
  byKey : ∀ doc ∈ found, ∃ key, schema.keyOf? doc = some key ∧
    (∀ update upsert, updateOne schema.name filter update upsert held =
      updateOne schema.name (.byKey schema key) update upsert held) ∧
    ∀ update, findOneAndUpdate schema.name filter update held =
      findOneAndUpdate schema.name (.byKey schema key) update held
  matched : ∀ update upsert result,
    (updateOne schema.name filter update upsert held).answer = .ok result →
      (result = .matched ↔ found.isSome = true)
  answer : ∀ update doc, (findOneAndUpdate schema.name filter update held).answer = .ok doc →
    doc = found.elim (update.create filter) update.apply

lemma writesTo_snapshot {kept : Snapshot} (files : FileTree) (hschema : schema ∈ Schema.all)
    (hdocs : Collection.Sound schema.name (kept.collections.docs schema.name))
    (hkeyed : ∀ doc ∈ kept.collections.docs schema.name, ∃ key, schema.keyOf? doc = some key)
    (filter : Filter) :
    WritesTo schema filter (.snapshot kept, files)
      ((kept.collections.docs schema.name).filter filter.accepts).head? where
  byKey := by
    intro doc hfirst
    obtain ⟨key, hkey⟩ := hkeyed doc (List.mem_of_mem_filter (List.mem_of_mem_head? hfirst))
    refine ⟨key, hkey, fun update upsert => ?_, fun update => ?_⟩
    · simp only [updateOne, Snapshot.updateOne, Collections.modify,
        Collection.updateOne_eq_byKey hdocs hschema hfirst hkey]
    · simp only [findOneAndUpdate, Snapshot.findOneAndUpdate, Collections.modify,
        Collection.findOneAndUpdate_eq_byKey hdocs hschema hfirst hkey]
  matched := by
    intro update upsert result hanswer
    simp only [updateOne, ofSnapshot, Outcome.mapState, Snapshot.updateOne] at hanswer
    split at hanswer
    · cases hanswer
    · rw [← eq_of_answer_commit hanswer]
      exact Collection.updateOne_fst_eq_matched_iff schema.name filter update upsert _
  answer := by
    intro update doc hanswer
    simp only [findOneAndUpdate, ofSnapshot, Outcome.mapState, Snapshot.findOneAndUpdate]
      at hanswer
    rw [← eq_of_answer_commit hanswer]
    exact Collection.findOneAndUpdate_fst schema.name filter update _

lemma writesTo_relational {db : Relational} (files : FileTree) (hschema : schema ∈ Schema.all)
    (himage : db.image.Sound) {shown : Option Document}
    (hshown : (db.image.tableOf schema).selectFirst schema filter =
      .ok (shown.bind (Table.keyed? schema)))
    (hkeyed : ∀ doc ∈ shown, ∃ key, schema.keyOf? doc = some key) :
    WritesTo schema filter (.relational db, files) shown := by
  cases shown with
  | some old =>
    obtain ⟨key, hkey⟩ := hkeyed old rfl
    rw [Option.bind_some, Table.keyed?, hkey, Option.map_some] at hshown
    refine ⟨?_, fun update upsert result hanswer => ?_, fun update doc hanswer => ?_⟩
    · rintro doc ⟨⟩
      refine ⟨key, hkey, fun update upsert => ?_, fun update => ?_⟩
      · simp only [updateOne, Relational.updateOne,
          Image.updateOne_eq_byKey himage hschema hshown update upsert]
      · simp only [findOneAndUpdate, Relational.findOneAndUpdate,
          Image.findOneAndUpdate_eq_byKey himage hschema hshown update]
    · obtain ⟨after, hchange, -⟩ := Relational.exists_of_commit (Outcome.eq_of_answer_eq hanswer)
      exact Image.eq_matched_iff_of_selectFirst hschema hshown hchange
    · obtain ⟨after, hchange, -⟩ := Relational.exists_of_commit (Outcome.eq_of_answer_eq hanswer)
      exact Image.eq_elim_of_selectFirst hschema hshown hchange
  | none =>
    refine ⟨by simp, fun update upsert result hanswer => ?_, fun update doc hanswer => ?_⟩
    · obtain ⟨after, hchange, -⟩ := Relational.exists_of_commit (Outcome.eq_of_answer_eq hanswer)
      exact Image.eq_matched_iff_of_selectFirst hschema hshown hchange
    · obtain ⟨after, hchange, -⟩ := Relational.exists_of_commit (Outcome.eq_of_answer_eq hanswer)
      exact Image.eq_elim_of_selectFirst hschema hshown hchange

lemma findOne_of_selectFirst {db : Relational} (hschema : schema ∈ Schema.all)
    {shown : Option Document}
    (hshown : (db.image.tableOf schema).selectFirst schema filter =
      .ok (shown.bind (Table.keyed? schema)))
    (hkeyed : ∀ doc ∈ shown, ∃ key, schema.keyOf? doc = some key) :
    findOne (.relational db) schema.name filter = .ok shown := by
  have hfound := Relational.findOne_of_selectFirst db hschema hshown
  cases shown with
  | none => exact hfound
  | some doc =>
    obtain ⟨key, hkey⟩ := hkeyed doc rfl
    rw [Option.bind_some, Table.keyed?, hkey] at hfound
    exact hfound

/-! ## The same first match -/

lemma Inserted.snapshot_findOne {snapshotConfig databaseConfig : Config}
    (hsnapshot : snapshotConfig.backend = .snapshot) (hdatabase : databaseConfig.backend = .sqlite)
    (hschema : schema ∈ Schema.all) {a b : Held}
    (h : Inserted schema snapshotConfig databaseConfig docs a b) (filter : Filter) :
    a.1.findOne schema.name filter = .ok (docs.filter filter.accepts).head? ∧
      WritesTo schema filter a (docs.filter filter.accepts).head? := by
  obtain ⟨⟨kept, hkept, hdocs⟩, ⟨db, -, hwritten⟩, ha, -⟩ :=
    h.written hsnapshot hdatabase hschema
  obtain ⟨kept', hkept', hsoundKept⟩ := soundSnapshot_of_reachable hsnapshot ha
  obtain rfl : kept = kept' := Backend.snapshot.inj (hkept.symm.trans hkept')
  have hkeyed : ∀ doc ∈ docs, ∃ key, schema.keyOf? doc = some key :=
    fun doc hdoc => hwritten.exists_keyOf? hdoc
  obtain ⟨backend, files⟩ := a
  obtain rfl := hkept
  constructor
  · rw [← hdocs]
    rfl
  · rw [← hdocs] at hkeyed ⊢
    exact writesTo_snapshot files hschema (hsoundKept.collections.docs schema.name) hkeyed filter

lemma Inserted.relational_findOne {snapshotConfig databaseConfig : Config}
    (hsnapshot : snapshotConfig.backend = .snapshot) (hdatabase : databaseConfig.backend = .sqlite)
    (hschema : schema ∈ Schema.all) {a b : Held}
    (h : Inserted schema snapshotConfig databaseConfig docs a b)
    (hread : ∀ doc ∈ docs, doc.Readable) (hfits : (Prefilter.ofFilter schema filter).Fits) :
    ∃ shown, filter.ShowsFirst schema docs shown ∧ b.1.findOne schema.name filter = .ok shown ∧
      WritesTo schema filter b shown := by
  obtain ⟨-, ⟨db, hdb, hwritten⟩, -, hb⟩ := h.written hsnapshot hdatabase hschema
  obtain ⟨db', hdb', hsoundDb⟩ := soundDatabase_of_reachable hdatabase hb
  obtain rfl : db = db' := Backend.relational.inj (hdb.symm.trans hdb')
  obtain ⟨shown, hselect, hshown⟩ := hwritten.exists_selectFirst hschema hread hfits
  have hshownKeyed : ∀ doc ∈ shown, ∃ key, schema.keyOf? doc = some key :=
    fun doc hdoc => hwritten.exists_keyOf? (List.mem_of_mem_filter (hshown.matching doc hdoc))
  obtain ⟨other, files⟩ := b
  obtain rfl := hdb
  exact ⟨shown, hshown, findOne_of_selectFirst hschema hselect hshownKeyed,
    writesTo_relational files hschema hsoundDb.image hselect hshownKeyed⟩

lemma exists_refused_of_not_fits (hschema : schema ∈ Schema.all) (db : Relational)
    (files : FileTree) (hfits : ¬(Prefilter.ofFilter schema filter).Fits) :
    ∃ fault, (Backend.relational db).findOne schema.name filter = .error (.selectRefused fault) ∧
      (∀ update upsert, update.hasIncrement = false →
        updateOne schema.name filter update upsert (.relational db, files) =
          ⟨.error (.selectRefused fault), (.relational db, files)⟩) ∧
      ∀ update, findOneAndUpdate schema.name filter update (.relational db, files) =
        ⟨.error (.selectRefused fault), (.relational db, files)⟩ := by
  obtain ⟨excess, herror⟩ := Table.exists_selectFirst_eq_error (db.image.tableOf schema) hfits
  refine ⟨.excess (Sql.Statement.select schema (.ofFilter schema filter)).text excess, ?_,
    fun update upsert hallowed => ?_, fun update => ?_⟩
  · rw [Backend.findOne, Relational.findOne, Schema.for?_name hschema]
    dsimp only
    rw [herror, Except.map]
  · simp only [updateOne, ofRelational, Outcome.mapState, Relational.updateOne, Image.updateOne,
      update.requireAssignments_eq_ok_iff.mpr hallowed, Image.Keeps.writable_name hschema,
      Image.Keeps.ok_bind, herror]
    rfl
  · simp only [findOneAndUpdate, ofRelational, Outcome.mapState, Relational.findOneAndUpdate,
      Image.findOneAndUpdate, Image.Keeps.writable_name hschema, Image.Keeps.ok_bind, herror]
    rfl

/-- Where the same documents were inserted in the same order into a collection and into its table: a
snapshot finds the first match of a filter, and the writes through the filter go to it. A database,
within the limits of a statement and when the documents are read back from their texts as they are,
finds what is shown first in the order of its visits, and the writes go to that. It is the same
document, and one with the same key, exactly when the filter picks the first. Outside the limits a
database refuses to find it or to write. -/
theorem first_match_agrees {snapshotConfig databaseConfig : Config}
    (hsnapshot : snapshotConfig.backend = .snapshot) (hdatabase : databaseConfig.backend = .sqlite)
    (hschema : schema ∈ Schema.all) {a b : Held}
    (h : Inserted schema snapshotConfig databaseConfig docs a b)
    (hread : ∀ doc ∈ docs, doc.Readable) (filter : Filter) :
    ∃ first : Option Document, first = (docs.filter filter.accepts).head? ∧
      a.1.findOne schema.name filter = .ok first ∧ WritesTo schema filter a first ∧
      ((Prefilter.ofFilter schema filter).Fits →
        ∃ shown : Option Document, filter.ShowsFirst schema docs shown ∧
          b.1.findOne schema.name filter = .ok shown ∧ WritesTo schema filter b shown ∧
          (shown = first ↔ filter.PicksFirst schema docs) ∧
          (shown.bind schema.keyOf? = first.bind schema.keyOf? ↔
            filter.PicksFirst schema docs)) ∧
      (¬(Prefilter.ofFilter schema filter).Fits →
        ∃ fault, b.1.findOne schema.name filter = .error (.selectRefused fault) ∧
          (∀ update upsert, update.hasIncrement = false →
            updateOne schema.name filter update upsert b = ⟨.error (.selectRefused fault), b⟩) ∧
          ∀ update,
            findOneAndUpdate schema.name filter update b = ⟨.error (.selectRefused fault), b⟩) := by
  obtain ⟨-, ⟨db, hdb, hwritten⟩, -, -⟩ := h.written hsnapshot hdatabase hschema
  obtain ⟨hfirst, hwrites⟩ := h.snapshot_findOne hsnapshot hdatabase hschema filter
  refine ⟨_, rfl, hfirst, hwrites, fun hfits => ?_, fun hfits => ?_⟩
  · obtain ⟨shown, hshown, hfound, hother⟩ :=
      h.relational_findOne hsnapshot hdatabase hschema hread hfits
    have hpicks := hwritten.eq_head?_iff_picksFirst hshown
    refine ⟨shown, hshown, hfound, hother, hpicks, ?_⟩
    rw [← hpicks]
    exact hwritten.bind_keyOf?_eq_iff
      (fun doc hdoc => List.mem_of_mem_filter (hshown.matching doc hdoc))
      (fun doc hdoc => List.mem_of_mem_filter (List.mem_of_mem_head? hdoc))
  · have hb : b = (.relational db, b.2) := Prod.ext hdb rfl
    rw [hb]
    exact exists_refused_of_not_fits hschema db b.2 hfits

lemma inserted_settings :
    let sqlite : Config := { Config.default with backend := .sqlite }
    Inserted .systemSettings .default sqlite [[("_id", .string "b")], [("_id", .string "a")]]
      (upserted .systemSettings "a" (upserted .systemSettings "b"
        (restore .default (.empty "/w"))))
      (upserted .systemSettings "a" (upserted .systemSettings "b"
        (restore sqlite (.empty "/w")))) := by
  intro sqlite
  have hnone : Inserted .systemSettings .default sqlite [] (restore .default (.empty "/w"))
      (restore sqlite (.empty "/w")) :=
    .none (reachable_restore_empty _ _) (reachable_restore_empty _ _) (by decide +kernel)
      (by decide +kernel)
  have hfirst := hnone.upserted "b" (by simp) (by decide +kernel) (by decide +kernel)
  exact hfirst.upserted "a" (by decide +kernel) (by decide +kernel) (by decide +kernel)

/-- A filter that lists no keys picks the setting that was inserted first. -/
theorem first_match_of_settings :
    let sqlite : Config := { Config.default with backend := .sqlite }
    let filter : Filter := .push .empty "_id" (.present true)
    ∃ a b doc, Inserted .systemSettings .default sqlite
        [[("_id", .string "b")], [("_id", .string "a")]] a b ∧
      a.1.findOne "system_settings" filter = .ok (some doc) ∧
      b.1.findOne "system_settings" filter = .ok (some doc) ∧
      WritesTo .systemSettings filter a (some doc) ∧
      WritesTo .systemSettings filter b (some doc) ∧
      Schema.systemSettings.keyOf? doc = some "b" := by
  intro sqlite filter
  have hread : ∀ doc ∈ ([[("_id", .string "b")], [("_id", .string "a")]] : List Document),
      doc.Readable := by
    decide +kernel
  have hpicks : filter.PicksFirst .systemSettings
      [[("_id", .string "b")], [("_id", .string "a")]] := by
    refine .inl ?_
    simp [Filter.ListsKeys, filter, Filter.push, Filter.empty]
  obtain ⟨first, hfirst, ha, hwrites, hshows, -⟩ :=
    first_match_agrees rfl rfl (by decide) inserted_settings hread filter
  obtain ⟨shown, -, hb, hother, hsame, -⟩ := hshows ⟨by decide +kernel, by decide +kernel⟩
  obtain rfl := hsame.mpr hpicks
  have hhead : (([[("_id", .string "b")], [("_id", .string "a")]] : List Document).filter
      filter.accepts).head? = some [("_id", .string "b")] := by
    rw [List.filter_cons_of_pos (by decide +kernel), List.head?_cons]
  rw [hfirst, hhead] at ha hb hwrites hother
  exact ⟨_, _, _, inserted_settings, ha, hb, hwrites, hother, by decide +kernel⟩

/-- A list of keys picks the setting that was inserted first in a snapshot, and the one with the
least key in a database. The writes through it go to these. -/
theorem first_match_differs :
    let sqlite : Config := { Config.default with backend := .sqlite }
    let filter : Filter := .push .empty "_id" (.oneOf [.string "a", .string "b"])
    let update : Update := ⟨[.assign "n" (.int 1)]⟩
    let changes (held : Held) (key : String) : Bool :=
      (((updateOne "system_settings" filter update false held).state.1.findOne "system_settings"
        (.byKey .systemSettings key)).toOption.join.bind (·.get? "n")).isSome
    ∃ docs a b, Inserted .systemSettings .default sqlite docs a b ∧
      (∀ doc ∈ docs, doc.Readable) ∧
      b.1.findOne "system_settings" filter ≠ a.1.findOne "system_settings" filter ∧
      (changes a "a", changes a "b") = (false, true) ∧
      (changes b "a", changes b "b") = (true, false) ∧
      (findOneAndUpdate "system_settings" filter update a).answer.toOption.bind
        Schema.systemSettings.keyOf? = some "b" ∧
      (findOneAndUpdate "system_settings" filter update b).answer.toOption.bind
        Schema.systemSettings.keyOf? = some "a" := by
  intro sqlite filter update changes
  let b := upserted .systemSettings "a" (upserted .systemSettings "b"
    (restore sqlite (.empty "/w")))
  have hread : ∀ doc ∈ ([[("_id", .string "b")], [("_id", .string "a")]] : List Document),
      doc.Readable := by
    decide +kernel
  have hfits : (Prefilter.ofFilter .systemSettings filter).Fits :=
    ⟨by decide +kernel, by decide +kernel⟩
  obtain ⟨shown, hshown, hfound, hwrites⟩ :=
    inserted_settings.relational_findOne rfl rfl (by decide) hread hfits
  have hlists : filter.ListsKeys .systemSettings :=
    ⟨_, List.mem_singleton_self _, rfl, _, rfl⟩
  have hshownKey : shown.bind Schema.systemSettings.keyOf? = some "a" := by
    have hsome : shown.isSome = true := by
      rw [hshown.isSome_eq, List.filter_cons_of_pos (by decide +kernel)]
      rfl
    obtain ⟨doc, rfl⟩ := Option.isSome_iff_exists.mp hsome
    have hdoc := List.mem_of_mem_filter (hshown.matching doc rfl)
    simp only [List.mem_cons, List.not_mem_nil, or_false] at hdoc
    rcases hdoc with rfl | rfl
    · -- The other setting matches as well, and has the key before.
      have hleast := hshown.listed hlists _ rfl [("_id", .string "a")]
        (List.mem_filter.mpr ⟨by simp, by decide +kernel⟩) "b" "a" (by decide +kernel)
        (by decide +kernel)
      exact absurd hleast (by decide)
    · decide +kernel
  obtain ⟨doc, rfl, hdocKey⟩ := Option.bind_eq_some_iff.mp hshownKey
  obtain ⟨key, hkey, hwritten, hfind⟩ := hwrites.byKey doc rfl
  obtain rfl : key = "a" := Option.some.inj (hkey.symm.trans hdocKey)
  have hupdate : updateOne "system_settings" filter update false b =
      updateOne "system_settings" (.byKey .systemSettings "a") update false b :=
    hwritten update false
  have hupdated : findOneAndUpdate "system_settings" filter update b =
      findOneAndUpdate "system_settings" (.byKey .systemSettings "a") update b :=
    hfind update
  refine ⟨_, _, b, inserted_settings, hread, fun hsame => ?_, by decide +kernel, ?_,
    by decide +kernel, ?_⟩
  · have hfirst := congrArg (fun found => found.toOption.join.bind Schema.systemSettings.keyOf?)
      (hfound.symm.trans hsame)
    rw [Except.toOption, Option.join_some, Option.bind_some, hdocKey] at hfirst
    revert hfirst
    decide +kernel
  · simp only [changes, hupdate]
    decide +kernel
  · rw [hupdated]
    decide +kernel

end Backend

end DocStore
