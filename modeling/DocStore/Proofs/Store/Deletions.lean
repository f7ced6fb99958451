import DocStore.Proofs.Store.LegibleRows
import DocStore.Proofs.Store.Parity

/-!
# Removing the matches from a table

A table removes the matches of a filter by the prefilter alone where that is exact, else by the keys
of the matches that it finds. Either way the rows whose documents match are gone and the others stay
where they are (`Sound.deleteMatches_eq`); so in every reachable state a database counts and removes
exactly the matches, unless the statement is outside the limits (`deleteMany_exact`).
-/

namespace DocStore

open Sql (Row Image Table Prefilter Statement)

namespace Sql.Table

variable {schema : Schema} {table : Table} {docs : List Document}

/-- The table without the rows whose documents match. -/
def without (filter : Filter) (table : Table) : Table :=
  { table with rows := table.rows.filter fun row => !filter.accepts row.document }

lemma length_without (filter : Filter) (table : Table) :
    table.rows.length =
      (table.without filter).rows.length + (table.rows.map Row.document).countP filter.accepts := by
  have hlength := List.length_eq_countP_add_countP (l := table.rows)
    fun row => filter.accepts row.document
  rw [Nat.add_comm] at hlength
  simpa [without, List.countP_map, Function.comp_def, ← List.countP_eq_length_filter] using hlength

lemma deleteWhere_eq_without {filter : Filter} {drops : Row → Bool}
    (h : ∀ row ∈ table.rows, drops row = filter.accepts row.document) :
    table.deleteWhere drops =
      (table.without filter, (table.rows.map Row.document).countP filter.accepts) := by
  have hrows : table.rows.filter (!drops ·) = (table.without filter).rows :=
    List.filter_congr fun row hrow => by rw [h row hrow]
  have hlength := length_without filter table
  rw [deleteWhere, hrows, hlength, Nat.add_sub_cancel_left]
  rfl

lemma Sound.eq_of_keyOf?_eq (h : Sound schema table) (hschema : schema ∈ Schema.all)
    (hlegible : ∀ row ∈ table.rows, Legible schema table row) :
    ∀ doc ∈ table.rows.map Row.document, ∀ other ∈ table.rows.map Row.document,
      schema.keyOf? doc = schema.keyOf? other → doc = other := by
  intro doc hdoc other hother hsame
  obtain ⟨row, hrow, rfl⟩ := List.mem_map.mp hdoc
  obtain ⟨another, hanother, rfl⟩ := List.mem_map.mp hother
  obtain ⟨key, hkey⟩ := Option.isSome_iff_exists.mp (hlegible row hrow).keyed
  have hprimary := h.primary_of_legible hschema hrow (hlegible row hrow) hkey
  have hprimary' := h.primary_of_legible hschema hanother (hlegible another hanother)
    (hsame.symm.trans hkey)
  rw [List.inj_on_of_nodup_map h.primaries hrow hanother (hprimary.trans hprimary'.symm)]

/-- Whether the prefilter decides alone or the keys of the matches do, a table that can be read
counts its matches and is left without their rows. -/
theorem Sound.deleteMatches_eq (h : Sound schema table) (hschema : schema ∈ Schema.all)
    (hread : contents schema table = .ok docs) {filter : Filter}
    (hfits : (Prefilter.ofFilter schema filter).Fits) :
    table.deleteMatches schema filter =
      .ok (docs.countP filter.accepts, table.without filter) := by
  obtain ⟨rfl, hholds⟩ := h.holds hschema hread
  have hlegible := (holds_document_iff h.columns).mp hholds
  unfold Table.deleteMatches
  dsimp only
  split
  · rename_i hexact
    rw [fault?_delete_eq_none hholds.columns hfits]
    dsimp only
    rw [deleteWhere_eq_without fun row hrow => ?_]
    exact Prefilter.accepts_eq_of_exact (hlegible row hrow).toMirrors hexact
  · rw [hholds.select_eq_found hfits, Except.map, deleteKeys_eq]
    rw [deleteWhere_eq_without fun row hrow => ?_]
    exact hholds.any_key_eq (h.eq_of_keyOf?_eq hschema hlegible) filter
      (List.mem_map_of_mem hrow) (hlegible row hrow).toMirrors

lemma exists_deleteMatches_eq_error (table : Table) {filter : Filter}
    (h : ¬(Prefilter.ofFilter schema filter).Fits) :
    ∃ fault, table.deleteMatches schema filter = .error (.deleteRefused fault) ∨
      table.deleteMatches schema filter = .error (.selectRefused fault) := by
  unfold Table.deleteMatches
  dsimp only
  split
  · obtain ⟨excess, hfault⟩ :=
      exists_fault?_of_not_fits table h (Statement.delete schema (.ofFilter schema filter)) rfl
    exact ⟨_, .inl (by rw [hfault])⟩
  · obtain ⟨excess, hselect⟩ := exists_select_eq_error table h
    exact ⟨_, .inr (by rw [hselect, Except.map])⟩

lemma Holds.without (hcolumns : table.columns = schema.columnList)
    (h : Holds schema table (table.rows.map Row.document)) (filter : Filter) :
    Holds schema (table.without filter)
      ((table.rows.map Row.document).filter (!filter.accepts ·)) := by
  have hlegible := (holds_document_iff hcolumns).mp h
  rw [List.filter_map]
  have hleft : ∀ row ∈ (table.without filter).rows, Legible schema (table.without filter) row :=
    fun row hrow => (hlegible row (List.mem_of_mem_filter hrow)).congr rfl
  have hsame : (table.without filter).columns = schema.columnList := hcolumns
  exact (holds_document_iff hsame).mpr hleft

end Sql.Table

namespace Backend

variable {schema : Schema} {docs : List Document} {filter : Filter}

/-- What the removal of all matches of a filter makes of a database whose documents are `docs`. -/
structure RemovesMatches (schema : Schema) (filter : Filter) (docs : List Document)
    (db after : Relational) : Prop where
  rows : (after.image.tableOf schema).rows =
    (db.image.tableOf schema).rows.filter fun row => !filter.accepts row.document
  others : ∀ other ∈ Schema.all, other ≠ schema → after.image.tableOf other = db.image.tableOf other
  found : ∃ matching, (Backend.relational db).find schema.name filter = .ok matching ∧
    matching.Perm (docs.filter filter.accepts)
  gone : (Backend.relational after).find schema.name filter = .ok []
  contents : (Backend.relational after).contents schema = .ok (docs.filter (!filter.accepts ·))
  count : (Backend.relational db).count schema.name =
    (Backend.relational after).count schema.name + docs.countP filter.accepts

lemma exists_deleteMany_eq_error (hschema : schema ∈ Schema.all) (db : Relational)
    (files : FileTree) (h : ¬(Prefilter.ofFilter schema filter).Fits) :
    ∃ fault, deleteMany schema.name filter (.relational db, files) =
        ⟨.error (.deleteRefused fault), (.relational db, files)⟩ ∨
      deleteMany schema.name filter (.relational db, files) =
        ⟨.error (.selectRefused fault), (.relational db, files)⟩ := by
  obtain ⟨fault, herror⟩ := Table.exists_deleteMatches_eq_error (db.image.tableOf schema) h
  refine ⟨fault, ?_⟩
  simp only [Backend.deleteMany, ofRelational, Outcome.mapState, Relational.deleteMany,
    Image.deleteMany, Image.Keeps.writable_name hschema, Image.Keeps.ok_bind]
  rcases herror with herror | herror
  · exact .inl (by rw [herror]; rfl)
  · exact .inr (by rw [herror]; rfl)

/-- In every reachable state of a database, where each row of a table can be read: the removal of
the matches of a filter counts the documents that match, and exactly their rows are gone. Outside
the limits of a statement it is refused, and nothing changes. -/
theorem deleteMany_exact {config : Config} (hconfig : config.backend = .sqlite) {held : Held}
    (hreached : Reachable config held) (hschema : schema ∈ Schema.all)
    (hread : held.1.contents schema = .ok docs) (filter : Filter) :
    ∃ db, held.1 = .relational db ∧ docs = (db.image.tableOf schema).rows.map Row.document ∧
      ((Prefilter.ofFilter schema filter).Fits →
        ∃ after, deleteMany schema.name filter held =
            ⟨.ok (docs.countP filter.accepts), (.relational after, held.2)⟩ ∧
          RemovesMatches schema filter docs db after) ∧
      (¬(Prefilter.ofFilter schema filter).Fits →
        ∃ fault, deleteMany schema.name filter held = ⟨.error (.deleteRefused fault), held⟩ ∨
          deleteMany schema.name filter held = ⟨.error (.selectRefused fault), held⟩) := by
  obtain ⟨db, hdb, hsound⟩ := soundDatabase_of_reachable hconfig hreached
  obtain ⟨backend, files⟩ := held
  obtain rfl := hdb
  have htable := hsound.image.tableOf hschema
  have hcontents : Table.contents schema (db.image.tableOf schema) = .ok docs := hread
  obtain ⟨rfl, hholds⟩ := htable.holds hschema hcontents
  let table := (db.image.tableOf schema).without filter
  have hself : (db.image.setTable table).tableOf schema = table :=
    Image.tableOf_setTable_self hsound.image hschema htable.name
  have hleft : Table.Holds schema ((db.image.setTable table).tableOf schema)
      (((db.image.tableOf schema).rows.map Row.document).filter (!filter.accepts ·)) := by
    rw [hself]
    exact hholds.without htable.columns filter
  refine ⟨db, rfl, rfl, fun hfits => ⟨{ db with image := db.image.setTable table }, ?_, ?_⟩,
    fun hfits => ?_⟩
  · simp only [Backend.deleteMany, ofRelational, Outcome.mapState, Relational.deleteMany,
      Image.deleteMany, Image.Keeps.writable_name hschema, Image.Keeps.ok_bind,
      htable.deleteMatches_eq hschema hcontents hfits]
    rfl
  · have hedited : Image.EditedTo schema db.image table.rows (db.image.setTable table) :=
      Image.editedTo_setTable hsound.image hschema (htable.sublist List.filter_sublist)
    refine ⟨?_, hedited.others, find_of_holds hschema hholds hfits, ?_, ?_, ?_⟩
    · rw [hedited.rows]
      rfl
    · let after : Relational := { db with image := db.image.setTable table }
      obtain ⟨matching, hfind, hperm⟩ : ∃ matching,
          (Backend.relational after).find schema.name filter = .ok matching ∧ _ :=
        find_of_holds hschema hleft hfits
      have hnone : (((db.image.tableOf schema).rows.map Row.document).filter
          (!filter.accepts ·)).filter filter.accepts = [] := by
        simp [List.filter_filter]
      rw [hnone, List.perm_nil] at hperm
      rw [hfind, hperm]
    · exact hleft.contents_eq
    · simp only [count, Relational.count, Schema.for?_name hschema, hself]
      exact Table.length_without filter (db.image.tableOf schema)
  · exact exists_deleteMany_eq_error hschema db files hfits

/-- Of two settings one has a member that the filter asks for, which no column holds. -/
theorem deleteMany_exact_of_settings :
    let config : Config := { Config.default with backend := .sqlite }
    let writes : List KeyedWrite :=
      [⟨"b", ⟨[.assign "n" (.int 1)]⟩, true⟩, ⟨"a", ⟨[.assign "m" (.int 1)]⟩, true⟩]
    let held := (carryOut "system_settings"
      (.bulkWrite (KeyedWrite.models .systemSettings writes)) (restore config (.empty "/w"))).state
    let filter : Filter := .push .empty "n" (.present true)
    (Prefilter.ofFilter .systemSettings filter).exact = false ∧
    ∃ docs db after, Reachable config held ∧ held.1.contents .systemSettings = .ok docs ∧
      held.1 = .relational db ∧
      deleteMany "system_settings" filter held = ⟨.ok 1, (.relational after, held.2)⟩ ∧
      RemovesMatches .systemSettings filter docs db after := by
  intro config writes held filter
  have hreached : Reachable config held := by
    refine (reachable_restore_empty config "/w").request "system_settings" ?_
    intro model hmodel
    obtain ⟨write, hwrite, rfl⟩ := List.mem_map.mp hmodel
    refine ⟨Filter.ordered_byKey .systemSettings write.key, ?_⟩
    simp only [writes, List.mem_cons, List.not_mem_nil, or_false] at hwrite
    rcases hwrite with rfl | rfl <;>
      simp [KeyedWrite.model, Update.Ordered, UpdateOp.Ordered, Value.Ordered]
  obtain ⟨docs, hdocs, -⟩ : ∃ docs, held.1.contents .systemSettings = .ok docs ∧ _ :=
    exists_ok_of_any (p := fun docs => docs.length == 2) (by decide +kernel)
  obtain ⟨db, hdb, -, hdeletes, -⟩ := deleteMany_exact rfl hreached (by decide) hdocs filter
  obtain ⟨after, hdelete, hremoves⟩ := hdeletes ⟨by decide +kernel, by decide +kernel⟩
  have hone : (deleteMany "system_settings" filter held).answer.toOption = some 1 := by
    decide +kernel
  have hcount : docs.countP filter.accepts = 1 := by
    have hanswer := congrArg (·.answer.toOption) hdelete
    exact Option.some.inj (hanswer.symm.trans hone)
  rw [hcount] at hdelete
  exact ⟨by decide +kernel, docs, db, after, hreached, hdocs, hdb, hdelete, hremoves⟩

/-- A thousand conditions on the key, all of which hold of the one setting. -/
theorem deleteMany_refuses_match :
    let config : Config := { Config.default with backend := .sqlite }
    let held := (carryOut "system_settings" (.findOneAndUpdate (.byKey .systemSettings "s") .empty)
      (restore config (.empty "/w"))).state
    let filter : Filter := ⟨List.replicate 1000 ⟨"_id", .equals (.string "s")⟩⟩
    ∃ doc, Reachable config held ∧ held.1.contents .systemSettings = .ok [doc] ∧
      filter.accepts doc = true ∧ (deleteMany "system_settings" filter held).answer ≠ .ok 1 := by
  intro config held filter
  have hreached : Reachable config held :=
    (reachable_restore_empty config "/w").request "system_settings"
      ⟨Filter.ordered_byKey .systemSettings "s", by simp [Update.Ordered, Update.empty]⟩
  obtain ⟨docs, hdocs, hone⟩ : ∃ docs, held.1.contents .systemSettings = .ok docs ∧ _ :=
    exists_ok_of_any (p := fun docs => docs.length == 1 && docs.all filter.accepts)
      (by decide +kernel)
  simp only [Bool.and_eq_true, beq_iff_eq, List.all_eq_true] at hone
  obtain ⟨doc, rfl⟩ := List.length_eq_one_iff.mp hone.1
  have hfits : ¬(Prefilter.ofFilter .systemSettings filter).Fits := fun h =>
    Nat.lt_irrefl 1000 ((Prefilter.fits_replicate_iff .systemSettings "s" 1000).mp h)
  refine ⟨doc, hreached, hdocs, hone.2 doc (by simp), fun hanswer => ?_⟩
  obtain ⟨db, hdb, -⟩ := soundDatabase_of_reachable rfl hreached
  obtain ⟨fault, herror⟩ := exists_deleteMany_eq_error (by decide) db held.2 hfits
  have hheld : held = (.relational db, held.2) := Prod.ext hdb rfl
  rw [hheld] at hanswer
  rcases herror with herror | herror <;>
  · have hrefused := congrArg (·.answer) herror
    cases hrefused.symm.trans hanswer

end Backend

end DocStore
