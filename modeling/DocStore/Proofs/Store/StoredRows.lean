import DocStore.Proofs.Store.LegibleRows
import DocStore.Proofs.Store.VisitOrder

/-!
# Rows that were just stored

A write to the first match stores its document in the row of that match, or behind all rows
(`Image.storedAt_of_store`). Whatever the query of the filter passed over before, it passes over
again; so when the stored document reads back and matches, it is the next first match
(`Image.StoredAt.foundIn`).
-/

namespace DocStore

open Sql (Row Image Prefilter Table)

/-- The document that a write stores: the match once it is updated, or the one that is made. -/
def Update.written (update : Update) (filter : Filter) (found : Option Document) : Document :=
  found.elim (update.create filter) update.apply

lemma Update.Ordered.written {update : Update} {filter : Filter} (h : update.Ordered)
    (hfilter : filter.Ordered) {found : Option Document}
    (hfound : ∀ doc ∈ found, doc.Ordered) : (update.written filter found).Ordered := by
  cases found with
  | none => exact h.create hfilter
  | some old => exact h.apply (hfound old rfl)

namespace Sql.Table

variable {schema : Schema} {table : Table} {filter : Filter} {before after : List Row} {row : Row}
  {key : String} {doc : Document}

lemma FoundIn.store_eq (hfound : FoundIn schema filter table before row after key doc)
    (h : Sound schema table) (hschema : schema ∈ Schema.all) {new : Document} {newKey : String}
    (hnew : schema.keyOf? new = some newKey) :
    table.store schema (some key) new =
      .ok { table with rows := placeRow before (rowOf schema newKey new) after } := by
  have hrow : row ∈ table.rows := by
    rw [hfound.rows]
    simp
  have hprimary := h.primary_of_legible hschema hrow hfound.shown.legible hfound.key
  exact h.store_some hschema hnew hfound.rows hprimary

/-- What a row that is put between others collides with is gone, so a row of its key may take its
place. -/
lemma placeRow_filter {row other : Row} (h : other.primary = row.primary)
    (before after : List Row) :
    placeRow (before.filter (!row.collides ·)) other (after.filter (!row.collides ·)) =
      before.filter (!row.collides ·) ++ other :: after.filter (!row.collides ·) := by
  have hcollides : other.collides = row.collides := by
    funext third
    rw [Row.collides, Row.collides, h]
  simp [placeRow, hcollides, List.filter_filter]

end Sql.Table

namespace Sql.Image

variable {image next : Image} {schema : Schema} {filter : Filter} {update : Update}
  {before after : List Row} {key : String} {doc : Document}

/-- An image in which a document was stored between some rows of a table. The query of a filter is
within the limits and passes over the rows in front of it. -/
structure StoredAt (schema : Schema) (filter : Filter) (image next : Image) (before : List Row)
    (key : String) (doc : Document) (after : List Row) : Prop where
  sound : next.Sound
  fits : (Prefilter.ofFilter schema filter).Fits
  keyed : schema.keyOf? doc = some key
  skipped : ∀ row ∈ before, Table.Skips schema filter (image.tableOf schema) row
  table : next.tableOf schema =
    { image.tableOf schema with rows := Table.placeRow before (rowOf schema key doc) after }
  image : next = image.setTable (next.tableOf schema)

lemma accepts_of_selectFirst (h : image.Sound) (hschema : schema ∈ Schema.all)
    (hlists : ¬filter.ListsKeys schema) {found : Option (String × Document)}
    (hfound : (image.tableOf schema).selectFirst schema filter = .ok found) :
    ∀ old ∈ found.map (·.2), old.Ordered ∧ filter.accepts old = true := by
  intro old hold
  have htable := h.tableOf hschema
  have hrank := Table.ranksByPrimary_eq_false_of_not_listsKeys hschema htable.columns hlists
  obtain ⟨⟨key, _⟩, rfl, rfl⟩ := Option.map_eq_some_iff.mp hold
  obtain ⟨before, row, after, hfirst⟩ := htable.foundIn_of_selectFirst hschema hrank hfound
  exact ⟨Table.ordered_of_selectFirst hfound, hfirst.document ▸ hfirst.shown.accepted⟩

/-- Where a write stores its document, given what its query found. -/
theorem storedAt_of_store (h : image.Sound) (hschema : schema ∈ Schema.all)
    (hlists : ¬filter.ListsKeys schema) {found : Option (String × Document)}
    (hfound : (image.tableOf schema).selectFirst schema filter = .ok found) (hdoc : doc.Ordered)
    (hstore : image.store schema (found.map (·.1)) doc = .ok next) :
    ∃ before after key, StoredAt schema filter image next before key doc after ∧
      (found = none → before = (image.tableOf schema).rows ∧ after = []) := by
  have htable := h.tableOf hschema
  have hrank := Table.ranksByPrimary_eq_false_of_not_listsKeys hschema htable.columns hlists
  have hstored := tableOf_store h hschema hdoc hstore
  have hkeyed : ∃ key, schema.keyOf? doc = some key := by
    cases hkey : schema.keyOf? doc with
    | some key => exact ⟨key, rfl⟩
    | none =>
      rw [Table.store_of_keyOf?_eq_none hkey] at hstored
      cases hstored
  obtain ⟨key, hkey⟩ := hkeyed
  have hsound := h.store hschema hdoc hstore
  have hfits := Table.fits_of_selectFirst_eq_ok hfound
  have himage : next = image.setTable (next.tableOf schema) := by
    rw [Image.store, hstored] at hstore
    exact (Except.ok.inj hstore).symm
  cases found with
  | none =>
    have hrows := htable.store_none hschema hkey
    rw [Option.map_none, hrows] at hstored
    refine ⟨(image.tableOf schema).rows, [], key, ⟨hsound, hfits, hkey, ?_, ?_, himage⟩,
      fun _ => ⟨rfl, rfl⟩⟩
    · exact htable.skips_of_selectFirst hschema hrank hfound
    · exact (Except.ok.inj hstored).symm
  | some entry =>
    obtain ⟨before, row, after, hfirst⟩ := htable.foundIn_of_selectFirst hschema hrank hfound
    rw [Option.map_some, hfirst.store_eq htable hschema hkey] at hstored
    exact ⟨before, after, key,
      ⟨hsound, hfits, hkey, hfirst.skipped, (Except.ok.inj hstored).symm, himage⟩,
      fun hnone => by cases hnone⟩

/-- A stored document that reads back and matches is the next first match. -/
theorem StoredAt.foundIn (h : StoredAt schema filter image next before key doc after)
    (hschema : schema ∈ Schema.all) (hdoc : doc.Ordered) (hread : doc.Readable)
    (haccepts : filter.accepts doc = true) :
    Table.FoundIn schema filter (next.tableOf schema)
      (before.filter (!(rowOf schema key doc).collides ·)) (rowOf schema key doc)
      (after.filter (!(rowOf schema key doc).collides ·)) key doc where
  fits := h.fits
  rows := by
    rw [h.table]
    rfl
  skipped := by
    intro row hrow
    refine (h.skipped row (List.mem_of_mem_filter hrow)).congr ?_
    rw [h.table]
  shown := Table.shown_rowOf hschema (h.sound.tableOf hschema).columns hdoc hread haccepts h.keyed
  key := by rw [Table.document_rowOf_of_readable hdoc hread, h.keyed]
  document := Table.document_rowOf_of_readable hdoc hread key

lemma StoredAt.selectFirst_eq (h : StoredAt schema filter image next before key doc after)
    (hschema : schema ∈ Schema.all) (hlists : ¬filter.ListsKeys schema) (hdoc : doc.Ordered)
    (hread : doc.Readable) (haccepts : filter.accepts doc = true) :
    (next.tableOf schema).selectFirst schema filter = .ok (some (key, doc)) := by
  have hcolumns := (h.sound.tableOf hschema).columns
  exact (h.foundIn hschema hdoc hread haccepts).selectFirst_eq hcolumns
    (Table.ranksByPrimary_eq_false_of_not_listsKeys hschema hcolumns hlists)

lemma StoredAt.readable_of_selectFirst
    (h : StoredAt schema filter image next before key doc after) (hschema : schema ∈ Schema.all)
    (hlists : ¬filter.ListsKeys schema) (hdoc : doc.Ordered) {other : String}
    (hfound : (next.tableOf schema).selectFirst schema filter = .ok (some (other, doc))) :
    doc.Readable := by
  have htable := h.sound.tableOf hschema
  have hrank := Table.ranksByPrimary_eq_false_of_not_listsKeys hschema htable.columns hlists
  obtain ⟨front, row, behind, hfirst⟩ := htable.foundIn_of_selectFirst hschema hrank hfound
  have hrow : row ∈ (next.tableOf schema).rows := by
    rw [hfirst.rows]
    simp
  have hstored : rowOf schema key doc ∈ (next.tableOf schema).rows := by
    rw [h.table]
    simp [Table.placeRow]
  have hlegible := hfirst.shown.legible
  have hkey : schema.keyOf? row.document = some key := by rw [hfirst.document, h.keyed]
  have hprimary := htable.primary_of_legible hschema hrow hlegible hkey
  -- No other row has the key, so this is the row that was stored.
  obtain rfl : row = rowOf schema key doc :=
    List.inj_on_of_nodup_map htable.primaries hrow hstored hprimary
  have hwrites : Table.Writes schema (rowOf schema key doc) doc := ⟨hdoc, key, h.keyed, rfl⟩
  have htext := hlegible.text
  rw [hwrites.cell_data hschema htable.columns, Option.bind_some, hfirst.document] at htext
  exact (Document.ofText?_text_eq_self_iff hdoc .compact).mp htext

theorem StoredAt.store_again (h : StoredAt schema filter image next before key doc after)
    (hschema : schema ∈ Schema.all) (hdoc : doc.Ordered) (hread : doc.Readable)
    (haccepts : filter.accepts doc = true) : next.store schema (some key) doc = .ok next := by
  have hfound := h.foundIn hschema hdoc hread haccepts
  have hself : next.setTable (next.tableOf schema) = next :=
    calc next.setTable (next.tableOf schema)
        = (image.setTable (next.tableOf schema)).setTable (next.tableOf schema) :=
          congrArg (fun before : Image => before.setTable (next.tableOf schema)) h.image
      _ = image.setTable (next.tableOf schema) := setTable_setTable rfl image
      _ = next := h.image.symm
  rw [Image.store, hfound.store_eq (h.sound.tableOf hschema) hschema h.keyed,
    Table.placeRow_filter rfl, ← hfound.rows, Except.map]
  exact congrArg Except.ok hself

lemma exists_eq_of_writable {name : String} (h : writable name = .ok schema) :
    schema ∈ Schema.all ∧ name = schema.name := by
  have hschema := (Schema.for?_eq_some_iff name schema).mp ?_
  · exact ⟨hschema.1, hschema.2.symm⟩
  · unfold writable at h
    split at h
    · rename_i hfound
      cases h
      exact hfound
    · cases h

lemma exists_of_updateOne {name : String} {result : UpdateResult}
    (h : image.updateOne name filter update true = .ok (result, next)) :
    update.hasIncrement = false ∧ ∃ schema ∈ Schema.all, name = schema.name ∧ ∃ found,
      (image.tableOf schema).selectFirst schema filter = .ok found ∧
      image.store schema (found.map (·.1)) (update.written filter (found.map (·.2))) =
        .ok next := by
  obtain ⟨⟨⟩, hallowed, h⟩ := bind_eq_ok_iff.mp h
  obtain ⟨schema, hwritable, h⟩ := bind_eq_ok_iff.mp h
  obtain ⟨hschema, hname⟩ := exists_eq_of_writable hwritable
  obtain ⟨found, hfound, h⟩ := bind_eq_ok_iff.mp h
  refine ⟨update.requireAssignments_eq_ok_iff.mp hallowed, schema, hschema, hname, found, hfound,
    ?_⟩
  cases found with
  | none =>
    obtain ⟨stored, hstore, heq⟩ := bind_eq_ok_iff.mp h
    cases heq
    exact hstore
  | some entry =>
    obtain ⟨stored, hstore, heq⟩ := bind_eq_ok_iff.mp h
    cases heq
    exact hstore

lemma exists_of_findOneAndUpdate {name : String}
    (h : image.findOneAndUpdate name filter update = .ok (doc, next)) :
    ∃ schema ∈ Schema.all, name = schema.name ∧ ∃ found,
      (image.tableOf schema).selectFirst schema filter = .ok found ∧
      doc = update.written filter (found.map (·.2)) ∧
      image.store schema (found.map (·.1)) doc = .ok next := by
  obtain ⟨schema, hwritable, h⟩ := bind_eq_ok_iff.mp h
  obtain ⟨hschema, hname⟩ := exists_eq_of_writable hwritable
  obtain ⟨found, hfound, h⟩ := bind_eq_ok_iff.mp h
  refine ⟨schema, hschema, hname, found, hfound, ?_⟩
  cases found with
  | none =>
    obtain ⟨stored, hstore, heq⟩ := bind_eq_ok_iff.mp h
    cases heq
    exact ⟨rfl, hstore⟩
  | some entry =>
    obtain ⟨stored, hstore, heq⟩ := bind_eq_ok_iff.mp h
    cases heq
    exact ⟨rfl, hstore⟩

end Sql.Image

end DocStore
