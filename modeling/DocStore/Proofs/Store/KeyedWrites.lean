import DocStore.Proofs.Codec
import DocStore.Proofs.KeyedEdits
import DocStore.Proofs.Paths
import DocStore.Proofs.Store.ByKey
import DocStore.Proofs.Store.SnapshotRun

/-!
# Writes that are meant for a key

A `KeyedWrite` is an entry of a batch that is meant for the document of a key. In a collection it is
an edit of the document with the key (`Collection.updateOne_eq_edit`), in a table an edit of its row
(`Image.updateOne_eq_edit`), as long as it keeps the key.
-/

namespace DocStore

open Sql (Row Image Table)

/-- The document that the text of a row denotes. -/
def Sql.Row.document (row : Row) : Document :=
  (row.getLast?.join.bind Document.ofText?).getD []

/-- An entry of a batch that is meant for the document of a key. -/
structure KeyedWrite where
  key : String
  update : Update
  upsert : Bool

variable {schema : Schema}

namespace KeyedWrite

def model (schema : Schema) (write : KeyedWrite) : WriteModel :=
  ⟨.byKey schema write.key, write.update, write.upsert⟩

/-- The document that is made when there is none with the key. -/
def seedling (schema : Schema) (write : KeyedWrite) : Document :=
  write.update.create (.byKey schema write.key)

/-- An update that assigns only, and gives a document with the key when it is applied to one. -/
structure KeepsKey (schema : Schema) (write : KeyedWrite) : Prop where
  ordered : write.update.Ordered
  assigns : write.update.hasIncrement = false
  keeps : ∀ doc : Document, doc.Ordered → schema.keyOf? doc = some write.key →
    schema.keyOf? (write.update.apply doc) = some write.key

def models (schema : Schema) (writes : List KeyedWrite) : List WriteModel :=
  writes.map (·.model schema)

/-- Writes for pairwise distinct keys, which they keep. -/
structure Apart (schema : Schema) (writes : List KeyedWrite) : Prop where
  keys : (writes.map (·.key)).Nodup
  keeps : ∀ write ∈ writes, write.KeepsKey schema

lemma Apart.perm {writes others : List KeyedWrite} (h : Apart schema writes)
    (hperm : others.Perm writes) : Apart schema others where
  keys := (hperm.map _).nodup_iff.mpr h.keys
  keeps := fun write hwrite => h.keeps write (hperm.mem_iff.mp hwrite)

/-- Whether an entry has none of the keys of some writes. -/
def spares {α : Type} (writes : List KeyedWrite) (keyOf : α → Option String) (entry : α) : Bool :=
  writes.all fun write => keyOf entry != some write.key

def documentEdit (schema : Schema) (write : KeyedWrite) : Edit Document :=
  ⟨write.key, write.update.apply, if write.upsert then some (write.seedling schema) else none⟩

def rowEdit (schema : Schema) (write : KeyedWrite) : Edit Row :=
  ⟨write.key, fun row => Sql.rowOf schema write.key (write.update.apply (Row.document row)),
    if write.upsert then some (Sql.rowOf schema write.key (write.seedling schema)) else none⟩

variable {write : KeyedWrite}

lemma KeepsKey.seedling (h : write.KeepsKey schema) :
    (write.seedling schema).Ordered ∧ schema.keyOf? (write.seedling schema) = some write.key := by
  have hordered := (Filter.ordered_byKey schema write.key).seed
  exact ⟨h.ordered.create (Filter.ordered_byKey schema write.key),
    h.keeps _ hordered (Filter.keyOf?_seed_byKey schema write.key)⟩

lemma KeepsKey.documentEdit (h : write.KeepsKey schema) :
    (write.documentEdit schema).KeepsKey schema.keyOf? Document.Ordered where
  change := fun doc hdoc hkey => ⟨h.ordered.apply hdoc, h.keeps doc hdoc hkey⟩
  fresh := by
    intro doc hdoc
    obtain ⟨-, rfl⟩ : write.upsert = true ∧ write.seedling schema = doc := by
      simpa [KeyedWrite.documentEdit] using hdoc
    exact h.seedling

lemma keepsKey_of_assign {path : String}
    (hpath : Document.Incomparable (Document.segments path)
      (Document.segments schema.key.path))
    {value : Value} (hvalue : value.Ordered) (key : String) (upsert : Bool) :
    KeepsKey schema ⟨key, ⟨[.assign path value]⟩, upsert⟩ where
  ordered := by simpa [Update.Ordered, UpdateOp.Ordered] using hvalue
  assigns := rfl
  keeps := by
    intro doc _ hkey
    have hbeside : Document.get? (doc.set path value) schema.key.path =
        doc.get? schema.key.path :=
      Document.get?_set_of_incomparable hpath value doc
    rwa [Schema.keyOf?, ← hbeside] at hkey

lemma keepsKey_rowEdit (schema : Schema) (write : KeyedWrite) :
    (write.rowEdit schema).KeepsKey Row.primary (fun _ => True) where
  change := fun _ _ _ => ⟨trivial, rfl⟩
  fresh := by
    intro row hrow
    obtain ⟨-, rfl⟩ : write.upsert = true ∧
        Sql.rowOf schema write.key (write.seedling schema) = row := by
      simpa [rowEdit] using hrow
    exact ⟨trivial, rfl⟩

end KeyedWrite

namespace Collection

variable {docs : Collection} {write : KeyedWrite}

/-- A write by key is the edit of the document with the key. -/
theorem updateOne_eq_edit (h : Sound schema.name docs) (hschema : schema ∈ Schema.all)
    (hkeeps : write.KeepsKey schema) :
    updateOne schema.name (.byKey schema write.key) write.update write.upsert docs =
      ((write.documentEdit schema).result schema.keyOf? docs,
        (write.documentEdit schema).apply schema.keyOf? docs) := by
  have hname := Schema.for?_name hschema
  by_cases hsome : ∃ doc ∈ docs, schema.keyOf? doc = some write.key
  · obtain ⟨old, hold, hkey⟩ := hsome
    obtain ⟨front, back, rfl⟩ := List.append_of_mem hold
    have hothers := h.keyOf?_ne hschema hkey
    obtain ⟨hresult, hafter⟩ := (write.documentEdit schema).apply_append_cons hkey hothers
    have hchanged := hkeeps.keeps old (h.documents old hold) hkey
    rw [updateOne, updateFirst?, splitFirst_byKey h hschema hkey, Option.map_some, hresult, hafter]
    dsimp only
    rw [place_of_forall_ne hname hchanged hothers]
    rfl
  · have hnone : ∀ doc ∈ docs, schema.keyOf? doc ≠ some write.key :=
      fun doc hdoc hkey => hsome ⟨doc, hdoc, hkey⟩
    obtain ⟨hresult, hafter⟩ := (write.documentEdit schema).apply_of_forall_ne hnone
    have hsplit : splitFirst (Filter.byKey schema write.key).accepts docs = none := by
      refine splitFirst_eq_none_iff.mpr fun doc hdoc => ?_
      rw [Bool.eq_false_iff, ne_eq, Filter.accepts_byKey_iff]
      exact hnone doc hdoc
    have hpush : push schema.name (write.seedling schema) docs =
        docs ++ [write.seedling schema] :=
      place_of_forall_ne hname hkeeps.seedling.2 (by simpa using hnone)
    rw [updateOne, updateFirst?, hsplit, Option.map_none, hresult, hafter]
    cases hupsert : write.upsert with
    | true => simpa [KeyedWrite.documentEdit, KeyedWrite.seedling, hupsert] using hpush
    | false => simp [KeyedWrite.documentEdit, hupsert]

end Collection

namespace Sql.Table

variable {table : Table} {write : KeyedWrite}

lemma document_rowOf (schema : Schema) (key : String) (doc : Document) :
    Row.document (rowOf schema key doc) =
      (Document.ofText? (doc.text .compact)).getD [] := by
  rw [Row.document, rowOf, List.getLast?_concat]
  rfl

lemma Writes.decode_eq_document (hschema : schema ∈ Schema.all)
    (hcolumns : table.columns = schema.columnList) {row : Row} {doc : Document}
    (h : Writes schema row doc) (hnesting : doc.nesting ≤ Value.nestingLimit) {key : String}
    (hkey : row.primary = some key) :
    table.decode schema row = .ok (key, Row.document row) ∧ (Row.document row).Ordered ∧
      schema.keyOf? (Row.document row) = some key := by
  have hdocKey : schema.keyOf? doc = some key := (primary_of_writes h).symm.trans hkey
  have hcell := (h.cell_key hschema hcolumns).trans hdocKey
  have hdata := h.cell_data hschema hcolumns
  obtain ⟨later, hlater⟩ := Option.isSome_iff_exists.mp
    ((Document.isSome_ofText?_text_iff h.1 .compact).mpr hnesting)
  have hdocument : Row.document row = later := by
    obtain ⟨-, -, -, rfl⟩ := h
    rw [document_rowOf, hlater, Option.getD_some]
  have hreread : doc.reread? = some later := by
    rw [Document.ofText?_text doc h.1, if_pos hnesting] at hlater
    exact hlater
  rw [hdocument]
  refine ⟨by simp [decode, hcell, hdata, hlater], Document.ordered_of_ofText? hlater, ?_⟩
  rw [Document.keyOf?_of_reread? schema hreread, hdocKey]

lemma exists_decode_of_readAll {keeps : Document → Bool} {rows : List Row}
    {entries : List (String × Document)} (h : table.readAll schema keeps rows = .ok entries)
    {row : Row} (hrow : row ∈ rows) : ∃ entry, table.decode schema row = .ok entry := by
  induction rows generalizing entries with
  | nil => simp at hrow
  | cons first rest ih =>
    rw [readAll] at h
    cases hdecode : table.decode schema first with
    | error error =>
      rw [hdecode] at h
      cases h
    | ok entry =>
      rcases List.mem_cons.mp hrow with rfl | hrest
      · exact ⟨entry, hdecode⟩
      · rw [hdecode] at h
        dsimp only at h
        split at h
        · cases hmore : table.readAll schema keeps rest with
          | error error =>
            rw [hmore] at h
            cases h
          | ok more => exact ih hmore hrest
        · exact ih h hrest

lemma Writes.nesting_le_of_decode (hschema : schema ∈ Schema.all)
    (hcolumns : table.columns = schema.columnList) {row : Row} {doc : Document}
    (h : Writes schema row doc) {entry : String × Document}
    (hdecode : table.decode schema row = .ok entry) : doc.nesting ≤ Value.nestingLimit := by
  obtain ⟨key, htext⟩ := h.decode_eq hschema hcolumns
  refine (Document.isSome_ofText?_text_iff h.1 .compact).mp ?_
  cases hlater : Document.ofText? (doc.text .compact) with
  | some later => rfl
  | none =>
    rw [hdecode, hlater] at htext
    cases htext

lemma exists_decode_of_contents {found : List Document} (hread : contents schema table = .ok found)
    {row : Row} (hrow : row ∈ table.rows) : ∃ entry, table.decode schema row = .ok entry := by
  rw [contents] at hread
  cases hentries : table.readAll schema (fun _ => true) table.rows with
  | error error =>
    rw [hentries] at hread
    cases hread
  | ok entries => exact exists_decode_of_readAll hentries hrow

lemma Writes.nesting_le (hschema : schema ∈ Schema.all)
    (hcolumns : table.columns = schema.columnList) {found : List Document}
    (hread : contents schema table = .ok found) {row : Row} (hrow : row ∈ table.rows)
    {doc : Document} (h : Writes schema row doc) : doc.nesting ≤ Value.nestingLimit := by
  obtain ⟨entry, hdecode⟩ := exists_decode_of_contents hread hrow
  exact h.nesting_le_of_decode hschema hcolumns hdecode

lemma Sound.primary_ne (h : Sound schema table) {front back : List Row} {row : Row}
    (hrows : table.rows = front ++ row :: back) {key : String} (hkey : row.primary = some key) :
    ∀ other ∈ front ++ back, other.primary ≠ some key := by
  have hnodup := h.primaries
  rw [hrows, List.map_append, List.map_cons, List.nodup_middle, List.nodup_cons, hkey,
    ← List.map_append] at hnodup
  exact fun other ho hsame => hnodup.1 (List.mem_map.mpr ⟨other, ho, hsame⟩)

lemma placeRow_of_forall_ne {front back : List Row} {row : Row} {key : String}
    (hkey : row.primary = some key) (h : ∀ other ∈ front ++ back, other.primary ≠ some key) :
    placeRow front row back = front ++ row :: back := by
  have hapart : ∀ other ∈ front ++ back, (!row.collides other) = true := by
    intro other ho
    have hne : row.primary ≠ other.primary := by
      rw [hkey]
      exact (h other ho).symm
    simp [Row.collides, hne]
  obtain ⟨hfront, hback⟩ := List.forall_mem_append.mp hapart
  rw [placeRow, List.filter_eq_self.mpr hfront, List.filter_eq_self.mpr hback]

end Sql.Table

namespace Sql.Image

variable {image : Image} {write : KeyedWrite}

/-- An image after an edit of the rows of one table. -/
structure EditedTo (schema : Schema) (image : Image) (rows : List Row) (after : Image) : Prop where
  sound : after.Sound
  rows : (after.tableOf schema).rows = rows
  others : ∀ other ∈ Schema.all, other ≠ schema → after.tableOf other = image.tableOf other

lemma editedTo_self (h : image.Sound) (schema : Schema) :
    EditedTo schema image (image.tableOf schema).rows image :=
  ⟨h, rfl, fun _ _ _ => rfl⟩

lemma tableOf_setTable_of_schema_ne (image : Image) (hschema : schema ∈ Schema.all)
    {table : Table} (htable : table.name = schema.table) :
    ∀ other ∈ Schema.all, other ≠ schema →
      (image.setTable table).tableOf other = image.tableOf other := by
  intro other hother hne
  refine tableOf_setTable_of_ne image ?_
  rw [htable, Bool.eq_false_iff]
  exact fun hsame => hne (eq_of_sameName_table schema hschema other hother hsame).symm

lemma editedTo_setTable (h : image.Sound) (hschema : schema ∈ Schema.all) {table : Table}
    (htable : Table.Sound schema table) :
    EditedTo schema image table.rows (image.setTable table) where
  sound := h.setTable hschema htable
  rows := by rw [tableOf_setTable_self h hschema htable.name]
  others := tableOf_setTable_of_schema_ne image hschema htable.name

theorem updateOne_eq_edit (h : image.Sound) (hschema : schema ∈ Schema.all)
    (hkeeps : write.KeepsKey schema)
    (hread : ∀ row ∈ (image.tableOf schema).rows, row.primary = some write.key →
      ∃ doc, Table.Writes schema row doc ∧ doc.nesting ≤ Value.nestingLimit) :
    ∃ after, image.updateOne schema.name (.byKey schema write.key) write.update write.upsert =
        .ok ((write.rowEdit schema).result Row.primary (image.tableOf schema).rows, after) ∧
      EditedTo schema image
        ((write.rowEdit schema).apply Row.primary (image.tableOf schema).rows) after := by
  have htable := h.tableOf hschema
  have hallowed := write.update.requireAssignments_eq_ok_iff.mpr hkeeps.assigns
  simp only [Image.updateOne, hallowed, Keeps.writable_name hschema, Keeps.ok_bind,
    htable.selectFirst_byKey hschema, Keeps.bind_pure_pair]
  by_cases hsome : ∃ row ∈ (image.tableOf schema).rows, row.primary = some write.key
  · obtain ⟨row, hrow, hkey⟩ := hsome
    obtain ⟨doc, hwrites, hnesting⟩ := hread row hrow hkey
    obtain ⟨hdecode, hordered, hdocument⟩ :=
      hwrites.decode_eq_document hschema htable.columns hnesting hkey
    obtain ⟨front, back, hrows⟩ := List.append_of_mem hrow
    have hothers := htable.primary_ne hrows hkey
    obtain ⟨hresult, hafter⟩ := (write.rowEdit schema).apply_append_cons hkey hothers
    have hchanged := hkeeps.keeps _ hordered hdocument
    have hstore := htable.store_some hschema hchanged hrows hkey
    rw [Table.placeRow_of_forall_ne rfl hothers] at hstore
    have hsound := htable.store hschema (hkeeps.ordered.apply hordered) hstore
    rw [htable.find?_primary hrow hkey]
    simp only [hdecode, Except.map, Keeps.ok_bind, Image.store, hstore]
    rw [hrows, hresult, hafter]
    exact ⟨_, rfl, editedTo_setTable h hschema hsound⟩
  · have hnone : ∀ row ∈ (image.tableOf schema).rows, row.primary ≠ some write.key :=
      fun row hrow hkey => hsome ⟨row, hrow, hkey⟩
    obtain ⟨hresult, hafter⟩ := (write.rowEdit schema).apply_of_forall_ne hnone
    have hfind : (image.tableOf schema).rows.find? (·.primary == some write.key) = none := by
      refine List.find?_eq_none.mpr fun row hrow => ?_
      rw [beq_iff_eq]
      exact hnone row hrow
    obtain ⟨hordered, hkey⟩ := hkeeps.seedling
    have hstore := htable.store_none hschema hkey
    rw [Table.placeRow_of_forall_ne rfl (by simpa using hnone)] at hstore
    have hsound := htable.store hschema hordered hstore
    rw [hfind, hresult, hafter]
    cases hupsert : write.upsert with
    | true =>
      have hfresh : (write.rowEdit schema).fresh? =
          some (Sql.rowOf schema write.key (write.seedling schema)) := by
        rw [KeyedWrite.rowEdit, hupsert, if_pos rfl]
      rw [hfresh]
      refine ⟨_, ?_, editedTo_setTable h hschema hsound⟩
      simp only [Image.store]
      rw [show write.update.create (.byKey schema write.key) = write.seedling schema from rfl,
        hstore]
      rfl
    | false =>
      have hfresh : (write.rowEdit schema).fresh? = none := by
        rw [KeyedWrite.rowEdit, hupsert]
        rfl
      rw [hfresh, Option.toList_none, List.append_nil]
      exact ⟨image, rfl, editedTo_self h schema⟩

end Sql.Image

end DocStore
