import DocStore.Proofs.ReadBack
import DocStore.Proofs.Sql.Select
import Mathlib.Data.List.Nodup

/-!
# Rows that were written

`rowOf` is the row that a document is written as, and a table is `Sound` when each of its rows is
such a row and no two have one key. Writing a document (`Table.Sound.store`) and removing rows
(`Table.Sound.deleteMatches`) keep a table sound. Where a sound table has a row of the old key, the
new row takes its place and the row it collides with disappears (`Table.Sound.store_some`).
-/

namespace DocStore.Sql

def DistinctNames (names : List String) : Prop :=
  names.Pairwise fun a b => sameName a b = false

lemma sameName_self (name : String) : sameName name name = true := by
  simp [sameName]

lemma sameName_comm (a b : String) : sameName a b = sameName b a := by
  simp [sameName, Bool.beq_comm]

lemma distinctNames_columnList {schema : Schema} (h : schema ∈ Schema.all) :
    DistinctNames schema.columnList := by
  simp only [Schema.all, List.mem_cons, List.not_mem_nil, or_false] at h
  unfold DistinctNames
  rcases h with rfl | rfl <;> decide +kernel

lemma find?_zip_of_mem {names : List String} (h : DistinctNames names) {row : Row}
    {column : String} {cell : Option String} (hm : (column, cell) ∈ names.zip row) :
    (names.zip row).find? (fun entry => sameName entry.1 column) = some (column, cell) := by
  induction names generalizing row with
  | nil => simp at hm
  | cons name rest ih =>
    obtain ⟨hname, hrest⟩ := List.pairwise_cons.mp h
    cases row with
    | nil => simp at hm
    | cons first more =>
      rw [List.zip_cons_cons] at hm ⊢
      rcases List.mem_cons.mp hm with heq | hm
      · cases heq
        exact List.find?_cons_of_pos (sameName_self column)
      · rw [List.find?_cons_of_neg, ih hrest hm]
        simp [hname column (List.of_mem_zip hm).1]

namespace Table

lemma cell_of_mem_zip {table : Table} (h : DistinctNames table.columns) {row : Row}
    {column : String} {cell : Option String} (hm : (column, cell) ∈ table.columns.zip row) :
    table.cell row column = cell := by
  rw [Table.cell, find?_zip_of_mem h hm]
  rfl

lemma withCells_zip {table : Table} (h : DistinctNames table.columns) {old new : Row}
    (hold : old.length = table.columns.length) (hnew : new.length = table.columns.length) :
    table.withCells (table.columns.zip new) old = new := by
  refine List.ext_getElem (by simp [withCells, hold, hnew]) fun i hi hi' => ?_
  have hcolumn : i < table.columns.length := by omega
  have hm : (table.columns[i], new[i]) ∈ table.columns.zip new := by
    rw [← List.getElem_zip (h := by simp; omega)]
    exact List.getElem_mem _
  simp [withCells, find?_zip_of_mem h hm]

end Table

def rowOf (schema : Schema) (key : String) (doc : Document) : Row :=
  some key :: schema.columns.map (fun mapping => (doc.get? mapping.path).bind Value.asString?) ++
    [some (doc.text .compact)]

@[simp] lemma length_rowOf (schema : Schema) (key : String) (doc : Document) :
    (rowOf schema key doc).length = schema.columnList.length := by
  simp [rowOf, Schema.columnList]

@[simp] lemma primary_rowOf (schema : Schema) (key : String) (doc : Document) :
    Row.primary (rowOf schema key doc) = some key := rfl

lemma cellsOf_eq_zip (schema : Schema) (key : String) (doc : Document) :
    Table.cellsOf schema key doc = schema.columnList.zip (rowOf schema key doc) := by
  have hcolumns : schema.columns.map (fun mapping =>
      (mapping.column, (doc.get? mapping.path).bind Value.asString?)) =
      (schema.columns.map (·.column)).zip
        (schema.columns.map fun mapping => (doc.get? mapping.path).bind Value.asString?) := by
    rw [List.zip_map']
  rw [Table.cellsOf, Schema.columnList, rowOf, hcolumns, List.cons_append, List.cons_append,
    List.cons_append, List.zip_cons_cons, List.zip_append (by simp)]
  rfl

namespace Table

/-- The row of an ordered document under its key. -/
def Writes (schema : Schema) (row : Row) (doc : Document) : Prop :=
  doc.Ordered ∧ ∃ key, schema.keyOf? doc = some key ∧ row = rowOf schema key doc

/-- A table of a schema in which each row is that of a document, and no two rows have one key. -/
structure Sound (schema : Schema) (table : Table) : Prop where
  name : table.name = schema.table
  columns : table.columns = schema.columnList
  rows : ∀ row ∈ table.rows, ∃ doc, Writes schema row doc
  primaries : (table.rows.map Row.primary).Nodup

variable {schema : Schema} {table : Table}

lemma sound_ofSchema (schema : Schema) : Sound schema (ofSchema schema) where
  name := rfl
  columns := rfl
  rows := by simp [ofSchema]
  primaries := List.nodup_nil

lemma hasColumns_columnList (h : table.columns = schema.columnList) :
    table.hasColumns schema.columnList = true := by
  refine List.all_eq_true.mpr fun column hcolumn => ?_
  rw [hasColumn, columnName?, List.find?_isSome, h]
  exact ⟨column, hcolumn, sameName_self column⟩

section Cells

variable (hschema : schema ∈ Schema.all) (hcolumns : table.columns = schema.columnList)
include hschema hcolumns

lemma cell_rowOf_of_mem {key : String} {doc : Document} {column : String} {cell : Option String}
    (hm : (column, cell) ∈ cellsOf schema key doc) :
    table.cell (rowOf schema key doc) column = cell := by
  rw [cellsOf_eq_zip, ← hcolumns] at hm
  refine cell_of_mem_zip ?_ hm
  rw [hcolumns]
  exact distinctNames_columnList hschema

lemma Writes.cell_key {row : Row} {doc : Document} (h : Writes schema row doc) :
    table.cell row schema.key.column = schema.keyOf? doc := by
  obtain ⟨-, key, hkey, rfl⟩ := h
  rw [hkey]
  exact cell_rowOf_of_mem hschema hcolumns (by simp [cellsOf])

lemma Writes.cell_data {row : Row} {doc : Document} (h : Writes schema row doc) :
    table.cell row Schema.dataColumn = some (doc.text .compact) := by
  obtain ⟨-, key, hkey, rfl⟩ := h
  exact cell_rowOf_of_mem hschema hcolumns (by simp [cellsOf])

lemma Writes.mirrors {row : Row} {doc : Document} (h : Writes schema row doc) :
    Mirrors schema (table.cell row) doc where
  key := h.cell_key hschema hcolumns
  keyed := by
    obtain ⟨-, key, hkey, -⟩ := h
    simp [hkey]
  columns := by
    obtain ⟨-, key, -, rfl⟩ := h
    intro mapping hm
    refine cell_rowOf_of_mem hschema hcolumns ?_
    rw [cellsOf]
    refine List.mem_append_left _ (List.mem_cons_of_mem _ (List.mem_map_of_mem hm))

/-- A written row holds its document when that reads back, and only then. -/
lemma Writes.rowHolds_iff {row : Row} {doc : Document} (h : Writes schema row doc) :
    RowHolds schema table row doc ↔ doc.Readable := by
  rw [← Document.ofText?_text_eq_self_iff h.1 .compact]
  have hdata := h.cell_data hschema hcolumns
  constructor
  · intro hholds
    simpa [hdata] using hholds.text
  · intro htext
    exact { toMirrors := h.mirrors hschema hcolumns, text := by simpa [hdata] using htext }

end Cells

lemma primary_of_writes {row : Row} {doc : Document} (h : Writes schema row doc) :
    row.primary = schema.keyOf? doc := by
  obtain ⟨-, key, hkey, rfl⟩ := h
  exact hkey.symm

/-- The rows with one put between others, without those that it collides with. -/
def placeRow (before : List Row) (row : Row) (after : List Row) : List Row :=
  before.filter (!row.collides ·) ++ row :: after.filter (!row.collides ·)

lemma newRow_cellsOf (hschema : schema ∈ Schema.all) (hcolumns : table.columns = schema.columnList)
    (key : String) (doc : Document) :
    table.newRow (cellsOf schema key doc) = rowOf schema key doc := by
  rw [newRow, cellsOf_eq_zip, ← hcolumns]
  refine withCells_zip ?_ (by simp) (by simp [hcolumns])
  rw [hcolumns]
  exact distinctNames_columnList hschema

lemma withCells_cellsOf (hschema : schema ∈ Schema.all)
    (hcolumns : table.columns = schema.columnList) {row : Row} {old : Document}
    (hrow : Writes schema row old) (key : String) (doc : Document) :
    table.withCells (cellsOf schema key doc) row = rowOf schema key doc := by
  obtain ⟨-, oldKey, -, rfl⟩ := hrow
  rw [cellsOf_eq_zip, ← hcolumns]
  refine withCells_zip ?_ (by simp [hcolumns]) (by simp [hcolumns])
  rw [hcolumns]
  exact distinctNames_columnList hschema

lemma replaceRows_append {selects : Row → Bool} {change : Row → Row} {before : List Row}
    (h : ∀ row ∈ before, selects row = false) (passed rest : List Row) :
    replaceRows selects change passed [] (before ++ rest) =
      replaceRows selects change (passed ++ before) [] rest := by
  induction before generalizing passed with
  | nil => simp
  | cons row more ih =>
    have hrow := h row (by simp)
    have hmore := ih (fun other ho => h other (List.mem_cons_of_mem row ho)) (passed ++ [row])
    simpa [replaceRows, hrow] using hmore

/-- Behind the last selected row, those disappear that collide with a changed one. -/
lemma replaceRows_of_forall {selects : Row → Bool} {change : Row → Row} {rows : List Row}
    (h : ∀ row ∈ rows, selects row = false) (passed changed : List Row) :
    replaceRows selects change passed changed rows =
      passed ++ rows.filter fun row => !changed.any fun earlier => earlier.collides row := by
  induction rows generalizing passed with
  | nil => simp [replaceRows]
  | cons row rest ih =>
    have hrow := h row (by simp)
    have hrest := ih fun other ho => h other (List.mem_cons_of_mem row ho)
    rw [replaceRows]
    split
    · rename_i hany
      rw [hrest, List.filter_cons_of_neg (by simp [hany])]
    · rename_i hany
      rw [if_neg (by simp [hrow]), hrest, List.filter_cons_of_pos (by simpa using hany)]
      simp

lemma replaceRows_of_unique {selects : Row → Bool} (change : Row → Row) {before after : List Row}
    {row : Row} (hbefore : ∀ other ∈ before, selects other = false) (hrow : selects row = true)
    (hafter : ∀ other ∈ after, selects other = false) :
    replaceRows selects change [] [] (before ++ row :: after) =
      placeRow before (change row) after := by
  rw [replaceRows_append hbefore, List.nil_append, replaceRows]
  simp only [List.any_nil, Bool.false_eq_true, if_false, hrow, if_true]
  rw [replaceRows_of_forall hafter, placeRow, List.append_assoc]
  simp

lemma placeRow_perm_sublist {before after rows : List Row} (row : Row)
    (h : (before ++ after).Sublist rows) :
    ∃ others : List Row, others.Sublist rows ∧ (∀ other ∈ others, row.collides other = false) ∧
      (placeRow before row after).Perm (row :: others) := by
  refine ⟨(before ++ after).filter (!row.collides ·), ?_, ?_, ?_⟩
  · exact List.filter_sublist.trans h
  · intro other ho
    simpa using (List.mem_filter.mp ho).2
  · rw [placeRow, List.filter_append]
    exact List.perm_middle

lemma Sound.placeRow (h : Sound schema table) {row : Row} {doc : Document}
    (hrow : Writes schema row doc) {before after : List Row}
    (hrows : (before ++ after).Sublist table.rows) :
    Sound schema { table with rows := placeRow before row after } := by
  obtain ⟨others, hothers, hcollides, hperm⟩ := placeRow_perm_sublist row hrows
  refine ⟨h.name, h.columns, fun other ho => ?_, ?_⟩
  · rcases List.mem_cons.mp (hperm.mem_iff.mp ho) with rfl | ho
    · exact ⟨doc, hrow⟩
    · exact h.rows other (hothers.subset ho)
  · refine (hperm.map Row.primary).nodup_iff.mpr (List.nodup_cons.mpr ⟨fun hm => ?_, ?_⟩)
    · obtain ⟨other, ho, heq⟩ := List.mem_map.mp hm
      obtain ⟨-, key, -, rfl⟩ := hrow
      simpa [Row.collides, heq] using hcollides other ho
    · exact h.primaries.sublist (hothers.map Row.primary)

lemma Sound.sublist (h : Sound schema table) {rows : List Row} (hrows : rows.Sublist table.rows) :
    Sound schema { table with rows } where
  name := h.name
  columns := h.columns
  rows := fun row hrow => h.rows row (hrows.subset hrow)
  primaries := h.primaries.sublist (hrows.map Row.primary)

/-! ## Writing -/

lemma find?_columnList_eq_none (h : table.columns = schema.columnList) :
    schema.columnList.find? (!table.hasColumn ·) = none := by
  refine List.find?_eq_none.mpr fun column hcolumn => ?_
  simpa using List.all_eq_true.mp (hasColumns_columnList h) column hcolumn

lemma store_of_keyOf?_eq_none {doc : Document} (h : schema.keyOf? doc = none)
    (table : Table) (previous : Option String) :
    table.store schema previous doc =
      .error (.missingPrimaryKey schema.name schema.key.path) := by
  rw [store, h]

lemma Sound.store_none (h : Sound schema table) (hschema : schema ∈ Schema.all) {doc : Document}
    {key : String} (hkey : schema.keyOf? doc = some key) :
    table.store schema none doc =
      .ok { table with rows := Table.placeRow table.rows (rowOf schema key doc) [] } := by
  simp only [store, hkey, find?_columnList_eq_none h.columns, insertOrReplace,
    newRow_cellsOf hschema h.columns]
  rfl

/-- The key of a row is the key of its document, so a row is selected by its primary key. -/
lemma Sound.selects_iff (h : Sound schema table) (hschema : schema ∈ Schema.all) {row : Row}
    (hrow : row ∈ table.rows) (key : String) :
    (table.cell row schema.key.column == some key) = true ↔ row.primary = some key := by
  obtain ⟨doc, hdoc⟩ := h.rows row hrow
  rw [hdoc.cell_key hschema h.columns, primary_of_writes hdoc, beq_iff_eq]

lemma Sound.forall_not_selects (h : Sound schema table) (hschema : schema ∈ Schema.all)
    {key : String} {rows : List Row} (hrows : ∀ row ∈ rows, row ∈ table.rows)
    (hkey : some key ∉ rows.map Row.primary) :
    ∀ row ∈ rows, (table.cell row schema.key.column == some key) = false := by
  intro row hrow
  rw [Bool.eq_false_iff, ne_eq, h.selects_iff hschema (hrows row hrow)]
  exact fun heq => hkey (List.mem_map.mpr ⟨row, hrow, heq⟩)

lemma Sound.store_some (h : Sound schema table) (hschema : schema ∈ Schema.all) {doc : Document}
    {key old : String} (hkey : schema.keyOf? doc = some key) {before after : List Row} {row : Row}
    (hrows : table.rows = before ++ row :: after) (hold : row.primary = some old) :
    table.store schema (some old) doc =
      .ok { table with rows := Table.placeRow before (rowOf schema key doc) after } := by
  have hnodup := h.primaries
  rw [hrows, List.map_append, List.map_cons, List.nodup_middle, hold, List.nodup_cons,
    List.mem_append, not_or] at hnodup
  obtain ⟨⟨hbefore, hafter⟩, -⟩ := hnodup
  have hrow : row ∈ table.rows := by simp [hrows]
  obtain ⟨previous, hprevious⟩ := h.rows row hrow
  have hrowsBefore : ∀ other ∈ before, other ∈ table.rows := by simp +contextual [hrows]
  have hrowsAfter : ∀ other ∈ after, other ∈ table.rows := by simp +contextual [hrows]
  have hselects := (h.selects_iff hschema hrow old).mpr hold
  have hreplace := replaceRows_of_unique (table.withCells (cellsOf schema key doc))
    (h.forall_not_selects hschema hrowsBefore hbefore) hselects
    (h.forall_not_selects hschema hrowsAfter hafter)
  rw [withCells_cellsOf hschema h.columns hprevious] at hreplace
  simp only [store, hkey, find?_columnList_eq_none h.columns, updateOrReplace]
  rw [hrows, hreplace]

lemma Sound.store_some_of_notMem (h : Sound schema table) (hschema : schema ∈ Schema.all)
    {doc : Document} {key old : String} (hkey : schema.keyOf? doc = some key)
    (hold : some old ∉ table.rows.map Row.primary) :
    table.store schema (some old) doc = .ok table := by
  have hselects := h.forall_not_selects hschema (fun _ hrow => hrow) hold
  simp only [store, hkey, find?_columnList_eq_none h.columns, updateOrReplace]
  rw [replaceRows_of_forall hselects]
  simp

/-- Writing a document keeps a table sound, whatever its key was before. -/
theorem Sound.store (h : Sound schema table) (hschema : schema ∈ Schema.all)
    {previous : Option String} {doc : Document} (hdoc : doc.Ordered) {after : Table}
    (hstore : table.store schema previous doc = .ok after) : Sound schema after := by
  cases hkey : schema.keyOf? doc with
  | none =>
    rw [store_of_keyOf?_eq_none hkey] at hstore
    cases hstore
  | some key =>
    have hrow : Writes schema (rowOf schema key doc) doc := ⟨hdoc, key, hkey, rfl⟩
    cases previous with
    | none =>
      rw [h.store_none hschema hkey] at hstore
      cases hstore
      exact h.placeRow hrow (by simp)
    | some old =>
      by_cases hold : some old ∈ table.rows.map Row.primary
      · obtain ⟨row, hmem, hprimary⟩ := List.mem_map.mp hold
        obtain ⟨before, behind, hrows⟩ := List.append_of_mem hmem
        rw [h.store_some hschema hkey hrows hprimary] at hstore
        cases hstore
        refine h.placeRow hrow ?_
        rw [hrows]
        exact (List.Sublist.refl before).append (List.sublist_cons_self row behind)
      · rw [h.store_some_of_notMem hschema hkey hold] at hstore
        cases hstore
        exact h

lemma Sound.deleteWhere (h : Sound schema table) (drops : Row → Bool) :
    Sound schema (table.deleteWhere drops).1 :=
  h.sublist List.filter_sublist

lemma Sound.deleteKeys (h : Sound schema table) (keys : List String) :
    Sound schema (Table.deleteKeys schema keys table).1 := by
  induction keys generalizing table with
  | nil => exact h
  | cons key rest ih => exact ih (h.deleteWhere _)

theorem Sound.deleteMatches (h : Sound schema table) {filter : Filter} {count : Nat}
    {after : Table} (hdelete : table.deleteMatches schema filter = .ok (count, after)) :
    Sound schema after := by
  unfold Table.deleteMatches at hdelete
  dsimp only at hdelete
  split at hdelete
  · split at hdelete
    · cases hdelete
    · cases hdelete
      exact h.deleteWhere _
  · cases hselect : table.select schema filter with
    | error error =>
      rw [hselect] at hdelete
      cases hdelete
    | ok matching =>
      rw [hselect] at hdelete
      cases hdelete
      exact h.deleteKeys _

end Table

end DocStore.Sql
