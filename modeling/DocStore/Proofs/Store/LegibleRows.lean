import DocStore.Proofs.Store.KeyedWrites
import DocStore.Proofs.Store.Rereading

/-!
# Rows that can be read

A row is `Legible` when it holds the document of its text, whatever document it was written from. In
a sound table these are the rows that can be read (`Sound.legible_of_decode`). A query in row order
passes over the rows that it `Skips`, up to the first one whose document matches
(`Sound.skips_of_selectFirst`, `Sound.foundIn_of_selectFirst`, `FoundIn.selectFirst_eq`).
-/

namespace DocStore.Sql.Table

variable {schema : Schema} {table : Table} {filter : Filter} {row : Row}

/-- A row that holds the document of its text. -/
def Legible (schema : Schema) (table : Table) (row : Row) : Prop :=
  RowHolds schema table row row.document

/-- A written row stays a mirror of its document when this is read back with other numbers. -/
lemma Writes.legible (hschema : schema ∈ Schema.all) (hcolumns : table.columns = schema.columnList)
    {doc : Document} (h : Writes schema row doc) (hnesting : doc.nesting ≤ Value.nestingLimit) :
    Legible schema table row := by
  have hmirrors := h.mirrors hschema hcolumns
  have hdata := h.cell_data hschema hcolumns
  obtain ⟨later, hlater⟩ := Option.isSome_iff_exists.mp
    ((Document.isSome_ofText?_text_iff h.1 .compact).mpr hnesting)
  have hreread := ((Document.ofText?_text_eq_some_iff h.1 .compact).mp hlater).2
  have hkey := Document.keyOf?_of_reread? schema hreread
  have hdocument : row.document = later := by
    obtain ⟨-, -, -, rfl⟩ := h
    rw [document_rowOf, hlater, Option.getD_some]
  rw [Legible, hdocument]
  refine ⟨⟨?_, ?_, fun mapping hmapping => ?_⟩, ?_⟩
  · rw [hmirrors.key, hkey]
  · rw [hkey]
    exact hmirrors.keyed
  · rw [hmirrors.columns mapping hmapping]
    exact (Document.asString?_getAt?_of_reread? hreread _).symm
  · rw [hdata, Option.bind_some, hlater]

/-- In a sound table the rows that can be read are legible. -/
theorem Sound.legible_of_decode (h : Sound schema table) (hschema : schema ∈ Schema.all)
    (hrow : row ∈ table.rows) {entry : String × Document}
    (hdecode : table.decode schema row = .ok entry) : Legible schema table row := by
  obtain ⟨doc, hdoc⟩ := h.rows row hrow
  exact hdoc.legible hschema h.columns (hdoc.nesting_le_of_decode hschema h.columns hdecode)

lemma Sound.primary_of_legible (h : Sound schema table) (hschema : schema ∈ Schema.all)
    (hrow : row ∈ table.rows) (hlegible : Legible schema table row) {key : String}
    (hkey : schema.keyOf? row.document = some key) : row.primary = some key := by
  rw [← h.selects_iff hschema hrow, hlegible.key, hkey, beq_self_eq_true]

lemma Legible.decode_eq (h : Legible schema table row) :
    ∃ key, schema.keyOf? row.document = some key ∧
      table.decode schema row = .ok (key, row.document) := by
  obtain ⟨key, hkeyed, hdecode⟩ := RowHolds.decode_eq h
  obtain ⟨_, hkey, heq⟩ := Option.map_eq_some_iff.mp hkeyed
  cases heq
  exact ⟨key, hkey, hdecode⟩

lemma cell_congr {other : Table} (h : other.columns = table.columns) :
    other.cell = table.cell := by
  funext row column
  rw [cell, cell, h]

lemma Legible.congr {other : Table} (hlegible : Legible schema table row)
    (h : other.columns = table.columns) : Legible schema other row where
  key := by
    rw [cell_congr h]
    exact hlegible.key
  keyed := hlegible.keyed
  columns := by
    rw [cell_congr h]
    exact hlegible.columns
  text := by
    rw [cell_congr h]
    exact hlegible.text

lemma holds_document_iff (hcolumns : table.columns = schema.columnList) :
    Holds schema table (table.rows.map Row.document) ↔
      ∀ row ∈ table.rows, Legible schema table row := by
  have hrows : List.Forall₂ (RowHolds schema table) table.rows (table.rows.map Row.document) ↔
      ∀ row ∈ table.rows, Legible schema table row := by
    rw [List.forall₂_map_right_iff, List.forall₂_same]
    rfl
  exact ⟨fun h => hrows.mp h.rows, fun h => ⟨hasColumns_columnList hcolumns, hrows.mpr h⟩⟩

lemma Holds.contents_eq {docs : List Document} (h : Holds schema table docs) :
    contents schema table = .ok docs := by
  have hentries : table.rows.filterMap (entryOf? schema table) =
      docs.filterMap (keyed? schema) := by
    have hrows := h.rows
    generalize table.rows = rows at hrows
    clear h
    induction hrows with
    | nil => rfl
    | cons hrow _ ih => rw [List.filterMap_cons, List.filterMap_cons, hrow.entryOf?_eq, ih]
  have hread := readAll_eq (fun _ => true) fun row hrow => h.exists_rowHolds hrow
  rw [contents, hread, List.filter_true, hentries, Except.map,
    map_snd_filterMap_keyed? fun doc hdoc => h.isSome_keyOf? hdoc]

/-- A table that can be read holds the documents of the texts in its rows. -/
theorem Sound.holds (h : Sound schema table) (hschema : schema ∈ Schema.all)
    {docs : List Document} (hread : contents schema table = .ok docs) :
    docs = table.rows.map Row.document ∧ Holds schema table docs := by
  have hholds : Holds schema table (table.rows.map Row.document) := by
    refine (holds_document_iff h.columns).mpr fun row hrow => ?_
    obtain ⟨entry, hdecode⟩ := exists_decode_of_contents hread hrow
    exact h.legible_of_decode hschema hrow hdecode
  obtain rfl : docs = table.rows.map Row.document :=
    Except.ok.inj (hread.symm.trans hholds.contents_eq)
  exact ⟨rfl, hholds⟩

/-- Whether the prefilter of a filter lets a query visit a row. -/
def passes (schema : Schema) (filter : Filter) (table : Table) (row : Row) : Bool :=
  (Prefilter.ofFilter schema filter).accepts (table.cell row)

/-- A row that a query passes over: its prefilter does, or the document does not match. -/
def Skips (schema : Schema) (filter : Filter) (table : Table) (row : Row) : Prop :=
  passes schema filter table row = true →
    Legible schema table row ∧ filter.accepts row.document = false

/-- A row whose document is a match. -/
structure Shown (schema : Schema) (filter : Filter) (table : Table) (row : Row) : Prop where
  legible : Legible schema table row
  accepted : filter.accepts row.document = true

/-- What a query reads of some rows, in their order. -/
def firstIn (schema : Schema) (filter : Filter) (table : Table) (rows : List Row) :
    Except StoreError (Option (String × Document)) :=
  table.readFirst schema (residual (Prefilter.ofFilter schema filter) filter)
    (rows.filter (passes schema filter table))

lemma selectFirst_eq_firstIn (hcolumns : table.columns = schema.columnList)
    (hfits : (Prefilter.ofFilter schema filter).Fits)
    (hrank : table.ranksByPrimary (Prefilter.ofFilter schema filter) = false) :
    table.selectFirst schema filter = firstIn schema filter table table.rows := by
  have hfault := fault?_select_eq_none (hasColumns_columnList hcolumns) hfits
  simp only [selectFirst, query, hfault, bind, Except.bind, visit_eq_passing hrank]
  rfl

lemma Legible.passes_and_residual (h : Legible schema table row) (filter : Filter) :
    (passes schema filter table row &&
      residual (Prefilter.ofFilter schema filter) filter row.document) =
        filter.accepts row.document :=
  accepts_and_residual h.toMirrors filter

lemma Skips.congr {other : Table} (hskips : Skips schema filter table row)
    (h : other.columns = table.columns) : Skips schema filter other row := by
  intro hpasses
  rw [passes, cell_congr h] at hpasses
  exact ⟨(hskips hpasses).1.congr h, (hskips hpasses).2⟩

lemma firstIn_cons_of_skips (h : Skips schema filter table row) (rest : List Row) :
    firstIn schema filter table (row :: rest) = firstIn schema filter table rest := by
  rw [firstIn, firstIn, List.filter_cons]
  split
  · rename_i hpasses
    obtain ⟨hlegible, haccepts⟩ := h hpasses
    obtain ⟨key, -, hdecode⟩ := hlegible.decode_eq
    have hboth := hlegible.passes_and_residual filter
    rw [hpasses, haccepts, Bool.true_and] at hboth
    rw [readFirst, hdecode]
    simp [hboth]
  · rfl

lemma firstIn_append_of_skips {before : List Row}
    (h : ∀ row ∈ before, Skips schema filter table row) (rest : List Row) :
    firstIn schema filter table (before ++ rest) = firstIn schema filter table rest := by
  induction before with
  | nil => rfl
  | cons row before ih =>
    obtain ⟨hrow, hbefore⟩ := List.forall_mem_cons.mp h
    rw [List.cons_append, firstIn_cons_of_skips hrow, ih hbefore]

lemma firstIn_cons_of_shown (h : Shown schema filter table row) {key : String}
    (hkey : schema.keyOf? row.document = some key) (rest : List Row) :
    firstIn schema filter table (row :: rest) = .ok (some (key, row.document)) := by
  have hboth := h.legible.passes_and_residual filter
  rw [h.accepted, Bool.and_eq_true] at hboth
  obtain ⟨other, hother, hdecode⟩ := h.legible.decode_eq
  obtain rfl : other = key := Option.some.inj (hother.symm.trans hkey)
  rw [firstIn, List.filter_cons_of_pos hboth.1, readFirst, hdecode]
  simp [hboth.2]

/-- Where a query in row order found its match: in the first row that it did not pass over. -/
structure FoundIn (schema : Schema) (filter : Filter) (table : Table) (before : List Row)
    (row : Row) (after : List Row) (key : String) (doc : Document) : Prop where
  fits : (Prefilter.ofFilter schema filter).Fits
  rows : table.rows = before ++ row :: after
  skipped : ∀ other ∈ before, Skips schema filter table other
  shown : Shown schema filter table row
  key : schema.keyOf? row.document = some key
  document : row.document = doc

/-- What a query that did not fail read of some rows: nothing of those that it passed over, else the
first one whose document matches. -/
lemma Sound.firstIn_cases (h : Sound schema table) (hschema : schema ∈ Schema.all)
    {rows : List Row} (hrows : ∀ row ∈ rows, row ∈ table.rows)
    {found : Option (String × Document)} (hfirst : firstIn schema filter table rows = .ok found) :
    (found = none ∧ ∀ row ∈ rows, Skips schema filter table row) ∨
      ∃ before row after key, rows = before ++ row :: after ∧
        (∀ other ∈ before, Skips schema filter table other) ∧ Shown schema filter table row ∧
        schema.keyOf? row.document = some key ∧ found = some (key, row.document) := by
  induction rows with
  | nil =>
    cases hfirst
    exact .inl ⟨rfl, by simp⟩
  | cons row rest ih =>
    obtain ⟨hrow, hrest⟩ := List.forall_mem_cons.mp hrows
    have hcases : Skips schema filter table row ∨ Shown schema filter table row := by
      by_cases hpasses : passes schema filter table row = true
      · rw [firstIn, List.filter_cons_of_pos hpasses, readFirst] at hfirst
        cases hdecode : table.decode schema row with
        | error error =>
          rw [hdecode] at hfirst
          cases hfirst
        | ok entry =>
          have hlegible := h.legible_of_decode hschema hrow hdecode
          cases haccepts : filter.accepts row.document with
          | false => exact .inl fun _ => ⟨hlegible, haccepts⟩
          | true => exact .inr ⟨hlegible, haccepts⟩
      · exact .inl fun hpasses' => absurd hpasses' hpasses
    rcases hcases with hskips | hshown
    · rw [firstIn_cons_of_skips hskips] at hfirst
      rcases ih hrest hfirst with ⟨rfl, hall⟩ | ⟨before, shown, after, key, rfl, hbefore, hfound⟩
      · exact .inl ⟨rfl, List.forall_mem_cons.mpr ⟨hskips, hall⟩⟩
      · exact .inr ⟨row :: before, shown, after, key, rfl,
          List.forall_mem_cons.mpr ⟨hskips, hbefore⟩, hfound⟩
    · obtain ⟨key, hkey⟩ := Option.isSome_iff_exists.mp hshown.legible.keyed
      rw [firstIn_cons_of_shown hshown hkey] at hfirst
      cases hfirst
      exact .inr ⟨[], row, rest, key, rfl, by simp, hshown, hkey, rfl⟩

/-- A query in row order that finds nothing has passed over every row. -/
theorem Sound.skips_of_selectFirst (h : Sound schema table) (hschema : schema ∈ Schema.all)
    (hrank : table.ranksByPrimary (Prefilter.ofFilter schema filter) = false)
    (hfound : table.selectFirst schema filter = .ok none) :
    ∀ row ∈ table.rows, Skips schema filter table row := by
  have hfits := fits_of_selectFirst_eq_ok hfound
  rw [selectFirst_eq_firstIn h.columns hfits hrank] at hfound
  rcases h.firstIn_cases hschema (fun _ hrow => hrow) hfound with ⟨-, hall⟩ | ⟨_, _, _, _, hrest⟩
  · exact hall
  · simp at hrest

theorem Sound.foundIn_of_selectFirst (h : Sound schema table) (hschema : schema ∈ Schema.all)
    (hrank : table.ranksByPrimary (Prefilter.ofFilter schema filter) = false) {key : String}
    {doc : Document} (hfound : table.selectFirst schema filter = .ok (some (key, doc))) :
    ∃ before row after, FoundIn schema filter table before row after key doc := by
  have hfits := fits_of_selectFirst_eq_ok hfound
  rw [selectFirst_eq_firstIn h.columns hfits hrank] at hfound
  rcases h.firstIn_cases hschema (fun _ hrow => hrow) hfound with
    ⟨hnone, -⟩ | ⟨before, row, after, other, hrows, hskipped, hshown, hkey, heq⟩
  · cases hnone
  · cases heq
    exact ⟨before, row, after, hfits, hrows, hskipped, hshown, hkey, rfl⟩

theorem FoundIn.selectFirst_eq {before after : List Row} {key : String} {doc : Document}
    (h : FoundIn schema filter table before row after key doc)
    (hcolumns : table.columns = schema.columnList)
    (hrank : table.ranksByPrimary (Prefilter.ofFilter schema filter) = false) :
    table.selectFirst schema filter = .ok (some (key, doc)) := by
  rw [selectFirst_eq_firstIn hcolumns h.fits hrank, h.rows, firstIn_append_of_skips h.skipped,
    firstIn_cons_of_shown h.shown h.key, h.document]

lemma document_rowOf_of_readable {doc : Document} (hdoc : doc.Ordered) (hread : doc.Readable)
    (key : String) : Row.document (rowOf schema key doc) = doc := by
  rw [document_rowOf, (Document.ofText?_text_eq_self_iff hdoc .compact).mpr hread,
    Option.getD_some]

lemma shown_rowOf (hschema : schema ∈ Schema.all) (hcolumns : table.columns = schema.columnList)
    {doc : Document} (hdoc : doc.Ordered) (hread : doc.Readable)
    (haccepts : filter.accepts doc = true) {key : String} (hkey : schema.keyOf? doc = some key) :
    Shown schema filter table (rowOf schema key doc) where
  legible := Writes.legible hschema hcolumns ⟨hdoc, key, hkey, rfl⟩ hread.1
  accepted := by rwa [document_rowOf_of_readable hdoc hread]

end DocStore.Sql.Table
