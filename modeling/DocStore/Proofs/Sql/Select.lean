import DocStore.Proofs.Lists
import DocStore.Proofs.ReadBack
import DocStore.Proofs.Sql.Limits
import DocStore.Store.Rows

/-!
# What a query finds

A table `Holds` documents when its rows hold them one by one: each row mirrors its document and has
a text that denotes it. A query on such a table finds exactly the documents that match when its
prefilter fits (`Holds.select_eq_found`, `Holds.found_perm`), with an exact prefilter as well as
with one that leaves conditions to the documents; otherwise it is refused
(`exists_query_eq_error`). The first match is the first one in the order of the visit
(`Holds.selectFirst_eq_found`).
-/

namespace DocStore.Sql.Table

/-- A row that mirrors a document and has a text that denotes it. -/
structure RowHolds (schema : Schema) (table : Table) (row : Row) (doc : Document) : Prop extends
    Mirrors schema (table.cell row) doc where
  text : (table.cell row Schema.dataColumn).bind Document.ofText? = some doc

/-- A table with the columns of a schema that holds documents, row by row. -/
structure Holds (schema : Schema) (table : Table) (docs : List Document) : Prop where
  columns : table.hasColumns schema.columnList = true
  rows : List.Forall₂ (RowHolds schema table) table.rows docs

def keyed? (schema : Schema) (doc : Document) : Option (String × Document) :=
  (schema.keyOf? doc).map fun key => (key, doc)

/-- The document of a row, with its key. -/
def entryOf? (schema : Schema) (table : Table) (row : Row) : Option (String × Document) :=
  ((table.cell row Schema.dataColumn).bind Document.ofText?).bind (keyed? schema)

variable {schema : Schema} {table : Table}

lemma RowHolds.entryOf?_eq {row : Row} {doc : Document} (h : RowHolds schema table row doc) :
    entryOf? schema table row = keyed? schema doc := by
  rw [entryOf?, h.text, Option.bind_some]

lemma RowHolds.decode_eq {row : Row} {doc : Document} (h : RowHolds schema table row doc) :
    ∃ key, keyed? schema doc = some (key, doc) ∧
      table.decode schema row = .ok (key, doc) := by
  obtain ⟨key, hkey⟩ := Option.isSome_iff_exists.mp h.keyed
  obtain ⟨text, hcell, htext⟩ := Option.bind_eq_some_iff.mp h.text
  have hprimary := h.key.trans hkey
  refine ⟨key, by rw [keyed?, hkey, Option.map_some], ?_⟩
  simp [decode, hprimary, hcell, htext]

lemma readAll_eq (keeps : Document → Bool) {rows : List Row}
    (h : ∀ row ∈ rows, ∃ doc, RowHolds schema table row doc) :
    table.readAll schema keeps rows =
      .ok ((rows.filterMap (entryOf? schema table)).filter fun entry => keeps entry.2) := by
  induction rows with
  | nil => rfl
  | cons row rest ih =>
    obtain ⟨doc, hdoc⟩ := h row (by simp)
    obtain ⟨key, hkey, hdecode⟩ := hdoc.decode_eq
    have hrest := ih fun other ho => h other (List.mem_cons_of_mem row ho)
    have hentry : entryOf? schema table row = some (key, doc) := hdoc.entryOf?_eq.trans hkey
    simp only [readAll, hdecode, hrest, List.filterMap_cons, hentry, List.filter_cons]
    split <;> rfl

lemma readFirst_eq (keeps : Document → Bool) {rows : List Row}
    (h : ∀ row ∈ rows, ∃ doc, RowHolds schema table row doc) :
    table.readFirst schema keeps rows =
      .ok ((rows.filterMap (entryOf? schema table)).filter fun entry => keeps entry.2).head? := by
  induction rows with
  | nil => rfl
  | cons row rest ih =>
    obtain ⟨doc, hdoc⟩ := h row (by simp)
    obtain ⟨key, hkey, hdecode⟩ := hdoc.decode_eq
    have hrest := ih fun other ho => h other (List.mem_cons_of_mem row ho)
    have hentry : entryOf? schema table row = some (key, doc) := hdoc.entryOf?_eq.trans hkey
    simp only [readFirst, hdecode, hrest, List.filterMap_cons, hentry, List.filter_cons]
    split <;> rfl

lemma visit_perm (table : Table) (prefilter : Prefilter) :
    (table.visit prefilter).Perm (table.passing prefilter) := by
  unfold visit
  dsimp only
  split
  · exact List.mergeSort_perm _ _
  · exact List.Perm.refl _

lemma visit_eq_passing {prefilter : Prefilter} (h : table.ranksByPrimary prefilter = false) :
    table.visit prefilter = table.passing prefilter := by
  simp [visit, h]

/-- What the prefilter lets pass and the residual conditions keep is what the filter accepts. -/
lemma accepts_and_residual {row : String → Option String} {doc : Document}
    (h : Mirrors schema row doc) (filter : Filter) :
    ((Prefilter.ofFilter schema filter).accepts row &&
      residual (Prefilter.ofFilter schema filter) filter doc) = filter.accepts doc := by
  cases hexact : (Prefilter.ofFilter schema filter).exact with
  | true => simp [residual, hexact, Prefilter.accepts_eq_of_exact h hexact]
  | false =>
    cases haccepts : filter.accepts doc with
    | true => simp [residual, haccepts, Prefilter.accepts_of_accepts h haccepts]
    | false => simp [residual, hexact, haccepts]

lemma entries_passing {rows : List Row} {docs : List Document}
    (h : List.Forall₂ (RowHolds schema table) rows docs) (filter : Filter) :
    ((rows.filter fun row => (Prefilter.ofFilter schema filter).accepts (table.cell row)).filterMap
        (entryOf? schema table)).filter
        (fun entry => residual (Prefilter.ofFilter schema filter) filter entry.2) =
      (docs.filter filter.accepts).filterMap (keyed? schema) := by
  induction h with
  | nil => rfl
  | @cons row doc rows docs hrow hrest ih =>
    obtain ⟨key, hkey, -⟩ := hrow.decode_eq
    have hentry : entryOf? schema table row = some (key, doc) := hrow.entryOf?_eq.trans hkey
    have hboth := accepts_and_residual hrow.toMirrors filter
    rw [List.filter_cons, List.filter_cons, ← hboth]
    cases (Prefilter.ofFilter schema filter).accepts (table.cell row) with
    | false => simpa using ih
    | true =>
      cases hres : residual (Prefilter.ofFilter schema filter) filter doc with
      | false => simpa [hentry, hres] using ih
      | true => simpa [hentry, hkey, hres] using ih

lemma mem_clauseMentions {start : Nat} {clauses : List Clause} {mention : String × Nat}
    (h : mention ∈ clauseMentions start clauses) :
    ∃ clause ∈ clauses, clause.column? = some mention.1 := by
  induction clauses generalizing start with
  | nil => simp [clauseMentions] at h
  | cons clause rest ih =>
    rcases List.mem_append.mp h with h | h
    · obtain ⟨column, hcolumn, rfl⟩ := Option.map_eq_some_iff.mp (Option.mem_toList.mp h)
      exact ⟨clause, by simp, hcolumn⟩
    · obtain ⟨other, hother, hcolumn⟩ := ih h
      exact ⟨other, List.mem_cons_of_mem clause hother, hcolumn⟩

lemma mem_mentions {start : Nat} {filter : Filter} {mention : String × Nat}
    (h : mention ∈ (Prefilter.ofFilter schema filter).mentions start) :
    mention.1 ∈ schema.columnList := by
  unfold Prefilter.mentions at h
  split at h
  · simp at h
  · obtain ⟨clause, hclause, hcolumn⟩ := mem_clauseMentions h
    exact Prefilter.column_mem_columnList hclause hcolumn

lemma fault?_eq_none (h : table.hasColumns schema.columnList = true) {statement : Statement}
    (hexcess : statement.excess? = none)
    (hmentions : ∀ mention ∈ statement.mentions, mention.1 ∈ schema.columnList) :
    statement.fault? table = none := by
  rw [Statement.fault?, hexcess, List.find?_eq_none.mpr]
  · rfl
  · intro mention hm
    simp [List.all_eq_true.mp h mention.1 (hmentions mention hm)]

lemma fault?_select_eq_none (h : table.hasColumns schema.columnList = true) {filter : Filter}
    (hfits : (Prefilter.ofFilter schema filter).Fits) :
    (Statement.select schema (Prefilter.ofFilter schema filter)).fault? table = none := by
  refine fault?_eq_none h ((Prefilter.excess?_eq_none_iff _ _).mpr hfits) fun mention hm => ?_
  simp only [Statement.select, List.mem_cons] at hm
  rcases hm with rfl | rfl | hm
  · simp [Schema.columnList]
  · simp [Schema.columnList]
  · exact mem_mentions hm

lemma fault?_delete_eq_none (h : table.hasColumns schema.columnList = true) {filter : Filter}
    (hfits : (Prefilter.ofFilter schema filter).Fits) :
    (Statement.delete schema (Prefilter.ofFilter schema filter)).fault? table = none :=
  fault?_eq_none h ((Prefilter.excess?_eq_none_iff _ _).mpr hfits) fun _ hm => mem_mentions hm

lemma exists_fault?_of_not_fits (table : Table) {prefilter : Prefilter} (h : ¬prefilter.Fits)
    (statement : Statement) {start : Nat} (hexcess : statement.excess? = prefilter.excess? start) :
    ∃ excess, statement.fault? table = some (.excess statement.text excess) := by
  obtain ⟨excess, hsome⟩ :=
    Option.ne_none_iff_exists'.mp (mt (Prefilter.excess?_eq_none_iff start prefilter).mp h)
  exact ⟨excess, by rw [Statement.fault?, hexcess, hsome]⟩

lemma exists_query_eq_error (schema : Schema) (table : Table) {prefilter : Prefilter}
    (h : ¬prefilter.Fits) :
    ∃ excess, table.query schema prefilter =
      .error (.selectRefused (.excess (Statement.select schema prefilter).text excess)) := by
  obtain ⟨excess, hfault⟩ :=
    exists_fault?_of_not_fits table h (Statement.select schema prefilter) rfl
  exact ⟨excess, by rw [query, hfault]⟩

lemma exists_select_eq_error (table : Table) {filter : Filter}
    (h : ¬(Prefilter.ofFilter schema filter).Fits) :
    ∃ excess, table.select schema filter = .error (.selectRefused
      (.excess (Statement.select schema (.ofFilter schema filter)).text excess)) := by
  obtain ⟨excess, herror⟩ := exists_query_eq_error schema table h
  exact ⟨excess, by simp only [select, herror, bind, Except.bind]⟩

lemma exists_selectFirst_eq_error (table : Table) {filter : Filter}
    (h : ¬(Prefilter.ofFilter schema filter).Fits) :
    ∃ excess, table.selectFirst schema filter = .error (.selectRefused
      (.excess (Statement.select schema (.ofFilter schema filter)).text excess)) := by
  obtain ⟨excess, herror⟩ := exists_query_eq_error schema table h
  exact ⟨excess, by simp only [selectFirst, herror, bind, Except.bind]⟩

lemma fits_of_query_eq_ok {prefilter : Prefilter} {rows : List Row}
    (h : table.query schema prefilter = .ok rows) : prefilter.Fits := by
  by_contra hfits
  obtain ⟨excess, herror⟩ := exists_query_eq_error schema table hfits
  rw [herror] at h
  cases h

lemma fits_of_select_eq_ok {filter : Filter} {found : List (String × Document)}
    (h : table.select schema filter = .ok found) : (Prefilter.ofFilter schema filter).Fits := by
  obtain ⟨rows, hrows, -⟩ := bind_eq_ok_iff.mp h
  exact fits_of_query_eq_ok hrows

lemma fits_of_selectFirst_eq_ok {filter : Filter} {first? : Option (String × Document)}
    (h : table.selectFirst schema filter = .ok first?) :
    (Prefilter.ofFilter schema filter).Fits := by
  obtain ⟨rows, hrows, -⟩ := bind_eq_ok_iff.mp h
  exact fits_of_query_eq_ok hrows

lemma Holds.exists_rowHolds {docs : List Document} (h : Holds schema table docs) {row : Row}
    (hrow : row ∈ table.rows) : ∃ doc, RowHolds schema table row doc := by
  obtain ⟨doc, -, hdoc⟩ := exists_right_of_forall₂ h.rows hrow
  exact ⟨doc, hdoc⟩

lemma Holds.exists_rowHolds_of_mem_visit {docs : List Document} (h : Holds schema table docs)
    (prefilter : Prefilter) {row : Row} (hrow : row ∈ table.visit prefilter) :
    ∃ doc, RowHolds schema table row doc :=
  h.exists_rowHolds (List.mem_of_mem_filter ((visit_perm table prefilter).mem_iff.mp hrow))

/-- What the rows that a query visits give, once the residual conditions are asked. -/
def found (schema : Schema) (table : Table) (filter : Filter) : List (String × Document) :=
  ((table.visit (Prefilter.ofFilter schema filter)).filterMap (entryOf? schema table)).filter
    fun entry => residual (Prefilter.ofFilter schema filter) filter entry.2

lemma Holds.found_perm {docs : List Document} (h : Holds schema table docs) (filter : Filter) :
    (found schema table filter).Perm
      ((docs.filter filter.accepts).filterMap (keyed? schema)) := by
  rw [← entries_passing h.rows filter]
  exact ((visit_perm table _).filterMap _).filter _

lemma Holds.found_eq {docs : List Document} (h : Holds schema table docs) {filter : Filter}
    (hrank : table.ranksByPrimary (Prefilter.ofFilter schema filter) = false) :
    found schema table filter = (docs.filter filter.accepts).filterMap (keyed? schema) := by
  rw [found, visit_eq_passing hrank]
  exact entries_passing h.rows filter

lemma Holds.select_eq_found {docs : List Document} (h : Holds schema table docs)
    {filter : Filter} (hfits : (Prefilter.ofFilter schema filter).Fits) :
    table.select schema filter = .ok (found schema table filter) := by
  simp only [select, query, fault?_select_eq_none h.columns hfits, bind, Except.bind]
  exact readAll_eq _ fun row hrow => h.exists_rowHolds_of_mem_visit _ hrow

lemma Holds.selectFirst_eq_found {docs : List Document} (h : Holds schema table docs)
    {filter : Filter} (hfits : (Prefilter.ofFilter schema filter).Fits) :
    table.selectFirst schema filter = .ok (found schema table filter).head? := by
  simp only [selectFirst, query, fault?_select_eq_none h.columns hfits, bind, Except.bind]
  exact readFirst_eq _ fun row hrow => h.exists_rowHolds_of_mem_visit _ hrow

lemma Holds.isSome_keyOf? {docs : List Document} (h : Holds schema table docs) {doc : Document}
    (hd : doc ∈ docs) : (schema.keyOf? doc).isSome = true := by
  obtain ⟨row, -, hrow⟩ := exists_left_of_forall₂ h.rows hd
  exact hrow.keyed

lemma map_snd_filterMap_keyed? {docs : List Document}
    (h : ∀ doc ∈ docs, (schema.keyOf? doc).isSome = true) :
    (docs.filterMap (keyed? schema)).map (·.2) = docs := by
  induction docs with
  | nil => rfl
  | cons doc rest ih =>
    obtain ⟨key, hkey⟩ := Option.isSome_iff_exists.mp (h doc (by simp))
    have hentry : keyed? schema doc = some (key, doc) := by rw [keyed?, hkey, Option.map_some]
    rw [List.filterMap_cons, hentry, List.map_cons,
      ih fun other ho => h other (List.mem_cons_of_mem doc ho)]

/-- Whatever the conditions of a filter are, its prefilter takes as many parameters as it has
placeholders, drops no match, and is the filter itself when it is exact. So a query on a table finds
exactly the documents that match, when its statement is within the limits; else it is refused. -/
theorem prefilter_and_select (schema : Schema) (filter : Filter) :
    let prefilter := Prefilter.ofFilter schema filter
    (prefilter.clauses.map Clause.placeholders).sum = prefilter.params.length ∧
    ((∀ column ∈ schema.columnList, '?' ∉ column.toList) →
      prefilter.whereText.toList.count '?' = prefilter.params.length) ∧
    (∀ row doc, Mirrors schema row doc →
      (filter.accepts doc = true →
        evalAll row prefilter.clauses prefilter.params = some true) ∧
      (prefilter.exact = true →
        (evalAll row prefilter.clauses prefilter.params = some true ↔
          filter.accepts doc = true))) ∧
    ∀ table docs, Holds schema table docs →
      (prefilter.Fits → ∃ matching, table.select schema filter = .ok matching ∧
        (matching.map (·.2)).Perm (docs.filter filter.accepts) ∧
        ∀ entry ∈ matching, schema.keyOf? entry.2 = some entry.1) ∧
      (¬prefilter.Fits → ∃ excess, table.select schema filter =
        .error (.selectRefused (.excess (Statement.select schema prefilter).text excess))) := by
  have hcount := Prefilter.placeholders_ofConditions schema filter.conditions
  refine ⟨hcount, fun hcolumns => ?_, fun row doc hrow => ⟨fun haccepts => ?_, fun hexact => ?_⟩,
    fun table docs h => ⟨fun hfits => ⟨found schema table filter, h.select_eq_found hfits, ?_, ?_⟩,
      exists_select_eq_error table⟩⟩
  · refine (Prefilter.count_whereText fun clause hclause column hcolumn => ?_).trans hcount
    exact hcolumns column (Prefilter.column_mem_columnList hclause hcolumn)
  · exact beq_iff_eq.mp (Prefilter.accepts_of_accepts hrow haccepts)
  · rw [← Prefilter.accepts_eq_of_exact hrow hexact, Prefilter.accepts, beq_iff_eq]
  · have hperm := (h.found_perm filter).map (·.2)
    rwa [map_snd_filterMap_keyed?] at hperm
    exact fun doc hd => h.isSome_keyOf? (List.mem_of_mem_filter hd)
  · intro entry he
    obtain ⟨doc, -, hkeyed⟩ := List.mem_filterMap.mp ((h.found_perm filter).mem_iff.mp he)
    obtain ⟨key, hkey, rfl⟩ := Option.map_eq_some_iff.mp hkeyed
    exact hkey

lemma RowHolds.of_mirrors {row : Row} {doc : Document} (h : Mirrors schema (table.cell row) doc)
    (hcell : table.cell row Schema.dataColumn = some (doc.text .compact)) (hordered : doc.Ordered)
    (hreadable : doc.Readable) : RowHolds schema table row doc := by
  refine { h with text := ?_ }
  rw [hcell]
  exact (Document.ofText?_text_eq_self_iff hordered .compact).mpr hreadable

/-- A table with one row, and a filter that leaves a condition to the document. -/
theorem select_of_one_row :
    let filter := ((Filter.empty.push "package.name" (.oneOf [.string "a", .int 1])).push
      "package.version" (.equals (.string "1"))).push "package.version" (.present true)
    let doc : Document := [("package", .object [("name", .string "a"), ("version", .string "1")])]
    let table : Table :=
      ⟨"plugins", ["package_name", "package_version", "data"],
        [[some "a", some "1", some (doc.text .compact)]]⟩
    Holds .plugins table [doc] ∧ (Prefilter.ofFilter .plugins filter).exact = false ∧
      ∃ matching, table.select .plugins filter = .ok matching ∧
        (matching.map (·.2)).Perm [doc] := by
  intro filter doc table
  have hordered : doc.Ordered := by
    simp only [doc, Document.Ordered, Fields.Ascending, Value.Ordered, Value.OrderedFields,
      List.pairwise_cons, List.mem_singleton, forall_eq, List.not_mem_nil, IsEmpty.forall_iff,
      implies_true, List.Pairwise.nil, and_true]
    decide +kernel
  have hreadable : doc.Readable := by
    refine ⟨by decide, ?_⟩
    simp [doc, Value.floats, Value.floatsOfFields]
  have hholds : Holds .plugins table [doc] := by
    have hmirrors : Mirrors .plugins (table.cell [some "a", some "1", some (doc.text .compact)])
        doc := by
      refine { key := by decide +kernel, keyed := by decide +kernel, columns := ?_ }
      intro mapping hm
      obtain rfl := List.mem_singleton.mp hm
      decide +kernel
    refine ⟨by decide +kernel, .cons (.of_mirrors hmirrors ?_ hordered hreadable) .nil⟩
    decide +kernel
  have hfits : (Prefilter.ofFilter .plugins filter).Fits := ⟨by decide +kernel, by decide +kernel⟩
  obtain ⟨matching, hselect, hperm, -⟩ :=
    ((prefilter_and_select .plugins filter).2.2.2 table [doc] hholds).1 hfits
  have hfilter : [doc].filter filter.accepts = [doc] := by
    have haccepts : filter.accepts doc = true := by decide +kernel
    rw [List.filter_cons_of_pos haccepts, List.filter_nil]
  exact ⟨hholds, by decide +kernel, matching, hselect, hfilter ▸ hperm⟩

/-- A thousand conditions on the key, all of which hold of the one document. -/
theorem select_refuses_match :
    let filter : Filter := ⟨List.replicate 1000 ⟨"_id", .equals (.string "s")⟩⟩
    let doc : Document := [("_id", .string "s")]
    let table : Table := ⟨"system_settings", ["id", "data"], [[some "s", some (doc.text .compact)]]⟩
    Holds .systemSettings table [doc] ∧ filter.accepts doc = true ∧
      ∀ matching, table.select .systemSettings filter ≠ .ok matching := by
  intro filter doc table
  have hholds : Holds .systemSettings table [doc] := by
    have hmirrors : Mirrors .systemSettings (table.cell [some "s", some (doc.text .compact)]) doc :=
      { key := by decide +kernel
        keyed := by decide +kernel
        columns := fun mapping hm => absurd hm List.not_mem_nil }
    refine ⟨by decide +kernel, .cons (.of_mirrors hmirrors (by decide +kernel) ?_ ?_) .nil⟩
    · simp [doc, Document.Ordered, Fields.Ascending, Value.Ordered, Value.OrderedFields]
    · refine ⟨by decide, ?_⟩
      simp [doc, Value.floats, Value.floatsOfFields]
  refine ⟨hholds, by decide +kernel, fun matching h => ?_⟩
  have hfew : 1000 < heightLimit :=
    (Prefilter.fits_replicate_iff .systemSettings "s" 1000).mp (fits_of_select_eq_ok h)
  exact Nat.lt_irrefl _ hfew

end DocStore.Sql.Table
