import DocStore.Proofs.Sql.Rows
import DocStore.Proofs.Store.Collection

/-!
# Tables written from a collection

A table is `Written` from documents when its rows are theirs, one by one and in order. As long as
the documents read back, the table finds what the documents show (`Written.selectFirst_eq`), and
storing or removing on both sides gives a table that is written from the documents again
(`Written.store_match`, `Written.store_new`, `Written.deleteMatches`).
-/

namespace DocStore

/-- A filter whose first match does not depend on the order in which keys are visited: it compares
the key with no list, or has one match at most. -/
def Filter.PicksOne (schema : Schema) (filter : Filter) (docs : List Document) : Prop :=
  (∀ field ∈ filter.conditions, field.path = schema.key.path →
    ∀ values, field.condition ≠ .oneOf values) ∨
  (docs.filter filter.accepts).length ≤ 1

namespace Sql.Table

/-- A sound table with the rows of some documents. -/
structure Written (schema : Schema) (table : Table) (docs : List Document) : Prop where
  sound : Sound schema table
  rows : List.Forall₂ (Writes schema) table.rows docs

variable {schema : Schema} {table : Table} {docs : List Document}

lemma Written.ordered (h : Written schema table docs) {doc : Document} (hd : doc ∈ docs) :
    doc.Ordered := by
  obtain ⟨row, -, hrow⟩ := exists_left_of_forall₂ h.rows hd
  exact hrow.1

lemma Written.holds (h : Written schema table docs) (hschema : schema ∈ Schema.all)
    (hread : ∀ doc ∈ docs, doc.Readable) : Holds schema table docs where
  columns := hasColumns_columnList h.sound.columns
  rows := (forall₂_mem h.rows).imp fun _ doc ⟨hrow, hd⟩ =>
    (hrow.rowHolds_iff hschema h.sound.columns).mpr (hread doc hd)

def contents (schema : Schema) (table : Table) : Except StoreError (List Document) :=
  (table.readAll schema (fun _ => true) table.rows).map fun entries => entries.map (·.2)

lemma Writes.decode_eq (hschema : schema ∈ Schema.all)
    (hcolumns : table.columns = schema.columnList) {row : Row} {doc : Document}
    (hrow : Writes schema row doc) :
    ∃ key, table.decode schema row =
      match Document.ofText? (doc.text .compact) with
      | some later => .ok (key, later)
      | none => .error .undecodable := by
  obtain ⟨key, hkey⟩ := Option.isSome_iff_exists.mp (hrow.mirrors hschema hcolumns).keyed
  have hcell := (hrow.cell_key hschema hcolumns).trans hkey
  have hdata := hrow.cell_data hschema hcolumns
  refine ⟨key, ?_⟩
  cases hlater : Document.ofText? (doc.text .compact) <;> simp [decode, hcell, hdata, hlater]

/-- What a table gives back is what the texts of its documents denote, as long as all of them denote
one. -/
theorem Written.contents_eq_ok_iff (h : Written schema table docs) (hschema : schema ∈ Schema.all)
    {found : List Document} :
    contents schema table = .ok found ↔
      List.Forall₂ (fun doc later => Document.ofText? (doc.text .compact) = some later) docs
        found := by
  have hcolumns := h.sound.columns
  have hrows := h.rows
  unfold contents
  generalize table.rows = rows at hrows
  clear h
  induction hrows generalizing found with
  | nil => simp [readAll, Except.map, eq_comm]
  | @cons row doc rows docs hrow _ ih =>
    obtain ⟨key, hdecode⟩ := hrow.decode_eq hschema hcolumns
    rw [List.forall₂_cons_left_iff]
    simp only [readAll, hdecode, if_true, ← ih]
    cases Document.ofText? (doc.text .compact) with
    | none => simp [Except.map]
    | some later =>
      cases table.readAll schema (fun _ => true) rows with
      | error error => simp [Except.map]
      | ok entries => simp [Except.map, eq_comm]

/-- A table gives back the documents that it was written from exactly when they all read back. -/
theorem Written.contents_eq_iff (h : Written schema table docs) (hschema : schema ∈ Schema.all) :
    contents schema table = .ok docs ↔ ∀ doc ∈ docs, doc.Readable := by
  rw [h.contents_eq_ok_iff hschema, List.forall₂_same]
  exact forall₂_congr fun doc hd => Document.ofText?_text_eq_self_iff (h.ordered hd) .compact

lemma head?_filter_eq (p : Document → Bool) (docs : List Document) :
    (docs.filter p).head? = (splitFirst p docs).map (·.2.1) := by
  induction docs with
  | nil => rfl
  | cons doc rest ih =>
    cases hp : p doc with
    | true => simp [splitFirst, hp]
    | false => simp [splitFirst, hp, ih, Option.map_map, Function.comp_def]

lemma head?_filterMap_keyed? {docs : List Document}
    (h : ∀ doc ∈ docs, (schema.keyOf? doc).isSome = true) :
    (docs.filterMap (keyed? schema)).head? = docs.head?.bind (keyed? schema) := by
  cases docs with
  | nil => rfl
  | cons doc rest =>
    obtain ⟨key, hkey⟩ := Option.isSome_iff_exists.mp (h doc (by simp))
    have hentry : keyed? schema doc = some (key, doc) := by rw [keyed?, hkey, Option.map_some]
    simp [hentry]

lemma ranksByPrimary_eq_false (hschema : schema ∈ Schema.all)
    (hcolumns : table.columns = schema.columnList) {filter : Filter}
    (h : ∀ field ∈ filter.conditions, field.path = schema.key.path →
      ∀ values, field.condition ≠ .oneOf values) :
    table.ranksByPrimary (Prefilter.ofFilter schema filter) = false := by
  refine List.any_eq_false.mpr fun clause hclause => ?_
  rw [hcolumns, Schema.columnList]
  cases clause with
  | isIn column count =>
    obtain ⟨field, hfield, params, hof⟩ := Prefilter.mem_clauses_ofConditions hclause
    obtain ⟨mapping, hpath, hcompiles, hplace⟩ := Clause.exists_compiles_of_ofField? hof
    have hname := hcompiles.column_eq rfl
    obtain ⟨values, hvalues⟩ := hcompiles.exists_oneOf
    obtain ⟨hmem, -⟩ := hplace.resolve_left fun hkey =>
      h field hfield (hpath.symm.trans (by rw [hkey])) values hvalues
    -- The name of a denormalized column is not that of the key column.
    have hdistinct := (List.pairwise_cons.mp (distinctNames_columnList hschema)).1
    have hne := hdistinct mapping.column (List.mem_append_left _ (List.mem_map_of_mem hmem))
    rw [sameName_comm] at hne
    simp [hname, hne]
  | _ => simp

theorem Written.selectFirst_eq (h : Written schema table docs) (hschema : schema ∈ Schema.all)
    (hread : ∀ doc ∈ docs, doc.Readable) {filter : Filter}
    (hfits : (Prefilter.ofFilter schema filter).Fits) (hpick : filter.PicksOne schema docs) :
    table.selectFirst schema filter =
      .ok ((splitFirst filter.accepts docs).bind fun parts => keyed? schema parts.2.1) := by
  have hholds := h.holds hschema hread
  have hkeys : ∀ doc ∈ docs.filter filter.accepts, (schema.keyOf? doc).isSome = true :=
    fun doc hd => hholds.isSome_keyOf? (List.mem_of_mem_filter hd)
  have hfound : found schema table filter =
      (docs.filter filter.accepts).filterMap (keyed? schema) := by
    rcases hpick with hlists | hlength
    · exact hholds.found_eq (ranksByPrimary_eq_false hschema h.sound.columns hlists)
    · refine eq_of_perm_of_length_le_one (hholds.found_perm filter) ?_
      exact Nat.le_trans (List.length_filterMap_le _ _) hlength
  rw [hholds.selectFirst_eq_found hfits, hfound, head?_filterMap_keyed? hkeys, head?_filter_eq]
  cases splitFirst filter.accepts docs <;> rfl

lemma collides_eq {name : String} (hname : Schema.for? name = some schema) {row other : Row}
    {doc old : Document} (hrow : Writes schema row doc) (hother : Writes schema other old) :
    row.collides other = Collection.collides name doc old := by
  obtain ⟨-, key, hkey, rfl⟩ := hrow
  rw [Row.collides, primary_rowOf, primary_of_writes hother, Collection.collides, hname,
    Option.any_some, Bool.eq_iff_iff, Schema.sharesKey_eq_true_iff hkey]
  simp only [Option.isSome_some, Bool.true_and, beq_iff_eq]
  exact eq_comm

lemma forall₂_placeRow {name : String} (hname : Schema.for? name = some schema)
    {before after : List Row} {row : Row} {docsBefore docsAfter : List Document} {doc : Document}
    (hbefore : List.Forall₂ (Writes schema) before docsBefore) (hrow : Writes schema row doc)
    (hafter : List.Forall₂ (Writes schema) after docsAfter) :
    List.Forall₂ (Writes schema) (placeRow before row after)
      (Collection.place name docsBefore doc docsAfter) := by
  have hfilter : ∀ {rows docs}, List.Forall₂ (Writes schema) rows docs →
      List.Forall₂ (Writes schema) (rows.filter (!row.collides ·))
        (docs.filter (!Collection.collides name doc ·)) := by
    intro rows docs hrows
    refine List.rel_filter (fun other old hother => ?_) hrows
    dsimp only
    rw [collides_eq hname hrow hother]
  exact List.rel_append (hfilter hbefore) (.cons hrow (hfilter hafter))

theorem Written.store_match {before after : List Document} {old : Document}
    (h : Written schema table (before ++ old :: after)) {name : String}
    (hname : Schema.for? name = some schema) {doc : Document} (hdoc : doc.Ordered)
    {key oldKey : String} (hkey : schema.keyOf? doc = some key)
    (hold : schema.keyOf? old = some oldKey) :
    ∃ changed, table.store schema (some oldKey) doc = .ok changed ∧
      Written schema changed (Collection.place name before doc after) := by
  have hschema := ((Schema.for?_eq_some_iff name schema).mp hname).1
  obtain ⟨rowsBefore, rest, hrows, hbefore, hrest⟩ := exists_append_of_forall₂ h.rows
  obtain ⟨row, rowsAfter, hrow, hafter, rfl⟩ := List.forall₂_cons_right_iff.mp hrest
  have hprimary : row.primary = some oldKey := (primary_of_writes hrow).trans hold
  have hstore := h.sound.store_some hschema hkey hrows hprimary
  exact ⟨_, hstore, h.sound.store hschema hdoc hstore,
    forall₂_placeRow hname hbefore ⟨hdoc, key, hkey, rfl⟩ hafter⟩

theorem Written.store_new (h : Written schema table docs) {name : String}
    (hname : Schema.for? name = some schema) {doc : Document} (hdoc : doc.Ordered) {key : String}
    (hkey : schema.keyOf? doc = some key) :
    ∃ changed, table.store schema none doc = .ok changed ∧
      Written schema changed (Collection.push name doc docs) := by
  have hschema := ((Schema.for?_eq_some_iff name schema).mp hname).1
  have hstore := h.sound.store_none hschema hkey
  exact ⟨_, hstore, h.sound.store hschema hdoc hstore,
    forall₂_placeRow hname h.rows ⟨hdoc, key, hkey, rfl⟩ .nil⟩

lemma map_primary_eq {rows : List Row} (h : List.Forall₂ (Writes schema) rows docs) :
    rows.map Row.primary = docs.map schema.keyOf? := by
  induction h with
  | nil => rfl
  | cons hrow _ ih => rw [List.map_cons, List.map_cons, primary_of_writes hrow, ih]

lemma Written.eq_of_keyOf?_eq (h : Written schema table docs) {doc other : Document}
    (hd : doc ∈ docs) (ho : other ∈ docs) (hkey : schema.keyOf? doc = schema.keyOf? other) :
    doc = other := by
  have hnodup := h.sound.primaries
  rw [map_primary_eq h.rows] at hnodup
  exact List.inj_on_of_nodup_map hnodup hd ho hkey

lemma deleteKeys_eq (schema : Schema) (keys : List String) (table : Table) :
    deleteKeys schema keys table =
      table.deleteWhere fun row =>
        keys.any fun key => table.cell row schema.key.column == some key := by
  induction keys generalizing table with
  | nil => simp [deleteKeys, deleteWhere]
  | cons key rest ih =>
    let kept := table.rows.filter fun row => !(table.cell row schema.key.column == some key)
    let last := kept.filter fun row =>
      !rest.any fun other => table.cell row schema.key.column == some other
    have hlast : table.rows.filter (fun row => !(key :: rest).any fun other =>
        table.cell row schema.key.column == some other) = last := by
      simp only [last, kept, List.any_cons, Bool.not_or, List.filter_filter, Bool.and_comm]
    have hkept : kept.length ≤ table.rows.length := List.length_filter_le _ _
    have hshort : last.length ≤ kept.length := List.length_filter_le _ _
    simp only [deleteKeys, ih, deleteKey, deleteWhere, hlast]
    refine Prod.ext rfl ?_
    change table.rows.length - kept.length + (kept.length - last.length) =
      table.rows.length - last.length
    omega

lemma Written.deleteWhere (h : Written schema table docs) (drops : Row → Bool)
    (removes : Document → Bool)
    (hdrops : ∀ row doc, doc ∈ docs → Writes schema row doc → drops row = removes doc) :
    (table.deleteWhere drops).2 = docs.countP removes ∧
      Written schema (table.deleteWhere drops).1 (docs.filter (!removes ·)) := by
  have hrows : List.Forall₂ (Writes schema) (table.rows.filter (!drops ·))
      (docs.filter (!removes ·)) := by
    have hfilter := List.rel_filter (p := fun row => !drops row) (q := fun doc => !removes doc)
      (fun row doc ⟨hrow, hd⟩ => by
        dsimp only
        rw [hdrops row doc hd hrow]) (forall₂_mem h.rows)
    exact hfilter.imp fun _ _ hboth => hboth.1
  refine ⟨?_, h.sound.deleteWhere drops, hrows⟩
  have hlength := h.rows.length_eq
  have hlast := hrows.length_eq
  have hcount : docs.length = docs.countP removes + docs.countP (!removes ·) := by
    simpa using List.length_eq_countP_add_countP (l := docs) removes
  rw [List.countP_eq_length_filter (p := (!removes ·))] at hcount
  simp only [Table.deleteWhere]
  omega

/-- The keys that a query finds are those of the matches, and only matches have them when no two
documents share a key. -/
lemma Holds.any_key_eq (h : Holds schema table docs)
    (hdistinct : ∀ doc ∈ docs, ∀ other ∈ docs, schema.keyOf? doc = schema.keyOf? other →
      doc = other)
    (filter : Filter) {row : Row} {doc : Document} (hd : doc ∈ docs)
    (hrow : Mirrors schema (table.cell row) doc) :
    (((found schema table filter).map (·.1)).any fun key =>
      table.cell row schema.key.column == some key) = filter.accepts doc := by
  have hperm := h.found_perm filter
  rw [Bool.eq_iff_iff, List.any_eq_true]
  constructor
  · rintro ⟨key, hkey, hcell⟩
    obtain ⟨entry, hentry, rfl⟩ := List.mem_map.mp hkey
    obtain ⟨other, hother, hkeyed⟩ := List.mem_filterMap.mp (hperm.mem_iff.mp hentry)
    obtain ⟨otherKey, hotherKey, rfl⟩ := Option.map_eq_some_iff.mp hkeyed
    obtain ⟨ho, haccepts⟩ := List.mem_filter.mp hother
    rw [hrow.key, beq_iff_eq] at hcell
    rw [hdistinct doc hd other ho (hcell.trans hotherKey.symm)]
    exact haccepts
  · intro haccepts
    obtain ⟨key, hkey⟩ := Option.isSome_iff_exists.mp hrow.keyed
    refine ⟨key, List.mem_map.mpr ⟨(key, doc), hperm.mem_iff.mpr ?_, rfl⟩, ?_⟩
    · refine List.mem_filterMap.mpr ⟨doc, List.mem_filter.mpr ⟨hd, haccepts⟩, ?_⟩
      rw [keyed?, hkey, Option.map_some]
    · rw [hrow.key, hkey, beq_iff_eq]

theorem Written.deleteMatches (h : Written schema table docs) (hschema : schema ∈ Schema.all)
    (hread : ∀ doc ∈ docs, doc.Readable) {filter : Filter}
    (hfits : (Prefilter.ofFilter schema filter).Fits) :
    ∃ changed, table.deleteMatches schema filter = .ok (docs.countP filter.accepts, changed) ∧
      Written schema changed (docs.filter (!filter.accepts ·)) := by
  have hholds := h.holds hschema hread
  unfold Table.deleteMatches
  dsimp only
  cases hexact : (Prefilter.ofFilter schema filter).exact with
  | true =>
    obtain ⟨hcount, hwritten⟩ := h.deleteWhere
      (fun row => (Prefilter.ofFilter schema filter).accepts (table.cell row)) filter.accepts
      fun row doc _ hrow =>
        Prefilter.accepts_eq_of_exact (hrow.mirrors hschema h.sound.columns) hexact
    refine ⟨_, ?_, hwritten⟩
    rw [if_pos rfl, fault?_delete_eq_none hholds.columns hfits, ← hcount]
  | false =>
    obtain ⟨hcount, hwritten⟩ := h.deleteWhere _ filter.accepts
      fun row doc hd hrow => hholds.any_key_eq (fun _ hone _ ho => h.eq_of_keyOf?_eq hone ho) filter
        hd (hrow.mirrors hschema h.sound.columns)
    refine ⟨_, ?_, hwritten⟩
    rw [if_neg (by simp), hholds.select_eq_found hfits, ← hcount, ← deleteKeys_eq]
    rfl

end Sql.Table

end DocStore
