import DocStore.Proofs.Store.FirstMatch
import DocStore.Proofs.Store.StoredRows

/-!
# The row of the first match

A query for the first match stops early, but gives the first of what the query for all matches gives
(`Table.selectFirst_of_select`). A write to the match puts the row of the new document in the place
of the old row, and the row that it collides with is gone (`Table.Replaces`). So in every reachable
state of a database the operations on the first match work on the first document that `find` gives
(`Backend.works_on_first_found`).
-/

namespace DocStore

open Sql (Row Image Table)

variable {schema : Schema} {filter : Filter}

namespace Sql.Table

variable {table : Table} {row : Row} {rows front back : List Row} {key newKey : String}
  {old new doc : Document}

lemma readFirst_of_readAll {keeps : Document → Bool} {entries : List (String × Document)}
    (h : table.readAll schema keeps rows = .ok entries) :
    table.readFirst schema keeps rows = .ok entries.head? := by
  induction rows generalizing entries with
  | nil =>
    cases h
    rfl
  | cons row rest ih =>
    rw [readAll] at h
    rw [readFirst]
    cases hdecode : table.decode schema row with
    | error error =>
      rw [hdecode] at h
      cases h
    | ok entry =>
      rw [hdecode] at h
      dsimp only at h ⊢
      split
      · rename_i hkeeps
        rw [if_pos hkeeps] at h
        cases hmore : table.readAll schema keeps rest with
        | error error =>
          rw [hmore] at h
          cases h
        | ok more =>
          rw [hmore] at h
          cases h
          rfl
      · rename_i hkeeps
        rw [if_neg hkeeps] at h
        exact ih h

/-- A query that may stop early gives the first of what the query for all matches gives. -/
theorem selectFirst_of_select {entries : List (String × Document)}
    (h : table.select schema filter = .ok entries) :
    table.selectFirst schema filter = .ok entries.head? := by
  obtain ⟨rows, hrows, hread⟩ := bind_eq_ok_iff.mp h
  simp only [selectFirst, hrows, bind, Except.bind]
  exact readFirst_of_readAll hread

lemma Sound.key_of_decode (h : Sound schema table) (hschema : schema ∈ Schema.all)
    (hrow : row ∈ table.rows) (hdecode : table.decode schema row = .ok (key, doc)) :
    schema.keyOf? doc = some key ∧ row.primary = some key := by
  have hlegible := h.legible_of_decode hschema hrow hdecode
  obtain ⟨other, hother, hread⟩ := hlegible.decode_eq
  obtain ⟨rfl, rfl⟩ : other = key ∧ row.document = doc := by
    simpa [hdecode, eq_comm] using hread
  exact ⟨hother, h.primary_of_legible hschema hrow hlegible hother⟩

/-- The rows that have another key. -/
def apartFrom (schema : Schema) (table : Table) (key : String) (rows : List Row) : List Row :=
  rows.filter fun row => !(table.cell row schema.key.column == some key)

/-- The table with the row of a document between others, of which none keeps its key. -/
def placed (schema : Schema) (table : Table) (front : List Row) (key : String) (doc : Document)
    (back : List Row) : Table :=
  { table with
    rows := apartFrom schema table key front ++
      rowOf schema key doc :: apartFrom schema table key back }

/-- The texts that a table has for a key. -/
def textsOf (schema : Schema) (table : Table) (key : String) : List (Option String) :=
  (table.rows.filter fun row => table.cell row schema.key.column == some key).map
    (table.cell · Schema.dataColumn)

lemma cell_placed (hschema : schema ∈ Schema.all) (hcolumns : table.columns = schema.columnList)
    {entry : String × Option String} (hentry : entry ∈ cellsOf schema key doc) :
    (placed schema table front key doc back).cell (rowOf schema key doc) entry.1 = entry.2 :=
  cell_rowOf_of_mem hschema hcolumns hentry

lemma textsOf_placed (hschema : schema ∈ Schema.all) (hcolumns : table.columns = schema.columnList)
    (front : List Row) (key : String) (doc : Document) (back : List Row) :
    textsOf schema (placed schema table front key doc back) key =
      [some (doc.text .compact)] := by
  have hkey : table.cell (rowOf schema key doc) schema.key.column = some key :=
    cell_rowOf_of_mem hschema hcolumns (by simp [cellsOf])
  have hdata : table.cell (rowOf schema key doc) Schema.dataColumn = some (doc.text .compact) :=
    cell_rowOf_of_mem hschema hcolumns (by simp [cellsOf])
  have hcell : (placed schema table front key doc back).cell = table.cell := cell_congr rfl
  have hnone : ∀ rows, (apartFrom schema table key rows).filter
      (fun row => table.cell row schema.key.column == some key) = [] := by
    intro rows
    simp [apartFrom, List.filter_filter]
  rw [textsOf, hcell, placed, List.filter_append, hnone, List.filter_cons_of_pos (by simp [hkey]),
    hnone, List.nil_append, List.map_singleton, hdata]

lemma Sound.filter_collides_eq (h : Sound schema table) (hschema : schema ∈ Schema.all)
    (hrows : ∀ row ∈ rows, row ∈ table.rows) (key : String) (doc : Document) :
    rows.filter (!(rowOf schema key doc).collides ·) = apartFrom schema table key rows := by
  refine List.filter_congr fun row hrow => congrArg _ ?_
  rw [Bool.eq_iff_iff, h.selects_iff hschema (hrows row hrow), Row.collides, primary_rowOf,
    Option.isSome_some, Bool.true_and, beq_iff_eq, eq_comm]

/-- The row of a document has become the row of another one, with all its columns. The row that had
the key of the new document, if it was another one, is gone; all other rows are as they were. -/
structure Replaces (schema : Schema) (old new : Document) (table after : Table)
    (front : List Row) (row : Row) (back : List Row) (key : String) : Prop where
  rows : table.rows = front ++ row :: back
  found : ∃ oldKey, table.decode schema row = .ok (oldKey, old) ∧
    ∀ other ∈ front ++ back, table.cell other schema.key.column ≠ some oldKey
  keyed : schema.keyOf? new = some key
  placed : after = placed schema table front key new back
  cells : ∀ entry ∈ cellsOf schema key new,
    after.cell (rowOf schema key new) entry.1 = entry.2

/-- A document that is stored for one that was read takes its row. -/
theorem Sound.exists_replaces (h : Sound schema table) (hschema : schema ∈ Schema.all)
    (hrow : row ∈ table.rows) (hdecode : table.decode schema row = .ok (key, old))
    (hnew : schema.keyOf? new = some newKey) :
    ∃ front back, table.store schema (some key) new =
        .ok (placed schema table front newKey new back) ∧
      Replaces schema old new table (placed schema table front newKey new back) front row back
        newKey := by
  obtain ⟨front, back, hrows⟩ := List.append_of_mem hrow
  obtain ⟨-, hprimary⟩ := h.key_of_decode hschema hrow hdecode
  have hfront : ∀ other ∈ front, other ∈ table.rows := by simp +contextual [hrows]
  have hback : ∀ other ∈ back, other ∈ table.rows := by simp +contextual [hrows]
  refine ⟨front, back, ?_, hrows, ⟨key, hdecode, fun other hother hcell => ?_⟩, hnew, rfl,
    fun entry hentry => cell_placed hschema h.columns hentry⟩
  · rw [h.store_some hschema hnew hrows hprimary, Table.placeRow,
      h.filter_collides_eq hschema hfront, h.filter_collides_eq hschema hback]
    rfl
  · have hmem : other ∈ table.rows := by
      rcases List.mem_append.mp hother with hother | hother
      · exact hfront other hother
      · exact hback other hother
    refine h.primary_ne hrows hprimary other hother ((h.selects_iff hschema hmem key).mp ?_)
    rw [hcell, beq_self_eq_true]

lemma Sound.store_none_eq_placed (h : Sound schema table) (hschema : schema ∈ Schema.all)
    (hkey : schema.keyOf? doc = some key) :
    table.store schema none doc = .ok (placed schema table table.rows key doc []) := by
  rw [h.store_none hschema hkey, Table.placeRow, h.filter_collides_eq hschema fun _ hrow => hrow]
  rfl

end Sql.Table

namespace Sql.Image

variable {image : Image}

/-! ## Writes to the first match -/

/-- Whether a document is stored for the first match or for none, its row is placed. -/
lemma exists_placed (h : image.Sound) (hschema : schema ∈ Schema.all)
    {found : Option (String × Document)}
    (hfound : (image.tableOf schema).selectFirst schema filter = .ok found) {doc : Document}
    {key : String} (hkey : schema.keyOf? doc = some key) :
    ∃ front back, (image.tableOf schema).store schema (found.map (·.1)) doc =
      .ok (Table.placed schema (image.tableOf schema) front key doc back) := by
  have htable := h.tableOf hschema
  cases found with
  | none => exact ⟨_, _, htable.store_none_eq_placed hschema hkey⟩
  | some entry =>
    obtain ⟨row, hrow, hdecode⟩ := Table.exists_decode_of_selectFirst hfound
    obtain ⟨front, back, hstore, -⟩ := htable.exists_replaces hschema hrow hdecode hkey
    exact ⟨front, back, hstore⟩

lemma store_of_placed (h : image.Sound) (hschema : schema ∈ Schema.all)
    {previous : Option String} {doc : Document} {front back : List Row} {key : String}
    (hstore : (image.tableOf schema).store schema previous doc =
      .ok (Table.placed schema (image.tableOf schema) front key doc back)) :
    ∃ next, image.store schema previous doc = .ok next ∧
      next.tableOf schema = Table.placed schema (image.tableOf schema) front key doc back ∧
      ∀ other ∈ Schema.all, other ≠ schema → next.tableOf other = image.tableOf other := by
  have hname := (h.tableOf hschema).name
  exact ⟨image.setTable _, by rw [Image.store, hstore, Except.map],
    tableOf_setTable_self h hschema hname,
    tableOf_setTable_of_schema_ne image hschema hname⟩

lemma updateOne_of_selectFirst (hschema : schema ∈ Schema.all) {key : String} {old : Document}
    (hfound : (image.tableOf schema).selectFirst schema filter = .ok (some (key, old)))
    {update : Update} (hassigns : update.hasIncrement = false) (upsert : Bool) :
    image.updateOne schema.name filter update upsert =
      (image.store schema (some key) (update.apply old)).map (UpdateResult.matched, ·) := by
  simp only [Image.updateOne, update.requireAssignments_eq_ok_iff.mpr hassigns,
    Keeps.writable_name hschema, Keeps.ok_bind, hfound, Keeps.bind_pure_pair]

lemma updateOne_of_none (hschema : schema ∈ Schema.all)
    (hfound : (image.tableOf schema).selectFirst schema filter = .ok none) {update : Update}
    (hassigns : update.hasIncrement = false) :
    image.updateOne schema.name filter update false = .ok (.unmatched, image) := by
  simp only [Image.updateOne, update.requireAssignments_eq_ok_iff.mpr hassigns,
    Keeps.writable_name hschema, Keeps.ok_bind, hfound]
  rfl

lemma textsOf_of_findOneAndUpdate (h : image.Sound) (hschema : schema ∈ Schema.all)
    {found : Option (String × Document)}
    (hfound : (image.tableOf schema).selectFirst schema filter = .ok found) {update : Update}
    {doc : Document} {next : Image}
    (hafter : image.findOneAndUpdate schema.name filter update = .ok (doc, next)) :
    doc = update.written filter (found.map (·.2)) ∧ ∃ key, schema.keyOf? doc = some key ∧
      Table.textsOf schema (next.tableOf schema) key = [some (doc.text .compact)] := by
  obtain ⟨other, hother, hname, match?, hmatch, hdoc, hstore⟩ :=
    exists_of_findOneAndUpdate hafter
  obtain rfl : schema = other := Schema.eq_of_name_eq hschema hother hname
  obtain rfl : match? = found := Except.ok.inj (hmatch.symm.trans hfound)
  refine ⟨hdoc, ?_⟩
  cases hkey : schema.keyOf? doc with
  | none =>
    rw [Image.store, Table.store_of_keyOf?_eq_none hkey] at hstore
    cases hstore
  | some key =>
    obtain ⟨front, back, hplaced⟩ := exists_placed h hschema hfound hkey
    obtain ⟨stored, hstored, htable, -⟩ := store_of_placed h hschema hplaced
    obtain rfl := Except.ok.inj (hstored.symm.trans hstore)
    refine ⟨key, rfl, ?_⟩
    rw [htable, Table.textsOf_placed hschema (h.tableOf hschema).columns]

end Sql.Image

namespace Relational

lemma exists_of_find (db : Relational) (hschema : schema ∈ Schema.all) {docs : List Document}
    (h : db.find schema.name filter = .ok docs) :
    ∃ entries, (db.image.tableOf schema).select schema filter = .ok entries ∧
      entries.map (·.2) = docs := by
  rw [find, Schema.for?_name hschema] at h
  dsimp only at h
  cases hselect : (db.image.tableOf schema).select schema filter with
  | error error =>
    rw [hselect] at h
    cases h
  | ok entries =>
    rw [hselect] at h
    exact ⟨entries, rfl, Except.ok.inj h⟩

end Relational

namespace Backend

/-- The operations on the first match of a filter work on the first of some documents. -/
structure WorksOnFirst (schema : Schema) (filter : Filter) (docs : List Document)
    (db : Relational) (files : FileTree) : Prop where
  first : (Backend.relational db).findOne schema.name filter = .ok docs.head?
  matched : ∀ update upsert result later, update.hasIncrement = false →
    updateOne schema.name filter update upsert (.relational db, files) = ⟨.ok result, later⟩ →
      (result.matchedCount = 1 ↔ docs ≠ [])
  replaced : ∀ old ∈ docs.head?, ∀ update upsert key, update.hasIncrement = false →
    schema.keyOf? (update.apply old) = some key →
      ∃ after front row back,
        updateOne schema.name filter update upsert (.relational db, files) =
          ⟨.ok .matched, (.relational after, files)⟩ ∧
        Table.Replaces schema old (update.apply old) (db.image.tableOf schema)
          (after.image.tableOf schema) front row back key ∧
        ∀ other ∈ Schema.all, other ≠ schema →
          after.image.tableOf other = db.image.tableOf other
  refused : ∀ old ∈ docs.head?, ∀ update upsert, update.hasIncrement = false →
    schema.keyOf? (update.apply old) = none →
      updateOne schema.name filter update upsert (.relational db, files) =
        ⟨.error (.missingPrimaryKey schema.name schema.key.path), (.relational db, files)⟩
  unmatched : docs = [] → ∀ update, update.hasIncrement = false →
    updateOne schema.name filter update false (.relational db, files) =
      ⟨.ok .unmatched, (.relational db, files)⟩
  returned : ∀ update doc later,
    findOneAndUpdate schema.name filter update (.relational db, files) = ⟨.ok doc, later⟩ →
      ∃ after key, later = (.relational after, files) ∧
        doc = update.written filter docs.head? ∧ schema.keyOf? doc = some key ∧
        Table.textsOf schema (after.image.tableOf schema) key = [some (doc.text .compact)]

lemma updateOne_of_image {db : Relational} {name : String} {update : Update} {upsert : Bool}
    {change : Except StoreError (UpdateResult × Image)}
    (h : db.image.updateOne name filter update upsert = change) (files : FileTree) :
    updateOne name filter update upsert (.relational db, files) =
      ofRelational files (db.commit change) := by
  rw [updateOne, Relational.updateOne, h]

/-- What a query for the first match finds is what the operations on it work on. -/
theorem worksOnFirst_of_selectFirst {db : Relational} (h : db.image.Sound) (files : FileTree)
    (hschema : schema ∈ Schema.all) {docs : List Document} {found : Option (String × Document)}
    (hfound : (db.image.tableOf schema).selectFirst schema filter = .ok found)
    (hdocs : found.map (·.2) = docs.head?) : WorksOnFirst schema filter docs db files := by
  have htable := h.tableOf hschema
  have hempty : found.isSome = true ↔ docs ≠ [] := by
    rw [← Option.isSome_map, hdocs, List.isSome_head?]
  have hchange : ∀ old ∈ docs.head?, ∃ key row, found = some (key, old) ∧
      row ∈ (db.image.tableOf schema).rows ∧
      (db.image.tableOf schema).decode schema row = .ok (key, old) := by
    intro old hold
    obtain ⟨⟨key, _⟩, rfl, rfl⟩ := Option.map_eq_some_iff.mp (hdocs.trans hold)
    obtain ⟨row, hrow, hdecode⟩ := Table.exists_decode_of_selectFirst hfound
    exact ⟨key, row, rfl, hrow, hdecode⟩
  constructor
  · rw [← hdocs]
    exact Relational.findOne_of_selectFirst db hschema hfound
  · intro update upsert result later _ hanswer
    have hok := congrArg Outcome.answer hanswer
    obtain ⟨after, hafter, -⟩ := Relational.exists_of_commit (Outcome.eq_of_answer_eq hok)
    rw [← hempty, ← Image.eq_matched_iff_of_selectFirst hschema hfound hafter]
    cases result <;> simp [UpdateResult.matchedCount]
  · intro old hold update upsert key hassigns hkey
    obtain ⟨oldKey, row, rfl, hrow, hdecode⟩ := hchange old hold
    obtain ⟨front, back, hstore, hreplaces⟩ := htable.exists_replaces hschema hrow hdecode hkey
    obtain ⟨next, hnext, hself, hothers⟩ := Image.store_of_placed h hschema hstore
    refine ⟨{ db with image := next }, front, row, back, ?_, ?_, hothers⟩
    · rw [updateOne_of_image (Image.updateOne_of_selectFirst hschema hfound hassigns upsert), hnext]
      rfl
    · rwa [hself]
  · intro old hold update upsert hassigns hkey
    obtain ⟨oldKey, row, rfl, -, -⟩ := hchange old hold
    rw [updateOne_of_image (Image.updateOne_of_selectFirst hschema hfound hassigns upsert),
      Image.store, Table.store_of_keyOf?_eq_none hkey]
    rfl
  · intro hnil update hassigns
    obtain rfl : found = none := by
      rw [hnil] at hdocs
      exact Option.map_eq_none_iff.mp hdocs
    rw [updateOne_of_image (Image.updateOne_of_none hschema hfound hassigns)]
    rfl
  · intro update doc later hanswer
    have hok := congrArg Outcome.answer hanswer
    obtain ⟨next, hafter, -⟩ := Relational.exists_of_commit (Outcome.eq_of_answer_eq hok)
    obtain ⟨hdoc, key, hkey, htexts⟩ :=
      Image.textsOf_of_findOneAndUpdate h hschema hfound hafter
    refine ⟨{ db with image := next }, key, ?_, hdocs ▸ hdoc, hkey, htexts⟩
    have hstate := congrArg Outcome.state hanswer
    rw [findOneAndUpdate, Relational.findOneAndUpdate, hafter] at hstate
    exact hstate.symm

/-- In every reachable state of a database, where `find` gives some documents: the operations on the
first match work on the first of them. -/
theorem works_on_first_found {config : Config} (hconfig : config.backend = .sqlite) {held : Held}
    (hreached : Reachable config held) (hschema : schema ∈ Schema.all) {docs : List Document}
    (hfind : held.1.find schema.name filter = .ok docs) :
    ∃ db, held.1 = .relational db ∧ WorksOnFirst schema filter docs db held.2 := by
  obtain ⟨db, hdb, hsound⟩ := soundDatabase_of_reachable hconfig hreached
  obtain ⟨backend, files⟩ := held
  obtain rfl := hdb
  obtain ⟨entries, hselect, rfl⟩ := Relational.exists_of_find db hschema hfind
  have hfound := Table.selectFirst_of_select hselect
  exact ⟨db, rfl, worksOnFirst_of_selectFirst hsound.image files hschema hfound (by simp)⟩

/-- Of two settings the first is given the key of the other one. It takes its own row, and the row
behind it is gone. -/
theorem works_on_first_found_of_settings :
    let config : Config := { Config.default with backend := .sqlite }
    let held := upserted .systemSettings "a" (upserted .systemSettings "b"
      (restore config (.empty "/w")))
    let filter : Filter := .push .empty "_id" (.present true)
    let update : Update := ⟨[.assign "_id" (.string "a")]⟩
    ∃ old docs db after front row back, Reachable config held ∧
      held.1.find "system_settings" filter = .ok (old :: docs) ∧ docs.length = 1 ∧
      held.1 = .relational db ∧ WorksOnFirst .systemSettings filter (old :: docs) db held.2 ∧
      updateOne "system_settings" filter update false held =
        ⟨.ok .matched, (.relational after, held.2)⟩ ∧
      Table.Replaces .systemSettings old (update.apply old) (db.image.tableOf .systemSettings)
        (after.image.tableOf .systemSettings) front row back "a" ∧
      (Backend.relational after).count "system_settings" = 1 := by
  intro config held filter update
  obtain ⟨-, -, -, hreached⟩ := inserted_settings.written rfl rfl (by decide)
  obtain ⟨docs, hfind, hdocs⟩ : ∃ docs, held.1.find "system_settings" filter = .ok docs ∧ _ :=
    exists_ok_of_any (p := fun docs => docs.length == 2 &&
      docs.head?.bind (fun old => Schema.systemSettings.keyOf? (update.apply old)) == some "a")
      (by decide +kernel)
  have hschema : Schema.systemSettings ∈ Schema.all := by decide
  obtain ⟨db, hdb, hworks⟩ := works_on_first_found rfl hreached hschema hfind
  match docs with
  | [] => cases hdocs
  | old :: docs =>
    obtain ⟨hlength, hkey⟩ : docs.length = 1 ∧
        Schema.systemSettings.keyOf? (update.apply old) = some "a" := by
      simpa using hdocs
    obtain ⟨after, front, row, back, hupdate, hreplaces, -⟩ :=
      hworks.replaced old rfl update false "a" rfl hkey
    have hheld : held = (.relational db, held.2) := Prod.ext hdb rfl
    have hcount : (updateOne "system_settings" filter update false held).state.1.count
        "system_settings" = 1 := by
      decide +kernel
    rw [← hheld] at hupdate
    have hlater := congrArg (fun outcome => outcome.state.1.count "system_settings") hupdate
    exact ⟨old, docs, db, after, front, row, back, hreached, hfind, hlength, hdb, hworks, hupdate,
      hreplaces, hlater.symm.trans hcount⟩

end Backend

end DocStore
