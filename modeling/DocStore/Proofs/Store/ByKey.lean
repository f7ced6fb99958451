import DocStore.Proofs.Sql.Image
import DocStore.Proofs.Store.Following

/-!
# Writes by key

A lookup by key in a sound table reads the row of the key and no other
(`Table.Sound.selectFirst_byKey`). So whatever filter a write looks for its match with, it does what
the write by the key of that match does, in a table (`Image.updateOne_eq_byKey`) as in a collection
(`Collection.updateOne_eq_byKey`).
-/

namespace DocStore

open Sql (Row Image Table Prefilter Clause)

variable {schema : Schema}

namespace Filter

/-- The filter for the document of a key. -/
def byKey (schema : Schema) (key : String) : Filter :=
  Filter.empty.push schema.key.path (.equals (.string key))

lemma accepts_byKey_iff (schema : Schema) (key : String) (doc : Document) :
    (byKey schema key).accepts doc = true ↔ schema.keyOf? doc = some key := by
  rw [Schema.keyOf?_eq_some_iff]
  simp [byKey, Filter.accepts, Filter.push, Filter.empty, Condition.holds, Option.any_eq_true,
    Value.eqv_string_iff]

lemma ordered_byKey (schema : Schema) (key : String) : (byKey schema key).Ordered := by
  simp [byKey, Filter.Ordered, Filter.push, Filter.empty, Condition.Ordered, Value.Ordered]

lemma keyOf?_seed_byKey (schema : Schema) (key : String) :
    schema.keyOf? (byKey schema key).seed = some key := by
  have hseed : (byKey schema key).seed = Document.set [] schema.key.path (.string key) := rfl
  rw [hseed, Schema.keyOf?_eq_some_iff]
  exact Document.get?_set_self _ _ _

lemma ofFilter_byKey (schema : Schema) (key : String) :
    Prefilter.ofFilter schema (byKey schema key) =
      ⟨[.equals schema.key.column], [key], true⟩ := by
  simp [byKey, Filter.push, Filter.empty, Prefilter.ofFilter, Prefilter.ofConditions,
    Clause.ofField?, Schema.columnFor?, Clause.ofCondition?]

lemma fits_byKey (schema : Schema) (key : String) :
    (Prefilter.ofFilter schema (byKey schema key)).Fits := by
  rw [ofFilter_byKey]
  exact .of_few (by simp) (by simp [Clause.placeholders, Sql.parameterLimit])

end Filter

namespace Sql

namespace Table

variable {table : Table} {filter : Filter}

lemma readFirst_of_forall (schema : Schema) (table : Table) {keeps : Document → Bool}
    (h : ∀ doc, keeps doc = true) (rows : List Row) :
    table.readFirst schema keeps rows =
      match rows.head? with
      | none => .ok none
      | some row => (table.decode schema row).map some := by
  cases rows with
  | nil => rfl
  | cons row rest =>
    simp only [readFirst, List.head?_cons]
    cases table.decode schema row with
    | error error => rfl
    | ok entry => simp [h, Except.map]

lemma Sound.visit_byKey (h : Sound schema table) (hschema : schema ∈ Schema.all) (key : String) :
    table.visit (Prefilter.ofFilter schema (.byKey schema key)) =
      table.rows.filter (·.primary == some key) := by
  have hrank : table.ranksByPrimary (Prefilter.ofFilter schema (.byKey schema key)) = false := by
    rw [Filter.ofFilter_byKey]
    rfl
  rw [visit_eq_passing hrank, passing, Filter.ofFilter_byKey]
  refine List.filter_congr fun row hrow => ?_
  rw [Bool.eq_iff_iff, beq_iff_eq, ← h.selects_iff hschema hrow]
  have heval := evalAll_cons_eq_some_true_iff (table.cell row) (.equals schema.key.column) [] []
    (rfl : _ = [key].length)
  rw [Clause.eval_equals_eq_some_true_iff, List.append_nil] at heval
  rw [Prefilter.accepts, beq_iff_eq, beq_iff_eq, heval]
  simp [evalAll]

theorem Sound.selectFirst_byKey (h : Sound schema table) (hschema : schema ∈ Schema.all)
    (key : String) :
    table.selectFirst schema (.byKey schema key) =
      match table.rows.find? (·.primary == some key) with
      | none => .ok none
      | some row => (table.decode schema row).map some := by
  have hfault :=
    fault?_select_eq_none (hasColumns_columnList h.columns) (Filter.fits_byKey schema key)
  have hkeeps : ∀ doc, residual (Prefilter.ofFilter schema (.byKey schema key))
      (.byKey schema key) doc = true := by
    intro doc
    simp [residual, Filter.ofFilter_byKey]
  simp only [selectFirst, query, hfault, bind, Except.bind]
  rw [readFirst_of_forall schema table hkeeps, h.visit_byKey hschema, List.head?_filter]

lemma primary_of_decode (h : Sound schema table) (hschema : schema ∈ Schema.all) {row : Row}
    (hrow : row ∈ table.rows) {key : String} {doc : Document}
    (hdecode : table.decode schema row = .ok (key, doc)) : row.primary = some key := by
  rw [← h.selects_iff hschema hrow]
  unfold decode at hdecode
  dsimp only at hdecode
  split at hdecode
  · cases hdecode
  · cases hdecode
  · rename_i hcell _
    split at hdecode
    · cases hdecode
      rw [hcell, beq_self_eq_true]
    · cases hdecode

lemma decode_congr {other : Table} (h : other.columns = table.columns) :
    other.decode schema = table.decode schema := by
  funext row
  simp only [decode, cell, columnName?, h]

lemma Sound.find?_primary (h : Sound schema table) {row : Row} (hrow : row ∈ table.rows)
    {key : String} (hkey : row.primary = some key) :
    table.rows.find? (·.primary == some key) = some row := by
  have hfind : (table.rows.find? (·.primary == some key)).isSome = true :=
    List.find?_isSome.mpr ⟨row, hrow, by rw [hkey, beq_self_eq_true]⟩
  obtain ⟨found, hfound⟩ := Option.isSome_iff_exists.mp hfind
  have hsame : found.primary = row.primary := by
    simpa [hkey] using List.find?_some hfound
  rw [hfound, List.inj_on_of_nodup_map h.primaries (List.mem_of_find?_eq_some hfound) hrow hsame]

theorem Sound.selectFirst_byKey_of_selectFirst (h : Sound schema table)
    (hschema : schema ∈ Schema.all) {key : String} {doc : Document}
    (hfound : table.selectFirst schema filter = .ok (some (key, doc))) :
    table.selectFirst schema (.byKey schema key) = .ok (some (key, doc)) := by
  obtain ⟨row, hrow, hdecode⟩ := exists_decode_of_selectFirst hfound
  rw [h.selectFirst_byKey hschema, h.find?_primary hrow (primary_of_decode h hschema hrow hdecode)]
  simp only [hdecode]
  rfl

end Table

namespace Image

variable {image : Image} {filter : Filter}

/-- A write through a filter does what the write by the key of its match does. -/
theorem updateOne_eq_byKey (h : image.Sound) (hschema : schema ∈ Schema.all) {key : String}
    {doc : Document}
    (hfound : (image.tableOf schema).selectFirst schema filter = .ok (some (key, doc)))
    (update : Update) (upsert : Bool) :
    image.updateOne schema.name filter update upsert =
      image.updateOne schema.name (.byKey schema key) update upsert := by
  have hbyKey := (h.tableOf hschema).selectFirst_byKey_of_selectFirst hschema hfound
  simp only [Image.updateOne, Keeps.writable_name hschema, Keeps.ok_bind, hfound, hbyKey]

theorem findOneAndUpdate_eq_byKey (h : image.Sound) (hschema : schema ∈ Schema.all) {key : String}
    {doc : Document}
    (hfound : (image.tableOf schema).selectFirst schema filter = .ok (some (key, doc)))
    (update : Update) :
    image.findOneAndUpdate schema.name filter update =
      image.findOneAndUpdate schema.name (.byKey schema key) update := by
  have hbyKey := (h.tableOf hschema).selectFirst_byKey_of_selectFirst hschema hfound
  simp only [Image.findOneAndUpdate, Keeps.writable_name hschema, Keeps.ok_bind, hfound, hbyKey]

end Image

end Sql

namespace Collection

variable {docs front back : List Document} {old : Document} {filter : Filter} {key : String}

lemma Sound.keyOf?_ne (h : Sound schema.name (front ++ old :: back))
    (hschema : schema ∈ Schema.all) (hkey : schema.keyOf? old = some key) :
    ∀ doc ∈ front ++ back, schema.keyOf? doc ≠ some key := by
  have hnodup := h.keys schema (Schema.for?_name hschema)
  rw [List.filterMap_append, List.filterMap_cons, hkey, List.nodup_middle, List.nodup_cons,
    ← List.filterMap_append] at hnodup
  exact fun doc hdoc hsame => hnodup.1 (List.mem_filterMap.mpr ⟨doc, hdoc, hsame⟩)

lemma Sound.eq_of_keyOf?_eq (h : Sound schema.name docs) (hschema : schema ∈ Schema.all)
    {doc other : Document} (hdoc : doc ∈ docs) (hother : other ∈ docs)
    (hkey : schema.keyOf? doc = some key) (hotherKey : schema.keyOf? other = some key) :
    doc = other := by
  obtain ⟨front, back, rfl⟩ := List.append_of_mem hdoc
  by_contra hne
  have hbeside : other ∈ front ++ back := by
    simpa [Ne.symm hne] using hother
  exact h.keyOf?_ne hschema hkey other hbeside hotherKey

lemma splitFirst_byKey (h : Sound schema.name (front ++ old :: back))
    (hschema : schema ∈ Schema.all) (hkey : schema.keyOf? old = some key) :
    splitFirst (Filter.byKey schema key).accepts (front ++ old :: back) =
      some (front, old, back) := by
  refine splitFirst_append (fun doc hdoc => ?_) ((Filter.accepts_byKey_iff schema key old).mpr hkey)
  rw [Bool.eq_false_iff, ne_eq, Filter.accepts_byKey_iff]
  exact h.keyOf?_ne hschema hkey doc (List.mem_append_left _ hdoc)

lemma updateFirst?_eq_byKey (h : Sound schema.name docs) (hschema : schema ∈ Schema.all)
    (hfound : (docs.filter filter.accepts).head? = some old) (hkey : schema.keyOf? old = some key)
    (update : Update) :
    updateFirst? schema.name filter update docs =
      updateFirst? schema.name (.byKey schema key) update docs := by
  rw [Table.head?_filter_eq] at hfound
  obtain ⟨⟨front, first, back⟩, hsplit, rfl⟩ := Option.map_eq_some_iff.mp hfound
  obtain ⟨rfl, -, -⟩ := splitFirst_eq_some hsplit
  rw [updateFirst?, updateFirst?, hsplit, splitFirst_byKey h hschema hkey]

lemma updateFirst?_ne_none (hfound : (docs.filter filter.accepts).head? = some old)
    (name : String) (update : Update) : updateFirst? name filter update docs ≠ none := by
  rw [Table.head?_filter_eq] at hfound
  obtain ⟨parts, hsplit, -⟩ := Option.map_eq_some_iff.mp hfound
  simp [updateFirst?, hsplit]

theorem updateOne_eq_byKey (h : Sound schema.name docs) (hschema : schema ∈ Schema.all)
    (hfound : (docs.filter filter.accepts).head? = some old) (hkey : schema.keyOf? old = some key)
    (update : Update) (upsert : Bool) :
    updateOne schema.name filter update upsert docs =
      updateOne schema.name (.byKey schema key) update upsert docs := by
  obtain ⟨changed, hchanged⟩ := Option.ne_none_iff_exists'.mp
    (updateFirst?_ne_none hfound schema.name update)
  rw [updateOne, updateOne, ← updateFirst?_eq_byKey h hschema hfound hkey, hchanged]

theorem findOneAndUpdate_eq_byKey (h : Sound schema.name docs) (hschema : schema ∈ Schema.all)
    (hfound : (docs.filter filter.accepts).head? = some old) (hkey : schema.keyOf? old = some key)
    (update : Update) :
    findOneAndUpdate schema.name filter update docs =
      findOneAndUpdate schema.name (.byKey schema key) update docs := by
  obtain ⟨changed, hchanged⟩ := Option.ne_none_iff_exists'.mp
    (updateFirst?_ne_none hfound schema.name update)
  rw [findOneAndUpdate, findOneAndUpdate, ← updateFirst?_eq_byKey h hschema hfound hkey, hchanged]

end Collection

end DocStore
