import DocStore.Proofs.Sql.Rows
import DocStore.Store.Relational

/-!
# Images that were written

An image is `Sound` when its tables are those of the conventional collections and each is sound.
Every change of an image that succeeds keeps it sound (`Image.Sound.updateOne`,
`Image.Sound.deleteMany`, `Image.Sound.findOneAndUpdate`), and so does restoring it
(`Image.restore_of_sound`).
-/

namespace DocStore.Sql

namespace Table

lemma ordered_of_decode {schema : Schema} {table : Table} {row : Row} {key : String}
    {doc : Document} (h : table.decode schema row = .ok (key, doc)) : doc.Ordered := by
  unfold decode at h
  split at h
  · cases h
  · cases h
  · split at h
    · rename_i hdoc
      cases h
      exact Document.ordered_of_ofText? hdoc
    · cases h

lemma exists_decode_of_readFirst {schema : Schema} {table : Table} {keeps : Document → Bool}
    {rows : List Row} {entry : String × Document}
    (h : table.readFirst schema keeps rows = .ok (some entry)) :
    ∃ row ∈ rows, table.decode schema row = .ok entry := by
  induction rows with
  | nil => cases h
  | cons row rest ih =>
    rw [readFirst] at h
    split at h
    · cases h
    · rename_i hdecode
      split at h
      · cases h
        exact ⟨row, by simp, hdecode⟩
      · obtain ⟨other, hother, hentry⟩ := ih h
        exact ⟨other, List.mem_cons_of_mem row hother, hentry⟩

lemma exists_decode_of_selectFirst {schema : Schema} {table : Table} {filter : Filter}
    {entry : String × Document} (h : table.selectFirst schema filter = .ok (some entry)) :
    ∃ row ∈ table.rows, table.decode schema row = .ok entry := by
  simp only [selectFirst, query, bind, Except.bind] at h
  split at h
  · cases h
  · rename_i rows hquery
    split at hquery
    · cases hquery
    · cases hquery
      obtain ⟨row, hrow, hdecode⟩ := exists_decode_of_readFirst h
      exact ⟨row, List.mem_of_mem_filter ((visit_perm table _).mem_iff.mp hrow), hdecode⟩

lemma ordered_of_selectFirst {schema : Schema} {table : Table} {filter : Filter} {key : String}
    {doc : Document} (h : table.selectFirst schema filter = .ok (some (key, doc))) :
    doc.Ordered := by
  obtain ⟨row, -, hdecode⟩ := exists_decode_of_selectFirst h
  exact ordered_of_decode hdecode

end Table

namespace Image

/-- An image with a sound table for each conventional collection, and no other table. -/
def Sound (image : Image) : Prop :=
  List.Forall₂ Table.Sound Schema.all image.tables

lemma eq_of_sameName_table : ∀ schema ∈ Schema.all, ∀ other ∈ Schema.all,
    sameName schema.table other.table = true → schema = other := by
  decide +kernel

lemma sameName_congr {a b : String} (h : sameName a b = true) (name : String) :
    sameName a name = sameName b name := by
  rw [sameName, sameName, beq_iff_eq.mp h]

lemma find?_of_forall₂ {schemas : List Schema} {tables : List Table}
    (h : List.Forall₂ Table.Sound schemas tables) {schema : Schema} (hschema : schema ∈ schemas)
    (hdistinct : ∀ other ∈ schemas, sameName other.table schema.table = true → other = schema) :
    ∃ table, tables.find? (sameName ·.name schema.table) = some table ∧
      Table.Sound schema table := by
  induction h with
  | nil => simp at hschema
  | @cons first table schemas tables htable _ ih =>
    by_cases hsame : sameName table.name schema.table = true
    · have hfirst : first = schema := hdistinct first (by simp) (htable.name ▸ hsame)
      exact ⟨table, List.find?_cons_of_pos hsame, hfirst ▸ htable⟩
    · rcases List.mem_cons.mp hschema with rfl | hschema
      · rw [htable.name] at hsame
        exact absurd (sameName_self _) hsame
      · rw [List.find?_cons_of_neg]
        · exact ih hschema fun other ho => hdistinct other (List.mem_cons_of_mem first ho)
        · exact hsame

lemma Sound.table? {image : Image} (h : image.Sound) {schema : Schema}
    (hschema : schema ∈ Schema.all) :
    image.table? schema.table = some (image.tableOf schema) ∧
      Table.Sound schema (image.tableOf schema) := by
  obtain ⟨table, hfind, hsound⟩ := find?_of_forall₂ h hschema fun other hother =>
    eq_of_sameName_table other hother schema hschema
  have htable : image.table? schema.table = some table := hfind
  rw [tableOf, htable]
  exact ⟨rfl, hsound⟩

lemma Sound.tableOf {image : Image} (h : image.Sound) {schema : Schema}
    (hschema : schema ∈ Schema.all) : Table.Sound schema (image.tableOf schema) :=
  (h.table? hschema).2

lemma table?_setTable (name : String) (table : Table) (image : Image) :
    (image.setTable table).table? name = (image.table? name).map fun old =>
      if sameName old.name table.name then table else old := by
  have hsame : (fun old : Table => sameName
      (if sameName old.name table.name then table else old).name name) =
      fun old : Table => sameName old.name name := by
    funext old
    split
    · rename_i heq
      rw [sameName_congr heq]
    · rfl
  simp only [Image.table?, setTable, List.find?_map, Function.comp_def, hsame]

lemma tableOf_setTable_self {image : Image} (h : image.Sound) {schema : Schema}
    (hschema : schema ∈ Schema.all) {table : Table} (htable : table.name = schema.table) :
    (image.setTable table).tableOf schema = table := by
  obtain ⟨hfind, hsound⟩ := h.table? hschema
  rw [Image.tableOf, table?_setTable, hfind, Option.map_some, Option.getD_some, hsound.name,
    htable, if_pos (sameName_self _)]

lemma setTable_setTable {first second : Table} (h : first.name = second.name) (image : Image) :
    (image.setTable first).setTable second = image.setTable second := by
  simp only [setTable, List.map_map, Function.comp_def, Image.mk.injEq]
  refine List.map_congr_left fun old _ => ?_
  rw [h]
  by_cases hold : sameName old.name second.name = true
  · simp [hold, h, sameName_self]
  · simp [hold]

lemma tableOf_setTable_of_ne (image : Image) {schema : Schema} {table : Table}
    (h : sameName table.name schema.table = false) :
    (image.setTable table).tableOf schema = image.tableOf schema := by
  rw [Image.tableOf, Image.tableOf, table?_setTable]
  cases hfound : image.table? schema.table with
  | none => rfl
  | some old =>
    rw [Image.table?] at hfound
    have hname := List.find?_some hfound
    rw [Option.map_some, if_neg]
    intro heq
    rw [sameName_congr heq, h] at hname
    cases hname

lemma forall₂_setTable {schemas : List Schema} {tables : List Table}
    (h : List.Forall₂ Table.Sound schemas tables) {table : Table}
    (htable : ∀ schema ∈ schemas, sameName schema.table table.name = true →
      Table.Sound schema table) :
    List.Forall₂ Table.Sound schemas
      (tables.map fun old => if sameName old.name table.name then table else old) := by
  induction h with
  | nil => exact .nil
  | @cons schema old schemas tables hold _ ih =>
    refine .cons ?_ (ih fun other ho => htable other (List.mem_cons_of_mem schema ho))
    dsimp only
    split
    · rename_i hsame
      rw [hold.name] at hsame
      exact htable schema (by simp) hsame
    · exact hold

lemma Sound.setTable {image : Image} (h : image.Sound) {schema : Schema}
    (hschema : schema ∈ Schema.all) {table : Table} (htable : Table.Sound schema table) :
    (image.setTable table).Sound := by
  refine forall₂_setTable h fun other hother hsame => ?_
  rw [htable.name] at hsame
  rw [eq_of_sameName_table other hother schema hschema hsame]
  exact htable

lemma mem_all_of_writable {name : String} {schema : Schema} (h : writable name = .ok schema) :
    schema ∈ Schema.all := by
  unfold writable Schema.for? at h
  split at h
  · rename_i hfind
    cases h
    exact List.mem_of_find?_eq_some hfind
  · cases h

lemma Sound.store {image : Image} (h : image.Sound) {schema : Schema}
    (hschema : schema ∈ Schema.all) {previous : Option String} {doc : Document}
    (hdoc : doc.Ordered) {after : Image} (hstore : image.store schema previous doc = .ok after) :
    after.Sound := by
  unfold Image.store at hstore
  cases htable : (image.tableOf schema).store schema previous doc with
  | error error =>
    rw [htable] at hstore
    cases hstore
  | ok table =>
    rw [htable] at hstore
    cases hstore
    exact h.setTable hschema ((h.tableOf hschema).store hschema hdoc htable)

/-- What becomes of an image when a document is stored for the first match of a filter. -/
lemma Sound.store_of_selectFirst {image : Image} (h : image.Sound) {schema : Schema}
    (hschema : schema ∈ Schema.all) {filter : Filter} {update : Update}
    (hupdate : update.Ordered) {key : String} {doc : Document}
    (hfound : (image.tableOf schema).selectFirst schema filter = .ok (some (key, doc)))
    {after : Image} (hstore : image.store schema (some key) (update.apply doc) = .ok after) :
    after.Sound :=
  h.store hschema (hupdate.apply (Table.ordered_of_selectFirst hfound)) hstore

theorem Sound.updateOne {image : Image} (h : image.Sound) {name : String} {filter : Filter}
    {update : Update} {upsert : Bool} (hfilter : filter.Ordered) (hupdate : update.Ordered)
    {result : UpdateResult} {after : Image}
    (hafter : image.updateOne name filter update upsert = .ok (result, after)) : after.Sound := by
  obtain ⟨-, -, hafter⟩ := bind_eq_ok_iff.mp hafter
  obtain ⟨schema, hname, hafter⟩ := bind_eq_ok_iff.mp hafter
  have hschema := mem_all_of_writable hname
  obtain ⟨match?, hfound, hafter⟩ := bind_eq_ok_iff.mp hafter
  cases match? with
  | some entry =>
    obtain ⟨stored, hstore, heq⟩ := bind_eq_ok_iff.mp hafter
    cases heq
    exact h.store_of_selectFirst hschema hupdate hfound hstore
  | none =>
    dsimp only at hafter
    split at hafter
    · obtain ⟨stored, hstore, heq⟩ := bind_eq_ok_iff.mp hafter
      cases heq
      exact h.store hschema (hupdate.create hfilter) hstore
    · cases hafter
      exact h

theorem Sound.deleteMany {image : Image} (h : image.Sound) {name : String} {filter : Filter}
    {count : Nat} {after : Image}
    (hafter : image.deleteMany name filter = .ok (count, after)) : after.Sound := by
  obtain ⟨schema, hname, hafter⟩ := bind_eq_ok_iff.mp hafter
  have hschema := mem_all_of_writable hname
  obtain ⟨⟨removed, table⟩, htable, hafter⟩ := bind_eq_ok_iff.mp hafter
  cases hafter
  exact h.setTable hschema ((h.tableOf hschema).deleteMatches htable)

theorem Sound.findOneAndUpdate {image : Image} (h : image.Sound) {name : String}
    {filter : Filter} {update : Update} (hfilter : filter.Ordered) (hupdate : update.Ordered)
    {doc : Document} {after : Image}
    (hafter : image.findOneAndUpdate name filter update = .ok (doc, after)) : after.Sound := by
  obtain ⟨schema, hname, hafter⟩ := bind_eq_ok_iff.mp hafter
  have hschema := mem_all_of_writable hname
  obtain ⟨match?, hfound, hafter⟩ := bind_eq_ok_iff.mp hafter
  cases match? with
  | some entry =>
    obtain ⟨stored, hstore, heq⟩ := bind_eq_ok_iff.mp hafter
    cases heq
    exact h.store_of_selectFirst hschema hupdate hfound hstore
  | none =>
    obtain ⟨stored, hstore, heq⟩ := bind_eq_ok_iff.mp hafter
    cases heq
    exact h.store hschema (hupdate.create hfilter) hstore

/-- The image that a database starts with when it finds none. -/
def fresh : Image := ⟨Schema.all.map Table.ofSchema⟩

lemma sound_fresh : fresh.Sound := by
  refine List.forall₂_map_right_iff.mpr (List.forall₂_same.mpr fun schema _ => ?_)
  exact Table.sound_ofSchema schema

lemma restore_none : restore none = fresh := by
  decide +kernel

lemma restore_empty : restore (some empty) = fresh := by
  decide +kernel

lemma Sound.fits {image : Image} (h : image.Sound) : image.fits = true := by
  refine List.all_eq_true.mpr fun schema hschema => List.all_eq_true.mpr fun table htable => ?_
  obtain ⟨other, hother, hsound⟩ := exists_left_of_forall₂ h htable
  by_cases hname : table.name = schema.table
  · have hsame : sameName other.table schema.table = true := by
      rw [← hname, hsound.name]
      exact sameName_self _
    obtain rfl := eq_of_sameName_table other hother schema hschema hsame
    simp [Table.hasColumns_columnList hsound.columns]
  · simp [hname]

theorem restore_of_sound {image : Image} (h : image.Sound) : restore (some image) = image := by
  have hwith : ∀ schema ∈ Schema.all, image.withSchema schema = image := by
    intro schema hschema
    rw [withSchema, (h.table? hschema).1]
  simp only [restore, h.fits, if_true]
  exact List.foldlRecOn Schema.all withSchema (motive := (· = image)) rfl
    fun current heq schema hschema => by rw [heq, hwith schema hschema]

lemma tables_ne_nil_of_sound {image : Image} (h : image.Sound) : image.tables ≠ [] := by
  intro hnil
  rw [Sound, hnil, List.forall₂_nil_right_iff] at h
  cases h

end Image

end DocStore.Sql
