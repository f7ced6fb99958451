import DocStore.Proofs.Store.RelationalRun
import DocStore.Proofs.Store.Written

/-!
# An image that follows collections

An image `Keeps` collections when each of its tables is written from the collection of its schema.
Each write then `Follows` the same write of the collection: it gives the same answer and keeps what
the collection becomes, unless it is refused because a document has no string key.
-/

namespace DocStore

open Sql (Image Prefilter Table)

/-- An image with tables written from collections. -/
structure Sql.Image.Keeps (image : Image) (collections : Collections) : Prop where
  sound : image.Sound
  rows : ∀ schema ∈ Schema.all,
    List.Forall₂ (Table.Writes schema) (image.tableOf schema).rows (collections.docs schema.name)

namespace Sql.Image.Keeps

variable {image : Image} {collections : Collections} {schema : Schema}

lemma written (h : image.Keeps collections) (hschema : schema ∈ Schema.all) :
    Table.Written schema (image.tableOf schema) (collections.docs schema.name) :=
  ⟨h.sound.tableOf hschema, h.rows schema hschema⟩

lemma fresh : Image.fresh.Keeps [] where
  sound := sound_fresh
  rows := by
    intro schema hschema
    have htable : Image.fresh.tableOf schema = Table.ofSchema schema := by
      revert schema
      decide +kernel
    rw [htable]
    exact .nil

lemma insert_docs (h : image.Keeps collections) (schema : Schema) :
    image.Keeps (Fields.insert schema.name (collections.docs schema.name) collections) := by
  refine ⟨h.sound, fun other hother => ?_⟩
  have hdocs : Collections.docs
      (Fields.insert schema.name (collections.docs schema.name) collections) other.name =
      collections.docs other.name := by
    by_cases hname : other.name = schema.name
    · rw [hname, Collections.docs_insert_self]
    · rw [Collections.docs_insert_of_ne hname]
  rw [hdocs]
  exact h.rows other hother

lemma setTable (h : image.Keeps collections) (hschema : schema ∈ Schema.all) {table : Table}
    {docs : Collection} (htable : Table.Written schema table docs) :
    (image.setTable table).Keeps (Fields.insert schema.name docs collections) := by
  refine ⟨h.sound.setTable hschema htable.sound, fun other hother => ?_⟩
  by_cases heq : other = schema
  · subst heq
    rw [tableOf_setTable_self h.sound hother htable.sound.name]
    rw [Collections.docs_insert_self]
    exact htable.rows
  · have htables : sameName table.name other.table = false := by
      rw [htable.sound.name, Bool.eq_false_iff]
      exact fun hsame => heq (eq_of_sameName_table schema hschema other hother hsame).symm
    have hnames : other.name ≠ schema.name :=
      fun hname => heq (Schema.eq_of_name_eq hother hschema hname)
    rw [tableOf_setTable_of_ne image htables, Collections.docs_insert_of_ne hnames]
    exact h.rows other hother

/-- A change of an image that answers as the change of a collection does, and keeps its result; or
it is refused because a document has no string key. -/
def Follows {α : Type} (schema : Schema) (collections : Collections)
    (change : Except StoreError (α × Image)) (expected : α × Collection) : Prop :=
  (∃ name path, change = .error (.missingPrimaryKey name path)) ∨
    ∃ after, change = .ok (expected.1, after) ∧
      after.Keeps (Fields.insert schema.name expected.2 collections)

/-- Storing a document at the place of a match, or behind the others, follows the collection. -/
lemma follows_store {α : Type} (h : image.Keeps collections) (hschema : schema ∈ Schema.all)
    {previous : Option String} {doc : Document} {docs : Collection} (answer : α)
    (hstore : ∀ key, schema.keyOf? doc = some key →
      ∃ table, (image.tableOf schema).store schema previous doc = .ok table ∧
        Table.Written schema table docs) :
    Follows schema collections
      ((image.store schema previous doc).map fun after => (answer, after)) (answer, docs) := by
  cases hkey : schema.keyOf? doc with
  | none =>
    refine .inl ⟨schema.name, schema.key.path, ?_⟩
    rw [Image.store, Table.store_of_keyOf?_eq_none hkey]
    rfl
  | some key =>
    obtain ⟨table, htable, hwritten⟩ := hstore key hkey
    refine .inr ⟨image.setTable table, ?_, h.setTable hschema hwritten⟩
    rw [Image.store, htable]
    rfl

variable {filter : Filter} {update : Update}

lemma follows_matched {α : Type} (h : image.Keeps collections) (hschema : schema ∈ Schema.all)
    (hupdate : update.Ordered) {before after : List Document} {old : Document}
    (hdocs : collections.docs schema.name = before ++ old :: after) {key : String}
    (hkey : schema.keyOf? old = some key) (answer : α) :
    Follows schema collections
      ((image.store schema (some key) (update.apply old)).map fun after => (answer, after))
      (answer, Collection.place schema.name before (update.apply old) after) := by
  have hname := Schema.for?_name hschema
  have hwritten := h.written hschema
  rw [hdocs] at hwritten
  have hold : old.Ordered := hwritten.ordered (by simp)
  exact h.follows_store hschema answer fun newKey hnew =>
    hwritten.store_match hname (hupdate.apply hold) hnew hkey

lemma follows_created {α : Type} (h : image.Keeps collections) (hschema : schema ∈ Schema.all)
    (hfilter : filter.Ordered) (hupdate : update.Ordered) (answer : α) :
    Follows schema collections
      ((image.store schema none (update.create filter)).map fun after => (answer, after))
      (answer, Collection.push schema.name (update.create filter)
        (collections.docs schema.name)) := by
  have hname := Schema.for?_name hschema
  exact h.follows_store hschema answer fun key hkey =>
    (h.written hschema).store_new hname (hupdate.create hfilter) hkey

lemma writable_name (hschema : schema ∈ Schema.all) : Image.writable schema.name = .ok schema := by
  rw [Image.writable, Schema.for?_name hschema]

lemma bind_pure_pair {α : Type} (stored : Except StoreError Image) (answer : α) :
    (stored >>= fun after => pure (answer, after)) =
      stored.map fun after => (answer, after) := by
  cases stored <;> rfl

lemma ok_bind {α β : Type} (value : α) (next : α → Except StoreError β) :
    ((.ok value : Except StoreError α) >>= next) = next value := rfl

lemma selectFirst_eq (h : image.Keeps collections) (hschema : schema ∈ Schema.all)
    (hread : ∀ doc ∈ collections.docs schema.name, doc.Readable)
    (hfits : (Prefilter.ofFilter schema filter).Fits)
    (hpick : filter.PicksOne schema (collections.docs schema.name)) :
    (image.tableOf schema).selectFirst schema filter = .ok
      ((splitFirst filter.accepts (collections.docs schema.name)).bind fun parts =>
        Table.keyed? schema parts.2.1) :=
  (h.written hschema).selectFirst_eq hschema hread hfits hpick

lemma exists_key_of_match (h : image.Keeps collections) (hschema : schema ∈ Schema.all)
    {before after : List Document} {old : Document}
    (hdocs : collections.docs schema.name = before ++ old :: after) :
    ∃ key, schema.keyOf? old = some key := by
  have hmem : old ∈ collections.docs schema.name := by simp [hdocs]
  obtain ⟨row, -, -, key, hkey, -⟩ := exists_left_of_forall₂ (h.rows schema hschema) hmem
  exact ⟨key, hkey⟩

theorem updateOne (h : image.Keeps collections) (hschema : schema ∈ Schema.all)
    (hread : ∀ doc ∈ collections.docs schema.name, doc.Readable)
    (hfits : (Prefilter.ofFilter schema filter).Fits)
    (hpick : filter.PicksOne schema (collections.docs schema.name)) (hfilter : filter.Ordered)
    (hupdate : update.Ordered) (hallowed : update.requireAssignments = .ok ()) (upsert : Bool) :
    Follows schema collections (image.updateOne schema.name filter update upsert)
      (Collection.updateOne schema.name filter update upsert (collections.docs schema.name)) := by
  simp only [Image.updateOne, hallowed, writable_name hschema, ok_bind,
    h.selectFirst_eq hschema hread hfits hpick, bind_pure_pair]
  rw [Collection.updateOne, Collection.updateFirst?]
  cases hsplit : splitFirst filter.accepts (collections.docs schema.name) with
  | some parts =>
    obtain ⟨before, old, after⟩ := parts
    have hdocs := (splitFirst_eq_some hsplit).1
    obtain ⟨key, hkey⟩ := h.exists_key_of_match hschema hdocs
    have hkeyed : Table.keyed? schema old = some (key, old) := by
      rw [Table.keyed?, hkey, Option.map_some]
    simp only [Option.bind_some, hkeyed, Option.map_some]
    exact h.follows_matched hschema hupdate hdocs hkey UpdateResult.matched
  | none =>
    simp only [Option.bind_none, Option.map_none]
    cases upsert with
    | true => exact h.follows_created hschema hfilter hupdate UpdateResult.created
    | false => exact .inr ⟨image, rfl, h.insert_docs schema⟩

theorem findOneAndUpdate (h : image.Keeps collections) (hschema : schema ∈ Schema.all)
    (hread : ∀ doc ∈ collections.docs schema.name, doc.Readable)
    (hfits : (Prefilter.ofFilter schema filter).Fits)
    (hpick : filter.PicksOne schema (collections.docs schema.name)) (hfilter : filter.Ordered)
    (hupdate : update.Ordered) :
    Follows schema collections (image.findOneAndUpdate schema.name filter update)
      (Collection.findOneAndUpdate schema.name filter update
        (collections.docs schema.name)) := by
  simp only [Image.findOneAndUpdate, writable_name hschema, ok_bind,
    h.selectFirst_eq hschema hread hfits hpick, bind_pure_pair]
  rw [Collection.findOneAndUpdate, Collection.updateFirst?]
  cases hsplit : splitFirst filter.accepts (collections.docs schema.name) with
  | some parts =>
    obtain ⟨before, old, after⟩ := parts
    have hdocs := (splitFirst_eq_some hsplit).1
    obtain ⟨key, hkey⟩ := h.exists_key_of_match hschema hdocs
    have hkeyed : Table.keyed? schema old = some (key, old) := by
      rw [Table.keyed?, hkey, Option.map_some]
    simp only [Option.bind_some, hkeyed, Option.map_some]
    exact h.follows_matched hschema hupdate hdocs hkey (update.apply old)
  | none =>
    simp only [Option.bind_none, Option.map_none]
    exact h.follows_created hschema hfilter hupdate (update.create filter)

lemma store_ne_missingPrimaryKey {doc : Document} {key : String}
    (hkey : schema.keyOf? doc = some key) (image : Image) (previous : Option String)
    {α : Type} (answer : α) (name path : String) :
    (image.store schema previous doc).map (fun after => (answer, after)) ≠
      .error (.missingPrimaryKey name path) := by
  rw [Image.store, Table.store, hkey]
  dsimp only
  split <;> simp [Except.map]

theorem findOneAndUpdate_of_keyOf? (h : image.Keeps collections) (hschema : schema ∈ Schema.all)
    (hread : ∀ doc ∈ collections.docs schema.name, doc.Readable)
    (hfits : (Prefilter.ofFilter schema filter).Fits)
    (hpick : filter.PicksOne schema (collections.docs schema.name)) (hfilter : filter.Ordered)
    (hupdate : update.Ordered) {key : String}
    (hkey : schema.keyOf? (Collection.findOneAndUpdate schema.name filter update
      (collections.docs schema.name)).1 = some key) :
    ∃ after, image.findOneAndUpdate schema.name filter update =
        .ok ((Collection.findOneAndUpdate schema.name filter update
          (collections.docs schema.name)).1, after) ∧
      after.Keeps (Fields.insert schema.name (Collection.findOneAndUpdate schema.name filter update
        (collections.docs schema.name)).2 collections) := by
  refine (h.findOneAndUpdate hschema hread hfits hpick hfilter hupdate).resolve_left ?_
  rintro ⟨name, path, hrefused⟩
  simp only [Image.findOneAndUpdate, writable_name hschema, ok_bind,
    h.selectFirst_eq hschema hread hfits hpick, bind_pure_pair] at hrefused
  rw [Collection.findOneAndUpdate, Collection.updateFirst?] at hkey
  cases hsplit : splitFirst filter.accepts (collections.docs schema.name) with
  | some parts =>
    obtain ⟨before, old, after⟩ := parts
    obtain ⟨oldKey, hold⟩ := h.exists_key_of_match hschema (splitFirst_eq_some hsplit).1
    have hkeyed : Table.keyed? schema old = some (oldKey, old) := by
      rw [Table.keyed?, hold, Option.map_some]
    rw [hsplit] at hkey
    simp only [hsplit, Option.bind_some, hkeyed] at hrefused
    exact store_ne_missingPrimaryKey hkey image _ _ name path hrefused
  | none =>
    rw [hsplit] at hkey
    simp only [hsplit, Option.bind_none] at hrefused
    exact store_ne_missingPrimaryKey hkey image _ _ name path hrefused

theorem deleteMany (h : image.Keeps collections) (hschema : schema ∈ Schema.all)
    (hread : ∀ doc ∈ collections.docs schema.name, doc.Readable)
    (hfits : (Prefilter.ofFilter schema filter).Fits) :
    Follows schema collections (image.deleteMany schema.name filter)
      (Collection.deleteMany filter (collections.docs schema.name)) := by
  obtain ⟨table, htable, hwritten⟩ := (h.written hschema).deleteMatches hschema hread hfits
  refine .inr ⟨image.setTable table, ?_, h.setTable hschema hwritten⟩
  simp only [Image.deleteMany, writable_name hschema, ok_bind, htable, Collection.deleteMany]
  rfl

end Sql.Image.Keeps

end DocStore
