import DocStore.Proofs.Sql.Image
import DocStore.Proofs.Store.Written

/-!
# Statements one after the other

The operations of a database as the statements that they consist of (`Relational.Stepwise`). A
statement finds what those before it left, and nothing is undone when one fails. Still a failure
leaves the database untouched, since each check comes before the first change, and the steps have
the outcome of the operation (`Stepwise.updateOne_eq`, `Stepwise.deleteMany_eq`,
`Stepwise.findOneAndUpdate_eq`).
-/

namespace DocStore

open Sql (Image Prefilter Statement Table sameName)

namespace Sql.Image

/-- No two tables have the same name, as in every database. -/
def NamesDiffer (image : Image) : Prop :=
  (image.tables.map (·.name.toLower)).Nodup

variable {image : Image} {schema : Schema} {table : Table}

lemma NamesDiffer.setTable (h : image.NamesDiffer) (table : Table) :
    (image.setTable table).NamesDiffer := by
  have hnames : (image.setTable table).tables.map (·.name.toLower) =
      image.tables.map (·.name.toLower) := by
    rw [Image.setTable, List.map_map]
    refine List.map_congr_left fun old _ => ?_
    by_cases hold : sameName old.name table.name = true
    · rw [Function.comp_apply, if_pos hold]
      exact (beq_iff_eq.mp hold).symm
    · rw [Function.comp_apply, if_neg hold]
  rw [NamesDiffer, hnames]
  exact h

lemma NamesDiffer.setTable_tableOf (h : image.NamesDiffer) (schema : Schema) :
    image.setTable (image.tableOf schema) = image := by
  have hkept : ∀ old ∈ image.tables,
      (if sameName old.name (image.tableOf schema).name then image.tableOf schema else old) =
        old := by
    intro old hold
    cases hfound : image.table? schema.table with
    | some table =>
      rw [tableOf, hfound, Option.getD_some]
      split
      · rename_i hsame
        exact List.inj_on_of_nodup_map h (List.mem_of_find?_eq_some hfound) hold
          (beq_iff_eq.mp hsame).symm
      · rfl
    | none =>
      have hother : sameName old.name schema.table = false := by
        simpa using List.find?_eq_none.mp hfound old hold
      rw [tableOf, hfound, Option.getD_none, Table.ofSchema, if_neg (by simp [hother])]
  rw [Image.setTable, List.map_congr_left hkept, List.map_id']

lemma tableOf_setTable (hname : table.name = (image.tableOf schema).name)
    (hmissing : image.tableOf schema = Table.ofSchema schema → table = Table.ofSchema schema) :
    (image.setTable table).tableOf schema = table := by
  rw [tableOf] at hname hmissing ⊢
  rw [table?_setTable]
  cases hfound : image.table? schema.table with
  | some old =>
    rw [hfound, Option.getD_some] at hname
    rw [Option.map_some, Option.getD_some, hname, if_pos (sameName_self _)]
  | none =>
    rw [hfound] at hmissing
    exact (hmissing rfl).symm

end Sql.Image

namespace Sql.Table

def keyFor (schema : Schema) (doc : Document) : Except StoreError String :=
  match schema.keyOf? doc with
  | some key => .ok key
  | none => .error (.missingPrimaryKey schema.name schema.key.path)

/-- Whether the statement that writes a row can be prepared. -/
def prepareWrite (schema : Schema) (table : Table) (previous : Option String) :
    Except StoreError Unit :=
  match schema.columnList.find? (!table.hasColumn ·), previous with
  | some column, some _ => .error (.updateRefused schema.table column)
  | some column, none => .error (.insertRefused schema.table column)
  | none, _ => .ok ()

/-- Whether the statement that deletes the rows of a prefilter can be prepared. -/
def prepareDelete (schema : Schema) (table : Table) (prefilter : Prefilter) :
    Except StoreError Unit :=
  match (Statement.delete schema prefilter).fault? table with
  | some fault => .error (.deleteRefused fault)
  | none => .ok ()

def writeRow (schema : Schema) (previous : Option String) (key : String) (doc : Document)
    (table : Table) : Table :=
  match previous with
  | some old => table.updateOrReplace schema.key.column old (cellsOf schema key doc)
  | none => table.insertOrReplace (cellsOf schema key doc)

variable {schema : Schema} {table : Table}

lemma store_eq (schema : Schema) (table : Table) (previous : Option String) (doc : Document) :
    table.store schema previous doc = (do
      let key ← keyFor schema doc
      table.prepareWrite schema previous
      return table.writeRow schema previous key doc) := by
  unfold store keyFor prepareWrite writeRow
  cases schema.keyOf? doc with
  | none => rfl
  | some key =>
    cases schema.columnList.find? (!table.hasColumn ·) <;> cases previous <;> rfl

lemma hasColumn_key_of_select {filter : Filter} {found : List (String × Document)}
    (h : table.select schema filter = .ok found) : table.hasColumn schema.key.column = true := by
  by_contra hcolumn
  have hfault : (Statement.select schema (.ofFilter schema filter)).fault? table ≠ none := by
    unfold Statement.fault?
    split
    · simp
    · rw [Statement.select, List.find?_cons_of_pos (by simpa using hcolumn)]
      simp
  simp only [select, query] at h
  split at h
  · cases h
  · contradiction

end Sql.Table

namespace Relational

/-- Looks something up. -/
def ask {α : Type} (db : Relational) (answer : Except StoreError α) :
    Outcome StoreError Relational α :=
  ⟨answer, db⟩

/-- Carries out a statement that changes the table of a schema. -/
def alter {α : Type} (db : Relational) (schema : Schema) (change : Table → Table × α) :
    Outcome StoreError Relational α :=
  .pass (change (db.image.tableOf schema)).2
    { db with image := db.image.setTable (change (db.image.tableOf schema)).1 }

namespace Stepwise

def write (schema : Schema) (previous : Option String) (doc : Document) (db : Relational) :
    Outcome StoreError Relational Unit :=
  (db.ask (Table.keyFor schema doc)).andThen fun key db =>
    (db.ask ((db.image.tableOf schema).prepareWrite schema previous)).andThen fun _ db =>
      db.alter schema fun table => (table.writeRow schema previous key doc, ())

/-- Deletes the rows of keys by one statement for each key. -/
def deleteEach (schema : Schema) : List String → Relational → Outcome StoreError Relational Nat
  | [], db => .pass 0 db
  | key :: rest, db =>
    (db.alter schema fun table => table.deleteKey schema key).andThen fun count db =>
      (deleteEach schema rest db).map (count + ·)

def updateOne (name : String) (filter : Filter) (update : Update) (upsert : Bool)
    (db : Relational) : Outcome StoreError Relational UpdateResult :=
  (db.ask update.requireAssignments).andThen fun _ db =>
    (db.ask (Image.writable name)).andThen fun schema db =>
      (db.ask ((db.image.tableOf schema).selectFirst schema filter)).andThen fun found db =>
        match found with
        | some (key, doc) =>
          (write schema (some key) (update.apply doc) db).map fun _ => .matched
        | none =>
          if upsert then (write schema none (update.create filter) db).map fun _ => .created
          else .pass .unmatched db

/-- The deletion by key has an error of its own, `refusal`, for a table without the key column. -/
def deleteMany (refusal : StoreError) (name : String) (filter : Filter) (db : Relational) :
    Outcome StoreError Relational Nat :=
  (db.ask (Image.writable name)).andThen fun schema db =>
    let prefilter := Prefilter.ofFilter schema filter
    if prefilter.exact then
      (db.ask ((db.image.tableOf schema).prepareDelete schema prefilter)).andThen fun _ db =>
        db.alter schema fun table =>
          table.deleteWhere fun row => prefilter.accepts (table.cell row)
    else
      (db.ask ((db.image.tableOf schema).select schema filter)).andThen fun found db =>
        (db.ask (if (db.image.tableOf schema).hasColumn schema.key.column then .ok ()
          else .error refusal)).andThen fun _ db =>
            deleteEach schema (found.map (·.1)) db

def findOneAndUpdate (name : String) (filter : Filter) (update : Update) (db : Relational) :
    Outcome StoreError Relational Document :=
  (db.ask (Image.writable name)).andThen fun schema db =>
    (db.ask ((db.image.tableOf schema).selectFirst schema filter)).andThen fun found db =>
      match found with
      | some (key, doc) =>
        (write schema (some key) (update.apply doc) db).map fun _ => update.apply doc
      | none =>
        (write schema none (update.create filter) db).map fun _ => update.create filter

end Stepwise

/-- An outcome from a database that is as it was when there is an error. -/
def Untouched {α : Type} (db : Relational) (outcome : Outcome StoreError Relational α) : Prop :=
  ∀ error, outcome.answer = .error error → outcome.state = db

variable {α β : Type} {db : Relational} {schema : Schema}

lemma untouched_ask_andThen {answer : Except StoreError α}
    {next : α → Relational → Outcome StoreError Relational β}
    (h : ∀ value, answer = .ok value → Untouched db (next value db)) :
    Untouched db ((db.ask answer).andThen next) := by
  cases answer with
  | error error => exact fun _ _ => rfl
  | ok value => exact h value rfl

lemma Untouched.map {outcome : Outcome StoreError Relational α} (h : Untouched db outcome)
    (f : α → β) : Untouched db (outcome.map f) := by
  obtain ⟨answer, state⟩ := outcome
  cases answer with
  | error error => exact fun _ _ => h error rfl
  | ok value => exact fun _ herror => by cases herror

lemma untouched_pass (value : α) (db after : Relational) :
    Untouched db (.pass value after) := by
  intro error herror
  cases herror

namespace Stepwise

lemma untouched_write (schema : Schema) (previous : Option String) (doc : Document)
    (db : Relational) : Untouched db (write schema previous doc db) :=
  untouched_ask_andThen fun _ _ => untouched_ask_andThen fun _ _ => untouched_pass _ _ _

lemma deleteEach_eq (schema : Schema) (keys : List String) (h : db.image.NamesDiffer) :
    deleteEach schema keys db =
      .pass (Table.deleteKeys schema keys (db.image.tableOf schema)).2
        { db with
          image := db.image.setTable
            (Table.deleteKeys schema keys (db.image.tableOf schema)).1 } := by
  induction keys generalizing db with
  | nil => simp only [deleteEach, Table.deleteKeys, h.setTable_tableOf]
  | cons key rest ih =>
    -- The deletions to come find the table that this one leaves, and replace it as a whole.
    let kept := ((db.image.tableOf schema).deleteKey schema key).1
    let next : Relational := { db with image := db.image.setTable kept }
    have hkept : next.image.tableOf schema = kept := by
      refine Image.tableOf_setTable rfl fun hnew => ?_
      simp only [kept, hnew]
      rfl
    have hnext : deleteEach schema rest next = _ := ih (h.setTable kept)
    rw [hkept] at hnext
    rw [deleteEach, alter, Outcome.pass_andThen, hnext]
    have hname : kept.name = (Table.deleteKeys schema rest kept).1.name := by
      rw [Table.deleteKeys_eq]
      rfl
    rw [Image.setTable_setTable hname]
    rfl

lemma answer_deleteEach (schema : Schema) (keys : List String) (db : Relational) :
    ∃ count, (deleteEach schema keys db).answer = .ok count := by
  induction keys generalizing db with
  | nil => exact ⟨0, rfl⟩
  | cons key rest ih =>
    let deletion := (db.image.tableOf schema).deleteKey schema key
    obtain ⟨count, hcount⟩ := ih { db with image := db.image.setTable deletion.1 }
    refine ⟨deletion.2 + count, ?_⟩
    rw [deleteEach, alter, Outcome.pass_andThen, Outcome.map, hcount]
    rfl

lemma untouched_updateOne (name : String) (filter : Filter) (update : Update) (upsert : Bool)
    (db : Relational) : Untouched db (updateOne name filter update upsert db) := by
  refine untouched_ask_andThen fun _ _ => untouched_ask_andThen fun schema _ =>
    untouched_ask_andThen fun found _ => ?_
  cases found with
  | some entry => exact (untouched_write schema _ _ db).map _
  | none =>
    cases upsert with
    | true => exact (untouched_write schema _ _ db).map _
    | false => exact untouched_pass _ _ _

lemma untouched_deleteMany (refusal : StoreError) (name : String) (filter : Filter)
    (db : Relational) : Untouched db (deleteMany refusal name filter db) := by
  refine untouched_ask_andThen fun schema _ => ?_
  dsimp only
  split
  · exact untouched_ask_andThen fun _ _ => untouched_pass _ _ _
  · refine untouched_ask_andThen fun found _ => untouched_ask_andThen fun _ _ => ?_
    -- Behind the last check there are only deletions, and these do not fail.
    obtain ⟨count, hcount⟩ := answer_deleteEach schema (found.map (·.1)) db
    intro error herror
    rw [hcount] at herror
    cases herror

lemma untouched_findOneAndUpdate (name : String) (filter : Filter) (update : Update)
    (db : Relational) : Untouched db (findOneAndUpdate name filter update db) := by
  refine untouched_ask_andThen fun schema _ => untouched_ask_andThen fun found _ => ?_
  cases found with
  | some entry => exact (untouched_write schema _ _ db).map _
  | none => exact (untouched_write schema _ _ db).map _

end Stepwise

/-! ## The operations are their steps -/

lemma untouched_commit (db : Relational) (change : Except StoreError (α × Image)) :
    Untouched db (db.commit change) := by
  cases change with
  | error error => exact fun _ _ => rfl
  | ok result => exact untouched_pass _ _ _

lemma ask_andThen_congr {answer : Except StoreError α}
    {next other : α → Relational → Outcome StoreError Relational β}
    (h : ∀ value, answer = .ok value → next value db = other value db) :
    (db.ask answer).andThen next = (db.ask answer).andThen other := by
  cases answer with
  | error error => rfl
  | ok value => exact h value rfl

lemma map_ask_andThen {γ : Type} (answer : Except StoreError α)
    (next : α → Relational → Outcome StoreError Relational β) (f : β → γ) :
    ((db.ask answer).andThen next).map f =
      (db.ask answer).andThen fun value db => (next value db).map f := by
  cases answer <;> rfl

lemma commit_bind (db : Relational) (answer : Except StoreError α)
    (next : α → Except StoreError (β × Image)) :
    db.commit (answer >>= next) =
      (db.ask answer).andThen fun value db => db.commit (next value) := by
  cases answer <;> rfl

namespace Stepwise

lemma commit_store (db : Relational) (schema : Schema) (previous : Option String)
    (doc : Document) (answer : α) :
    db.commit (do return (answer, ← db.image.store schema previous doc)) =
      (write schema previous doc db).map fun _ => answer := by
  have hstore : (do return (answer, ← db.image.store schema previous doc)) =
      (do
        let key ← Table.keyFor schema doc
        (db.image.tableOf schema).prepareWrite schema previous
        return (answer, db.image.setTable
          ((db.image.tableOf schema).writeRow schema previous key doc))) := by
    rw [Image.store, Table.store_eq]
    cases Table.keyFor schema doc with
    | error error => rfl
    | ok key => cases (db.image.tableOf schema).prepareWrite schema previous <;> rfl
  rw [hstore, commit_bind, write, map_ask_andThen]
  refine ask_andThen_congr fun key _ => ?_
  rw [commit_bind, map_ask_andThen]
  exact ask_andThen_congr fun _ _ => rfl

theorem updateOne_eq (name : String) (filter : Filter) (update : Update) (upsert : Bool)
    (db : Relational) :
    db.updateOne name filter update upsert = updateOne name filter update upsert db := by
  rw [Relational.updateOne, Image.updateOne, commit_bind, updateOne]
  refine ask_andThen_congr fun _ _ => ?_
  rw [commit_bind]
  refine ask_andThen_congr fun schema _ => ?_
  rw [commit_bind]
  refine ask_andThen_congr fun found _ => ?_
  cases found with
  | some entry => exact commit_store db schema _ _ _
  | none =>
    cases upsert with
    | true => exact commit_store db schema _ _ _
    | false => rfl

theorem findOneAndUpdate_eq (name : String) (filter : Filter) (update : Update)
    (db : Relational) :
    db.findOneAndUpdate name filter update = findOneAndUpdate name filter update db := by
  rw [Relational.findOneAndUpdate, Image.findOneAndUpdate, commit_bind, findOneAndUpdate]
  refine ask_andThen_congr fun schema _ => ?_
  rw [commit_bind]
  refine ask_andThen_congr fun found _ => ?_
  cases found with
  | some entry => exact commit_store db schema _ _ _
  | none => exact commit_store db schema _ _ _

theorem deleteMany_eq (refusal : StoreError) (name : String) (filter : Filter)
    (h : db.image.NamesDiffer) :
    db.deleteMany name filter = deleteMany refusal name filter db := by
  rw [Relational.deleteMany, Image.deleteMany, commit_bind, deleteMany]
  refine ask_andThen_congr fun schema _ => ?_
  rw [Table.deleteMatches]
  dsimp only
  split
  · cases hfault : (Statement.delete schema (.ofFilter schema filter)).fault?
        (db.image.tableOf schema) with
    | some fault =>
      simp only [Table.prepareDelete, hfault]
      rfl
    | none =>
      simp only [Table.prepareDelete, hfault]
      rfl
  · cases hselect : (db.image.tableOf schema).select schema filter with
    | error error => rfl
    | ok found =>
      have hcolumn := Table.hasColumn_key_of_select hselect
      change _ = (db.ask (if (db.image.tableOf schema).hasColumn schema.key.column then .ok ()
        else .error refusal)).andThen fun _ db => deleteEach schema (found.map (·.1)) db
      rw [if_pos hcolumn]
      exact (deleteEach_eq schema (found.map (·.1)) h).symm

end Stepwise

end Relational

end DocStore
