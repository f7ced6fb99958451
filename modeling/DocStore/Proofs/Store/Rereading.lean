import DocStore.Proofs.Legible
import DocStore.Proofs.Nesting
import DocStore.Proofs.Store.Following

/-!
# Reading what was just written

A database takes documents of any depth, but it reads a row only when its text is nested within the
limit. So a write that succeeds leaves a collection readable exactly when the document that it
stores is `Recoverable`, and this document is then found as its text gives it back
(`find_after_write`). A path of 128 segments is enough to make a collection unreadable
(`find_after_write_fails`).
-/

namespace DocStore

open Sql (Image Table)

namespace Document

/-- A document whose text is read back as a document, maybe with other doubles. -/
def Recoverable (doc : Document) : Prop :=
  doc.nesting ≤ Value.nestingLimit ∧ doc.reread?.isSome = true

instance : DecidablePred Recoverable := fun _ => inferInstanceAs (Decidable (_ ∧ _))

lemma ofText?_text_eq_some_iff {doc later : Document} (h : doc.Ordered) (layout : Value.Layout) :
    ofText? (doc.text layout) = some later ↔
      doc.nesting ≤ Value.nestingLimit ∧ doc.reread? = some later := by
  rw [ofText?_text doc h layout]
  by_cases hn : doc.nesting ≤ Value.nestingLimit <;> simp [hn]

end Document

/-- The document that a write of the first match stores, given the match that it finds: the updated
match, or the document that is made when there is none. -/
def Update.stored? (update : Update) (filter : Filter) (upsert : Bool) :
    Option Document → Option Document
  | some old => some (update.apply old)
  | none => if upsert then some (update.create filter) else none

/-- Paths and values within the limit, and a match that could be read, give a document that is
within it too. -/
lemma Update.nesting_stored?_le {update : Update} {filter : Filter}
    (hupdate : update.Within Value.nestingLimit) (hfilter : filter.Within Value.nestingLimit)
    {upsert : Bool} {match? : Option Document}
    (hmatch : ∀ old ∈ match?, old.nesting ≤ Value.nestingLimit) :
    ∀ doc ∈ update.stored? filter upsert match?, doc.nesting ≤ Value.nestingLimit := by
  intro doc hdoc
  cases match? with
  | some old =>
    cases hdoc
    exact hupdate.nesting_apply_le (hmatch old rfl)
  | none =>
    cases upsert with
    | true =>
      cases hdoc
      exact hupdate.nesting_create_le hfilter (by decide)
    | false => cases hdoc

/-- The documents that a write leaves: the stored one is there, and all others were there before. -/
structure Takes (docs : List Document) (stored? : Option Document) (after : List Document) :
    Prop where
  stored : ∀ doc ∈ stored?, doc ∈ after
  others : ∀ other ∈ after, other ∈ stored? ∨ other ∈ docs

lemma Takes.none (docs : List Document) : Takes docs none docs :=
  ⟨by simp, fun _ ho => .inr ho⟩

lemma takes_place {docs before after : List Document} (name : String) (doc : Document)
    (h : ∀ other ∈ before ++ after, other ∈ docs) :
    Takes docs (some doc) (Collection.place name before doc after) where
  stored := by
    rintro _ ⟨⟩
    simp [Collection.place]
  others := by
    intro other ho
    rcases Collection.mem_place ho with rfl | ho
    · exact .inl rfl
    · exact .inr (h other ho)

namespace Sql.Table

variable {schema : Schema} {table : Table}

lemma Sound.exists_written (h : Sound schema table) : ∃ docs, Written schema table docs := by
  obtain ⟨docs, hrows⟩ := exists_forall₂ h.rows
  exact ⟨docs, h, hrows⟩

lemma eq_of_decode {row : Row} {key : String} {doc : Document}
    (h : table.decode schema row = .ok (key, doc)) :
    table.cell row schema.key.column = some key ∧ ∃ s, Document.ofText? s = some doc := by
  unfold decode at h
  split at h
  · cases h
  · cases h
  · rename_i hkey _
    split at h
    · rename_i hdoc
      cases h
      exact ⟨hkey, _, hdoc⟩
    · cases h

lemma Written.takes_of_match {docs : List Document} (h : Written schema table docs)
    (hschema : schema ∈ Schema.all) {filter : Filter} {key : String} {old doc : Document}
    (hfound : table.selectFirst schema filter = .ok (some (key, old))) (hdoc : doc.Ordered)
    {changed : Table} (hstore : table.store schema (some key) doc = .ok changed) :
    ∃ after, Written schema changed after ∧ Takes docs (some doc) after := by
  obtain ⟨row, hrow, hdecode⟩ := exists_decode_of_selectFirst hfound
  obtain ⟨held, hheld, hwrites⟩ := exists_right_of_forall₂ h.rows hrow
  have hkey : schema.keyOf? held = some key :=
    (hwrites.cell_key hschema h.sound.columns).symm.trans (eq_of_decode hdecode).1
  obtain ⟨before, behind, rfl⟩ := List.append_of_mem hheld
  cases hnew : schema.keyOf? doc with
  | none =>
    rw [store_of_keyOf?_eq_none hnew] at hstore
    cases hstore
  | some newKey =>
    obtain ⟨table', hstored, hwritten⟩ :=
      h.store_match (Schema.for?_name hschema) hdoc hnew hkey
    rw [hstore] at hstored
    cases hstored
    refine ⟨_, hwritten, takes_place schema.name doc fun other ho => ?_⟩
    rw [List.mem_append] at ho
    simp only [List.mem_append, List.mem_cons]
    tauto

lemma Written.takes_of_new {docs : List Document} (h : Written schema table docs)
    (hschema : schema ∈ Schema.all) {doc : Document} (hdoc : doc.Ordered) {changed : Table}
    (hstore : table.store schema none doc = .ok changed) :
    ∃ after, Written schema changed after ∧ Takes docs (some doc) after := by
  cases hnew : schema.keyOf? doc with
  | none =>
    rw [store_of_keyOf?_eq_none hnew] at hstore
    cases hstore
  | some newKey =>
    obtain ⟨table', hstored, hwritten⟩ := h.store_new (Schema.for?_name hschema) hdoc hnew
    rw [hstore] at hstored
    cases hstored
    exact ⟨_, hwritten, takes_place schema.name doc (by simp)⟩

end Sql.Table

namespace Sql.Image

variable {image after : Image} {schema : Schema} {filter : Filter} {update : Update}

lemma tableOf_store (h : image.Sound) (hschema : schema ∈ Schema.all) {previous : Option String}
    {doc : Document} (hdoc : doc.Ordered) (hstore : image.store schema previous doc = .ok after) :
    (image.tableOf schema).store schema previous doc = .ok (after.tableOf schema) := by
  rw [Image.store] at hstore
  cases htable : (image.tableOf schema).store schema previous doc with
  | error error =>
    rw [htable] at hstore
    cases hstore
  | ok table =>
    rw [htable] at hstore
    cases hstore
    have hsound := (h.tableOf hschema).store hschema hdoc htable
    rw [tableOf_setTable_self h hschema hsound.name]

/-- What a write of the first match finds in the table, and what it leaves there. -/
structure Wrote (schema : Schema) (filter : Filter) (update : Update) (upsert : Bool)
    (image after : Image) (match? : Option (String × Document)) : Prop where
  found : (image.tableOf schema).selectFirst schema filter = .ok match?
  takes : ∀ docs, Table.Written schema (image.tableOf schema) docs →
    ∃ later, Table.Written schema (after.tableOf schema) later ∧
      Takes docs (update.stored? filter upsert (match?.map (·.2))) later

lemma wrote_match (h : image.Sound) (hschema : schema ∈ Schema.all) (hupdate : update.Ordered)
    {key : String} {old : Document} (upsert : Bool)
    (hfound : (image.tableOf schema).selectFirst schema filter = .ok (some (key, old)))
    (hstore : image.store schema (some key) (update.apply old) = .ok after) :
    Wrote schema filter update upsert image after (some (key, old)) := by
  refine ⟨hfound, fun docs hdocs => ?_⟩
  have hdoc := hupdate.apply (Table.ordered_of_selectFirst hfound)
  exact hdocs.takes_of_match hschema hfound hdoc (tableOf_store h hschema hdoc hstore)

lemma wrote_new (h : image.Sound) (hschema : schema ∈ Schema.all) (hfilter : filter.Ordered)
    (hupdate : update.Ordered)
    (hfound : (image.tableOf schema).selectFirst schema filter = .ok none)
    (hstore : image.store schema none (update.create filter) = .ok after) :
    Wrote schema filter update true image after none := by
  refine ⟨hfound, fun docs hdocs => ?_⟩
  have hdoc := hupdate.create hfilter
  exact hdocs.takes_of_new hschema hdoc (tableOf_store h hschema hdoc hstore)

theorem Sound.wrote_updateOne (h : image.Sound) (hschema : schema ∈ Schema.all)
    (hfilter : filter.Ordered) (hupdate : update.Ordered) {upsert : Bool} {result : UpdateResult}
    (hafter : image.updateOne schema.name filter update upsert = .ok (result, after)) :
    ∃ match?, Wrote schema filter update upsert image after match? := by
  obtain ⟨-, -, hafter⟩ := bind_eq_ok_iff.mp hafter
  rw [Keeps.writable_name hschema, Keeps.ok_bind] at hafter
  obtain ⟨match?, hfound, hafter⟩ := bind_eq_ok_iff.mp hafter
  cases match? with
  | some entry =>
    obtain ⟨stored, hstore, heq⟩ := bind_eq_ok_iff.mp hafter
    cases heq
    exact ⟨some entry, wrote_match h hschema hupdate upsert hfound hstore⟩
  | none =>
    cases upsert with
    | true =>
      obtain ⟨stored, hstore, heq⟩ := bind_eq_ok_iff.mp hafter
      cases heq
      exact ⟨none, wrote_new h hschema hfilter hupdate hfound hstore⟩
    | false =>
      cases hafter
      exact ⟨none, hfound, fun docs hdocs => ⟨docs, hdocs, Takes.none docs⟩⟩

theorem Sound.wrote_findOneAndUpdate (h : image.Sound) (hschema : schema ∈ Schema.all)
    (hfilter : filter.Ordered) (hupdate : update.Ordered) {doc : Document}
    (hafter : image.findOneAndUpdate schema.name filter update = .ok (doc, after)) :
    ∃ match?, Wrote schema filter update true image after match? ∧
      update.stored? filter true (match?.map (·.2)) = some doc := by
  rw [Image.findOneAndUpdate, Keeps.writable_name hschema, Keeps.ok_bind] at hafter
  obtain ⟨match?, hfound, hafter⟩ := bind_eq_ok_iff.mp hafter
  cases match? with
  | some entry =>
    obtain ⟨stored, hstore, heq⟩ := bind_eq_ok_iff.mp hafter
    cases heq
    exact ⟨some entry, wrote_match h hschema hupdate true hfound hstore, rfl⟩
  | none =>
    obtain ⟨stored, hstore, heq⟩ := bind_eq_ok_iff.mp hafter
    cases heq
    exact ⟨none, wrote_new h hschema hfilter hupdate hfound hstore, rfl⟩

end Sql.Image

/-! ## What is found afterwards -/

namespace Sql.Table

variable {schema : Schema} {table : Table} {docs : List Document}

lemma select_empty (h : table.hasColumns schema.columnList = true) :
    table.select schema .empty = table.readAll schema (fun _ => true) table.rows := by
  have hvisit : table.visit (Prefilter.ofFilter schema .empty) = table.rows := by
    have hranks : table.ranksByPrimary (Prefilter.ofFilter schema .empty) = false := rfl
    rw [visit_eq_passing hranks, passing]
    exact List.filter_eq_self.mpr fun _ _ => rfl
  simp only [select, query, fault?_select_eq_none h (Prefilter.fits_empty schema), hvisit, bind,
    Except.bind]
  rfl

lemma Written.exists_contents_iff (h : Written schema table docs) (hschema : schema ∈ Schema.all) :
    (∃ found, contents schema table = .ok found) ↔ ∀ doc ∈ docs, doc.Recoverable := by
  constructor
  · rintro ⟨found, hfound⟩ doc hd
    obtain ⟨later, -, htext⟩ :=
      exists_right_of_forall₂ ((h.contents_eq_ok_iff hschema).mp hfound) hd
    rw [Document.ofText?_text_eq_some_iff (h.ordered hd)] at htext
    exact ⟨htext.1, Option.isSome_of_eq_some htext.2⟩
  · intro hall
    have hlater : ∀ doc ∈ docs, ∃ later, Document.ofText? (doc.text .compact) = some later := by
      intro doc hd
      obtain ⟨hn, hsome⟩ := hall doc hd
      obtain ⟨later, hreread⟩ := Option.isSome_iff_exists.mp hsome
      exact ⟨later, (Document.ofText?_text_eq_some_iff (h.ordered hd) _).mpr ⟨hn, hreread⟩⟩
    obtain ⟨found, hfound⟩ := exists_forall₂ hlater
    exact ⟨found, (h.contents_eq_ok_iff hschema).mpr hfound⟩

lemma Written.exists_mem_contents (h : Written schema table docs) (hschema : schema ∈ Schema.all)
    {found : List Document} (hfound : contents schema table = .ok found) {doc : Document}
    (hd : doc ∈ docs) : ∃ later ∈ found, doc.reread? = some later := by
  obtain ⟨later, hlater, htext⟩ :=
    exists_right_of_forall₂ ((h.contents_eq_ok_iff hschema).mp hfound) hd
  rw [Document.ofText?_text_eq_some_iff (h.ordered hd)] at htext
  exact ⟨later, hlater, htext.2⟩

end Sql.Table

namespace Backend

variable {schema : Schema} {db : Relational} {filter : Filter} {update : Update}

lemma find_empty (h : db.image.Sound) (hschema : schema ∈ Schema.all) :
    (Backend.relational db).find schema.name .empty =
      Table.contents schema (db.image.tableOf schema) := by
  have hcolumns := Table.hasColumns_columnList (h.tableOf hschema).columns
  rw [Backend.find, Relational.find, Schema.for?_name hschema]
  dsimp only
  rw [Table.select_empty hcolumns]
  rfl

/-- What a scan of a collection finds after a write that stored `stored?`. -/
structure FindsAfter (schema : Schema) (filter : Filter) (update : Update)
    (before after : Backend) (stored? : Option Document) : Prop where
  /-- A collection that could be read still can when its new document is recoverable. -/
  readable : (∃ docs, before.find schema.name .empty = .ok docs) →
    ((∃ docs, after.find schema.name .empty = .ok docs) ↔ ∀ doc ∈ stored?, doc.Recoverable)
  found : ∀ docs, after.find schema.name .empty = .ok docs →
    ∀ doc ∈ stored?, ∃ later ∈ docs, doc.reread? = some later
  shallow : filter.Within Value.nestingLimit → update.Within Value.nestingLimit →
    ∀ doc ∈ stored?, doc.nesting ≤ Value.nestingLimit
  recoverable : ∀ doc ∈ stored?, doc.nesting ≤ Value.nestingLimit →
    (Value.object doc).FiniteReadBack → doc.Recoverable ∧ doc.reread? = some doc.legible

lemma findsAfter_of_wrote {image : Image} (h : db.image.Sound) (himage : image.Sound)
    (hschema : schema ∈ Schema.all) {upsert : Bool} {match? : Option (String × Document)}
    (hwrote : Image.Wrote schema filter update upsert db.image image match?) :
    FindsAfter schema filter update (.relational db) (.relational { db with image })
      (update.stored? filter upsert (match?.map (·.2))) := by
  obtain ⟨docs, hdocs⟩ := (h.tableOf hschema).exists_written
  obtain ⟨later, hlater, htakes⟩ := hwrote.takes docs hdocs
  refine ⟨?_, ?_, ?_, ?_⟩
  · rw [find_empty h hschema, find_empty himage hschema, hdocs.exists_contents_iff hschema,
      hlater.exists_contents_iff hschema]
    intro hbefore
    constructor
    · exact fun hall doc hdoc => hall doc (htakes.stored doc hdoc)
    · intro hstored other ho
      rcases htakes.others other ho with ho | ho
      · exact hstored other ho
      · exact hbefore other ho
  · intro found hfound doc hdoc
    rw [find_empty himage hschema] at hfound
    exact hlater.exists_mem_contents hschema hfound (htakes.stored doc hdoc)
  · intro hfilter hupdate
    refine Update.nesting_stored?_le hupdate hfilter fun old hold => ?_
    obtain ⟨⟨key, doc⟩, hentry, rfl⟩ := Option.map_eq_some_iff.mp hold
    have hselect := hwrote.found
    rw [hentry] at hselect
    obtain ⟨row, -, hdecode⟩ := Table.exists_decode_of_selectFirst hselect
    obtain ⟨-, s, hs⟩ := Table.eq_of_decode hdecode
    exact Document.nesting_le_of_ofText? hs
  · intro doc _ hn hread
    have hreread := Document.reread?_eq_legible hread
    exact ⟨⟨hn, Option.isSome_of_eq_some hreread⟩, hreread⟩

lemma findOne_eq_of_wrote {image : Image} (hschema : schema ∈ Schema.all) {upsert : Bool}
    {match? : Option (String × Document)}
    (hwrote : Image.Wrote schema filter update upsert db.image image match?) :
    (Backend.relational db).findOne schema.name filter = .ok (match?.map (·.2)) :=
  Relational.findOne_of_selectFirst db hschema hwrote.found

lemma findsAfter_updateOne (h : db.image.Sound) (hschema : schema ∈ Schema.all)
    (hfilter : filter.Ordered) (hupdate : update.Ordered) {upsert : Bool} {result : UpdateResult}
    (hanswer : (db.updateOne schema.name filter update upsert).answer = .ok result) :
    ∃ match?, (Backend.relational db).findOne schema.name filter = .ok match? ∧
      FindsAfter schema filter update (.relational db)
        (.relational (db.updateOne schema.name filter update upsert).state)
        (update.stored? filter upsert match?) := by
  obtain ⟨image, hchange, hstate⟩ := Relational.exists_of_commit (Outcome.eq_of_answer_eq hanswer)
  obtain ⟨match?, hwrote⟩ := h.wrote_updateOne hschema hfilter hupdate hchange
  have himage := h.updateOne hfilter hupdate hchange
  refine ⟨match?.map (·.2), findOne_eq_of_wrote hschema hwrote, ?_⟩
  rw [Relational.updateOne, hstate]
  exact findsAfter_of_wrote h himage hschema hwrote

lemma findsAfter_findOneAndUpdate (h : db.image.Sound) (hschema : schema ∈ Schema.all)
    (hfilter : filter.Ordered) (hupdate : update.Ordered) {doc : Document}
    (hanswer : (db.findOneAndUpdate schema.name filter update).answer = .ok doc) :
    FindsAfter schema filter update (.relational db)
      (.relational (db.findOneAndUpdate schema.name filter update).state) (some doc) := by
  obtain ⟨image, hchange, hstate⟩ := Relational.exists_of_commit (Outcome.eq_of_answer_eq hanswer)
  obtain ⟨match?, hwrote, hstored⟩ := h.wrote_findOneAndUpdate hschema hfilter hupdate hchange
  have himage := h.findOneAndUpdate hfilter hupdate hchange
  rw [Relational.findOneAndUpdate, hstate, ← hstored]
  exact findsAfter_of_wrote h himage hschema hwrote

/-- After a write of the first match that a database takes, a collection that could be read can be
read again exactly when the stored document is nested within the limit of the reader and its doubles
are read. The document is then found as it is read back: with null in place of infinities and NaN,
as long as its finite doubles read back. Paths and values within the limit keep it within the
limit. -/
theorem find_after_write {config : Config} (hconfig : config.backend = .sqlite) {held : Held}
    (h : Reachable config held) {schema : Schema} (hschema : schema ∈ Schema.all)
    {filter : Filter} {update : Update} (hfilter : filter.Ordered) (hupdate : update.Ordered) :
    (∀ upsert result,
      (updateOne schema.name filter update upsert held).answer = .ok result →
      ∃ match?, held.1.findOne schema.name filter = .ok match? ∧
        FindsAfter schema filter update held.1
          (updateOne schema.name filter update upsert held).state.1
          (update.stored? filter upsert match?)) ∧
    ∀ doc, (findOneAndUpdate schema.name filter update held).answer = .ok doc →
      FindsAfter schema filter update held.1
        (findOneAndUpdate schema.name filter update held).state.1 (some doc) := by
  obtain ⟨backend, files⟩ := held
  obtain ⟨db, rfl, hsound⟩ := soundDatabase_of_reachable hconfig h
  constructor
  · intro upsert result hanswer
    exact findsAfter_updateOne hsound.image hschema hfilter hupdate hanswer
  · intro doc hanswer
    exact findsAfter_findOneAndUpdate hsound.image hschema hfilter hupdate hanswer

lemma exists_ok_of_any {α : Type} {answer : Except StoreError α} {p : α → Bool}
    (h : answer.toOption.any p = true) : ∃ value, answer = .ok value ∧ p value = true := by
  cases answer with
  | error error => cases h
  | ok value => exact ⟨value, rfl, h⟩

lemma find_restore_empty :
    (restore { Config.default with backend := .sqlite } (.empty "/w")).1.find "system_settings"
      .empty = .ok [] := by
  obtain ⟨docs, hdocs, hnil⟩ : ∃ docs,
      (restore { Config.default with backend := .sqlite } (.empty "/w")).1.find "system_settings"
        .empty = .ok docs ∧ docs.isEmpty = true :=
    exists_ok_of_any (by decide +kernel)
  rw [hdocs, List.isEmpty_iff.mp hnil]

/-- A setting that is infinite is found again, but not as a number. -/
theorem find_after_infinity :
    let config : Config := { Config.default with backend := .sqlite }
    let filter : Filter := .push .empty "_id" (.equals (.string "s"))
    let update : Update := ⟨[.assign "limit" (.float (.infinity false))]⟩
    let held := restore config (.empty "/w")
    Reachable config held ∧ filter.Ordered ∧ update.Ordered ∧
      ∃ doc docs later,
        (findOneAndUpdate "system_settings" filter update held).answer = .ok doc ∧
        (findOneAndUpdate "system_settings" filter update held).state.1.find "system_settings"
          .empty = .ok docs ∧
        later ∈ docs ∧ (doc.get? "limit").map Value.kind = some "float" ∧
        (later.get? "limit").map Value.kind = some "null" := by
  intro config filter update held
  have hreached : Reachable config held := reachable_restore_empty config "/w"
  have hfilter : filter.Ordered := by
    simp [filter, Filter.Ordered, Filter.push, Filter.empty, Condition.Ordered, Value.Ordered]
  have hupdate : update.Ordered := by
    simp [update, Update.Ordered, UpdateOp.Ordered, Value.Ordered]
  have hsettings : Schema.systemSettings ∈ Schema.all := by decide
  obtain ⟨doc, hanswer, hdoc⟩ : ∃ doc,
      (findOneAndUpdate "system_settings" filter update held).answer = .ok doc ∧
        decide (doc.Recoverable ∧ (doc.get? "limit").map Value.kind = some "float" ∧
          doc.reread?.bind (fun later => (later.get? "limit").map Value.kind) = some "null") =
          true :=
    exists_ok_of_any (by decide +kernel)
  obtain ⟨hrecoverable, hfloat, hnull⟩ := of_decide_eq_true hdoc
  have hafter := (find_after_write rfl hreached hsettings hfilter hupdate).2 doc hanswer
  obtain ⟨docs, hdocs⟩ :=
    (hafter.readable ⟨[], find_restore_empty⟩).mpr (by simpa using hrecoverable)
  obtain ⟨later, hlater, hreread⟩ := hafter.found docs hdocs doc rfl
  rw [hreread] at hnull
  exact ⟨hreached, hfilter, hupdate, doc, docs, later, hanswer, hdocs, hlater, hfloat, hnull⟩

/-- A path of 128 segments gives a document that the reader refuses, and with it the whole
collection. -/
theorem find_after_write_fails :
    ∃ (filter : Filter) (update : Update) (held : Held) (doc : Document),
      held = restore { Config.default with backend := .sqlite } (.empty "/w") ∧
      filter.Ordered ∧ update.Ordered ∧ held.1.find "system_settings" .empty = .ok [] ∧
      (findOneAndUpdate "system_settings" filter update held).answer = .ok doc ∧
      ∀ docs, (findOneAndUpdate "system_settings" filter update held).state.1.find
        "system_settings" .empty ≠ .ok docs := by
  let config : Config := { Config.default with backend := .sqlite }
  let filter : Filter := .push .empty "_id" (.equals (.string "s"))
  let update : Update := ⟨[.assign (".".intercalate (List.replicate 128 "a")) (.int 1)]⟩
  let held := restore config (.empty "/w")
  have hfilter : filter.Ordered := by
    simp [filter, Filter.Ordered, Filter.push, Filter.empty, Condition.Ordered, Value.Ordered]
  have hupdate : update.Ordered := by
    simp [update, Update.Ordered, UpdateOp.Ordered, Value.Ordered]
  have hempty : held.1.find "system_settings" .empty = .ok [] := find_restore_empty
  obtain ⟨doc, hanswer, hdeep⟩ : ∃ doc,
      (findOneAndUpdate "system_settings" filter update held).answer = .ok doc ∧
        decide (Value.nestingLimit < doc.nesting) = true :=
    exists_ok_of_any (by decide +kernel)
  obtain ⟨db, hdb, hsound⟩ := soundDatabase_of_reachable rfl (reachable_restore_empty config "/w")
  have hsettings : Schema.systemSettings ∈ Schema.all := by decide
  have hheld : held = (.relational db, held.2) := Prod.ext hdb rfl
  refine ⟨filter, update, held, doc, rfl, hfilter, hupdate, hempty, hanswer, ?_⟩
  rw [hheld] at hempty hanswer ⊢
  have hafter := findsAfter_findOneAndUpdate hsound.image hsettings hfilter hupdate hanswer
  intro docs hdocs
  have hrecoverable := (hafter.readable ⟨[], hempty⟩).mp ⟨docs, hdocs⟩ doc rfl
  exact absurd hrecoverable.1 (Nat.not_le.mpr (of_decide_eq_true hdeep))

end Backend

end DocStore
