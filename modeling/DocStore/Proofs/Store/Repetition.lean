import DocStore.Proofs.Overwriting
import DocStore.Proofs.Store.RelationalRun
import DocStore.Proofs.Store.StoredDocuments

/-!
# Writes that are repeated

An update that assigns leaves its own result as it is. So a write that may make a document, carried
out again, finds the document that it stored and stores it in its place once more: nothing changes
(`updateOne_repeated`), as long as the stored document is a match, and on a database is read back as
it is. A finite double that is read back as another one is enough to have the document made anew
(`updateOne_repeated_fails`).
-/

namespace DocStore

open Sql (Row Image Table)

variable {schema : Schema} {filter : Filter} {update : Update}

lemma Update.apply_written (h : update.hasIncrement = false) (filter : Filter)
    (found : Option Document) :
    update.apply (update.written filter found) = update.written filter found := by
  cases found with
  | none => exact apply_apply h filter.seed
  | some old => exact apply_apply h old

lemma Collection.updateOne_again (name : String) (docs : Collection)
    (hassign : update.hasIncrement = false)
    (haccepts : filter.accepts (update.written filter (docs.filter filter.accepts).head?) = true) :
    updateOne name filter update true (updateOne name filter update true docs).2 =
      (.matched, (updateOne name filter update true docs).2) := by
  obtain ⟨before, after, hbefore, hafter, -⟩ := exists_place name filter update docs
  have hsplit := splitFirst_place hbefore haccepts name after
  rw [hafter, updateOne_of_splitFirst hsplit, Update.apply_written hassign, place_filter]

/-- A write to a table whose stored document is a match, and is read back as it is, changes nothing
when it is repeated. -/
lemma Sql.Image.updateOne_again {image next : Image} (h : image.Sound)
    (hschema : schema ∈ Schema.all) (hlists : ¬filter.ListsKeys schema)
    (hassign : update.hasIncrement = false) {found : Option (String × Document)}
    (hfound : (image.tableOf schema).selectFirst schema filter = .ok found)
    (hdoc : (update.written filter (found.map (·.2))).Ordered)
    (hstore : image.store schema (found.map (·.1)) (update.written filter (found.map (·.2))) =
      .ok next)
    (hread : (update.written filter (found.map (·.2))).Readable)
    (haccepts : filter.accepts (update.written filter (found.map (·.2))) = true) :
    next.updateOne schema.name filter update true = .ok (.matched, next) := by
  obtain ⟨before, after, key, hstored, -⟩ :=
    storedAt_of_store h hschema hlists hfound hdoc hstore
  have hselect := hstored.selectFirst_eq hschema hlists hdoc hread haccepts
  have hagain := hstored.store_again hschema hdoc hread haccepts
  simp only [Image.updateOne, update.requireAssignments_eq_ok_iff.mpr hassign,
    Keeps.writable_name hschema, Keeps.ok_bind, hselect, Keeps.bind_pure_pair,
    Update.apply_written hassign, hagain]
  rfl

namespace Backend

lemma updateOne_again_snapshot {kept : Snapshot} {files : FileTree} {name : String}
    {result : UpdateResult} {next : Held}
    (hfirst : updateOne name filter update true (.snapshot kept, files) = ⟨.ok result, next⟩)
    (haccepts : filter.accepts (update.written filter (kept.findOne name filter)) = true) :
    ∃ last, updateOne name filter update true next = ⟨.ok .matched, last⟩ ∧ last.1 = next.1 := by
  obtain ⟨after, left, hupdate, rfl⟩ := exists_of_ofSnapshot hfirst
  obtain ⟨hassign, hcommit⟩ := Snapshot.commit_of_updateOne hupdate
  obtain ⟨-, rfl⟩ := Snapshot.eq_of_commit hcommit
  have hsame := Collection.updateOne_again name (kept.collections.docs name) hassign haccepts
  let changed := (kept.collections.modify name
    (Collection.updateOne name filter update true)).2
  obtain ⟨later, hlater⟩ := Snapshot.commit_again hcommit
    (changed.modify name (Collection.updateOne name filter update true))
  have hchange : changed.modify name (Collection.updateOne name filter update true) =
      (.matched, changed) := by
    simp only [changed, Collections.modify, Collections.docs_insert_self, hsame,
      Fields.insert_insert_self]
  refine ⟨(.snapshot { kept with collections := changed }, later), ?_, rfl⟩
  rw [updateOne, Snapshot.updateOne, update.requireAssignments_eq_ok_iff.mpr hassign]
  dsimp only
  rw [hlater, hchange]
  rfl

lemma updateOne_again_relational {db : Relational} {files : FileTree} (h : db.image.Sound)
    {name : String} (hfilter : filter.Ordered) (hupdate : update.Ordered) {result : UpdateResult}
    {next : Held}
    (hfirst : updateOne name filter update true (.relational db, files) = ⟨.ok result, next⟩) :
    ∃ found, db.findOne name filter = .ok found ∧
      (filter.accepts (update.written filter found) = true →
        (update.written filter found).Readable →
        (∀ schema, Schema.for? name = some schema → ¬filter.ListsKeys schema) →
        ∃ last, updateOne name filter update true next = ⟨.ok .matched, last⟩ ∧
          last.1 = next.1) := by
  obtain ⟨hassign, schema, hschema, rfl, found, image, hfound, hstore, rfl⟩ :=
    exists_of_updateOne_relational hfirst
  refine ⟨found.map (·.2), Relational.findOne_of_selectFirst db hschema hfound,
    fun haccepts hread hlists => ?_⟩
  have hunlisted := hlists schema (Schema.for?_name hschema)
  have hmatch := Image.accepts_of_selectFirst h hschema hunlisted hfound
  have hordered := hupdate.written hfilter fun old hold => (hmatch old hold).1
  have hagain := Image.updateOne_again h hschema hunlisted hassign hfound hordered hstore hread
    haccepts
  refine ⟨(.relational { db with image }, files), ?_, rfl⟩
  rw [updateOne, Relational.updateOne, hagain]
  rfl

/-- A write that may make a document changes nothing when it is repeated and what it stored is a
match. A database has to read that document back as it is, and to visit its rows in order. -/
theorem updateOne_repeated {config : Config} {held : Held} (h : Reachable config held)
    {name : String} {filter : Filter} {update : Update} (hfilter : filter.Ordered)
    (hupdate : update.Ordered) {result : UpdateResult} {next : Held}
    (hfirst : updateOne name filter update true held = ⟨.ok result, next⟩) :
    ∃ found, held.1.findOne name filter = .ok found ∧
      (filter.accepts (update.written filter found) = true →
        (config.backend = .sqlite → (update.written filter found).Readable ∧
          ∀ schema, Schema.for? name = some schema → ¬filter.ListsKeys schema) →
        ∃ last, updateOne name filter update true next = ⟨.ok .matched, last⟩ ∧
          last.1 = next.1) := by
  obtain ⟨backend, files⟩ := held
  cases hconfig : config.backend with
  | snapshot =>
    obtain ⟨kept, rfl, -⟩ := soundSnapshot_of_reachable hconfig h
    exact ⟨kept.findOne name filter, rfl, fun haccepts _ =>
      updateOne_again_snapshot hfirst haccepts⟩
  | sqlite =>
    obtain ⟨db, rfl, hsound⟩ := soundDatabase_of_reachable hconfig h
    obtain ⟨found, hfound, hagain⟩ :=
      updateOne_again_relational hsound.image hfilter hupdate hfirst
    exact ⟨found, hfound, fun haccepts hread =>
      hagain haccepts (hread rfl).1 (hread rfl).2⟩

/-- A setting that is made by a write is found by the same write, which leaves it as it is. -/
theorem updateOne_repeated_of_settings :
    let config : Config := { Config.default with backend := .sqlite }
    let filter : Filter := .push .empty "_id" (.equals (.string "s"))
    let update : Update := ⟨[.assign "limits" (.object []), .assign "limits.max" (.int 1)]⟩
    let held := restore config (.empty "/w")
    Reachable config held ∧ filter.Ordered ∧ update.Ordered ∧ ∃ next last,
      updateOne "system_settings" filter update true held = ⟨.ok .created, next⟩ ∧
      updateOne "system_settings" filter update true next = ⟨.ok .matched, last⟩ ∧
      last.1 = next.1 := by
  intro config filter update held
  have hreached : Reachable config held := reachable_restore_empty config "/w"
  have hfilter : filter.Ordered := by
    simp [filter, Filter.Ordered, Filter.push, Filter.empty, Condition.Ordered, Value.Ordered]
  have hupdate : update.Ordered := by
    simp [update, Update.Ordered, UpdateOp.Ordered, Value.Ordered, Value.OrderedFields,
      Fields.Ascending]
  have hfirst : updateOne "system_settings" filter update true held =
      ⟨.ok .created, (updateOne "system_settings" filter update true held).state⟩ :=
    Outcome.eq_of_answer_eq (by decide +kernel)
  obtain ⟨found, hfound, hagain⟩ := updateOne_repeated hreached hfilter hupdate hfirst
  obtain ⟨doc?, hdoc, hnone⟩ : ∃ doc?, held.1.findOne "system_settings" filter = .ok doc? ∧
      doc?.isNone = true := exists_ok_of_any (by decide +kernel)
  obtain rfl := Except.ok.inj (hdoc.symm.trans hfound)
  obtain rfl := Option.isNone_iff_eq_none.mp hnone
  have hlists : ∀ schema, Schema.for? "system_settings" = some schema →
      ¬filter.ListsKeys schema := by
    simp [Filter.ListsKeys, filter, Filter.push, Filter.empty]
  obtain ⟨last, hsecond, hsame⟩ := hagain (by decide +kernel)
    fun _ => ⟨by decide +kernel, hlists⟩
  exact ⟨hreached, hfilter, hupdate, _, last, hfirst, hsecond, hsame⟩

/-- A finite double that is read back as another one: the setting that a write made for it is no
match any more, and the same write makes it anew. -/
theorem updateOne_repeated_fails :
    let config : Config := { Config.default with backend := .sqlite }
    let filter : Filter := (Filter.empty.push "_id" (.equals (.string "s"))).push "n"
      (.equals (.float .tenthSum))
    let update : Update := ⟨[.assign "v" (.int 1)]⟩
    let held := restore config (.empty "/w")
    Reachable config held ∧ filter.Ordered ∧ update.Ordered ∧ update.hasIncrement = false ∧
      (∀ schema, Schema.for? "system_settings" = some schema → ¬filter.ListsKeys schema) ∧
      (held.1.findOne "system_settings" filter).toOption.map Option.isNone = some true ∧
      (updateOne "system_settings" filter update true held).answer = .ok .created ∧
      filter.accepts (update.create filter) = true ∧
      (update.create filter).nesting ≤ Value.nestingLimit ∧
      (∀ x ∈ (Value.object (update.create filter)).floats, x.isFinite = true) ∧
      (updateOne "system_settings" filter update true
        (updateOne "system_settings" filter update true held).state).answer = .ok .created := by
  intro config filter update held
  have hfloats : (Value.object (update.create filter)).floats = [.tenthSum] := by decide +kernel
  refine ⟨reachable_restore_empty config "/w", ?_, ?_, rfl, ?_, by decide +kernel,
    by decide +kernel, by decide +kernel, by decide +kernel,
    by simp [hfloats, Binary64.tenthSum_finite_not_readsBack.1], by decide +kernel⟩
  · simp [filter, Filter.Ordered, Filter.push, Filter.empty, Condition.Ordered, Value.Ordered]
  · simp [update, Update.Ordered, UpdateOp.Ordered, Value.Ordered]
  · simp [Filter.ListsKeys, filter, Filter.push, Filter.empty]

end Backend

end DocStore
