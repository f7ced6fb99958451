import DocStore.Proofs.Seeding
import DocStore.Proofs.Store.RelationalRun
import DocStore.Proofs.Store.StoredDocuments

/-!
# Documents that a write made

A document that is made for a filter that describes it, by an update that avoids the filter, is a
match. It stands behind the others, so the same write once more updates it in the last place
(`Backend.UpdatesLast`) and makes no second one (`created_is_updated`), as long as a database reads
it back as it is. A finite double that is read back as another one is enough to have it made anew
(`created_is_updated_fails`).
-/

namespace DocStore

open Sql (Row Image Table)

variable {schema : Schema} {filter : Filter} {update : Update}

lemma Filter.Describes.not_listsKeys (h : filter.Describes) (schema : Schema) :
    ¬filter.ListsKeys schema := by
  rintro ⟨field, hfield, -, values, hlist⟩
  obtain ⟨value, hvalue, -⟩ := h.equals field hfield
  rw [hlist] at hvalue
  cases hvalue

lemma Update.Avoids.keyOf?_apply_create (h : update.Avoids filter) {key : String}
    (hkey : schema.keyOf? (update.create filter) = some key) :
    schema.keyOf? (update.apply (update.create filter)) = some key := by
  rw [Schema.keyOf?_eq_some_iff] at hkey ⊢
  exact h.get?_apply_create hkey

lemma Collections.modify_eq {α : Type} {collections : Collections} {name : String}
    {change : Collection → α × Collection} {answer : α} {docs : Collection}
    (h : change (collections.docs name) = (answer, docs)) :
    collections.modify name change = (answer, Fields.insert name docs collections) := by
  rw [modify, h]

namespace Collection

variable {docs : Collection}

/-- A write that makes a document puts it behind the others. When it is a match, the same write
updates it there. -/
lemma findOneAndUpdate_created (hnone : (docs.filter filter.accepts).head? = none)
    (haccepts : filter.accepts (update.create filter) = true) (name : String) :
    ∃ front, findOneAndUpdate name filter update docs =
        (update.create filter, front ++ [update.create filter]) ∧
      ((front ++ [update.create filter]).filter filter.accepts).head? =
        some (update.create filter) ∧
      findOneAndUpdate name filter update (front ++ [update.create filter]) =
        (update.apply (update.create filter),
          front.filter (!collides name (update.apply (update.create filter)) ·) ++
            [update.apply (update.create filter)]) := by
  obtain ⟨before, after, hbefore, -, hmade, hlast⟩ := exists_place name filter update docs
  obtain ⟨rfl, rfl⟩ := hlast hnone
  rw [hnone] at hmade
  have hsplit := splitFirst_place hbefore haccepts name []
  refine ⟨before.filter (!collides name (update.create filter) ·), hmade, ?_,
    findOneAndUpdate_of_splitFirst hsplit name update⟩
  rw [Sql.Table.head?_filter_eq]
  exact congrArg (Option.map (·.2.1)) hsplit

end Collection

namespace Sql

lemma Image.findOneAndUpdate_created {image next : Image} (h : image.Sound)
    (hschema : schema ∈ Schema.all) (hlists : ¬filter.ListsKeys schema)
    (havoids : update.Avoids filter)
    (hnone : (image.tableOf schema).selectFirst schema filter = .ok none)
    (hdoc : (update.create filter).Ordered)
    (hstore : image.store schema none (update.create filter) = .ok next)
    (hread : (update.create filter).Readable)
    (haccepts : filter.accepts (update.create filter) = true) :
    ∃ front key table, next.Sound ∧ table.name = schema.table ∧
      (next.tableOf schema).rows = front ++ [rowOf schema key (update.create filter)] ∧
      table.rows = front ++ [rowOf schema key (update.apply (update.create filter))] ∧
      (next.tableOf schema).selectFirst schema filter =
        .ok (some (key, update.create filter)) ∧
      next.findOneAndUpdate schema.name filter update =
        .ok (update.apply (update.create filter), next.setTable table) := by
  obtain ⟨before, after, key, hstored, hlast⟩ :=
    storedAt_of_store h hschema hlists hnone hdoc hstore
  obtain ⟨rfl, rfl⟩ := hlast rfl
  have htable := hstored.sound.tableOf hschema
  have hfound := hstored.foundIn hschema hdoc hread haccepts
  have hselect := hstored.selectFirst_eq hschema hlists hdoc hread haccepts
  have hsame : (rowOf schema key (update.apply (update.create filter))).primary =
      (rowOf schema key (update.create filter)).primary := rfl
  have hagain := hfound.store_eq htable hschema (havoids.keyOf?_apply_create hstored.keyed)
  have hrows := hfound.rows
  rw [Table.placeRow_filter hsame] at hagain
  rw [List.filter_nil] at hagain hrows
  generalize (image.tableOf schema).rows.filter _ = front at hagain hrows
  refine ⟨front, key, { next.tableOf schema with
    rows := front ++ [rowOf schema key (update.apply (update.create filter))] },
    hstored.sound, htable.name, hrows, rfl, hselect, ?_⟩
  simp only [Image.findOneAndUpdate, Keeps.writable_name hschema, Keeps.ok_bind, hselect,
    Image.store, hagain]
  rfl

end Sql

namespace Backend

/-- The last document of a collection is updated in its place. Nothing else changes, but that in a
snapshot the documents are gone which have the value at the key path that the document has then. -/
def UpdatesLast (name : String) (doc updated : Document) : Backend → Backend → Prop
  | .snapshot kept, .snapshot later => ∃ front, kept.collections.docs name = front ++ [doc] ∧
      later.collections.docs name =
        front.filter (!Collection.collides name updated ·) ++ [updated] ∧
      ∀ other, other ≠ name → later.collections.docs other = kept.collections.docs other
  | .relational db, .relational later => ∃ schema front key, Schema.for? name = some schema ∧
      (db.image.tableOf schema).rows = front ++ [Sql.rowOf schema key doc] ∧
      (later.image.tableOf schema).rows = front ++ [Sql.rowOf schema key updated] ∧
      ∀ other ∈ Schema.all, other ≠ schema → later.image.tableOf other = db.image.tableOf other
  | _, _ => False

lemma UpdatesLast.count_le {name : String} {doc updated : Document} {before after : Backend}
    (h : UpdatesLast name doc updated before after) : after.count name ≤ before.count name := by
  cases before with
  | snapshot kept =>
    cases after with
    | relational => exact h.elim
    | snapshot later =>
      obtain ⟨front, hbefore, hafter, -⟩ := h
      simp only [count, Snapshot.count, hbefore, hafter, List.length_append, List.length_singleton]
      exact Nat.add_le_add_right (List.length_filter_le _ _) 1
  | relational db =>
    cases after with
    | snapshot => exact h.elim
    | relational later =>
      obtain ⟨schema, front, key, hname, hbefore, hafter, -⟩ := h
      simp [count, Relational.count, hname, hbefore, hafter]

lemma created_is_updated_snapshot {kept : Snapshot} {files : FileTree} {name : String}
    (haccepts : filter.accepts (update.create filter) = true)
    (hnone : kept.findOne name filter = none) {doc : Document} {next : Held}
    (hfirst : findOneAndUpdate name filter update (.snapshot kept, files) = ⟨.ok doc, next⟩) :
    doc = update.create filter ∧ next.1.findOne name filter = .ok (some doc) ∧
      ∃ last, findOneAndUpdate name filter update next = ⟨.ok (update.apply doc), last⟩ ∧
        UpdatesLast name doc (update.apply doc) next.1 last.1 := by
  obtain ⟨after, left, hcommit, rfl⟩ := exists_of_ofSnapshot hfirst
  obtain ⟨front, hmade, hshown, hagain⟩ :=
    Collection.findOneAndUpdate_created hnone haccepts name
  rw [Snapshot.findOneAndUpdate, Collections.modify_eq hmade] at hcommit
  obtain ⟨hdoc, rfl⟩ := Snapshot.eq_of_commit hcommit
  obtain rfl : update.create filter = doc := hdoc
  let made : Collections := Fields.insert name (front ++ [update.create filter]) kept.collections
  have hdocs : made.docs name = front ++ [update.create filter] :=
    Collections.docs_insert_self name _ kept.collections
  rw [← hdocs] at hagain
  have hchange := Collections.modify_eq hagain
  obtain ⟨later, hlast⟩ := Snapshot.commit_again hcommit
    (made.modify name (Collection.findOneAndUpdate name filter update))
  rw [hchange] at hlast
  refine ⟨rfl, ?_, (.snapshot { kept with collections := _ }, later), ?_, front, hdocs,
    Collections.docs_insert_self _ _ made,
    fun other hne => Collections.docs_insert_of_ne hne _ made⟩
  · have hfound : ((made.docs name).filter filter.accepts).head? = some (update.create filter) := by
      rw [hdocs, hshown]
    exact congrArg Except.ok hfound
  · rw [findOneAndUpdate, Snapshot.findOneAndUpdate, hchange]
    exact congrArg ofSnapshot hlast

lemma created_is_updated_relational {db : Relational} {files : FileTree} (h : db.image.Sound)
    {name : String} (hdescribes : filter.Describes) (havoids : update.Avoids filter)
    (hfilter : filter.Ordered) (hupdate : update.Ordered)
    (hnone : db.findOne name filter = .ok none) {doc : Document} {next : Held}
    (hfirst : findOneAndUpdate name filter update (.relational db, files) = ⟨.ok doc, next⟩)
    (hread : doc.Readable) :
    doc = update.create filter ∧ next.1.findOne name filter = .ok (some doc) ∧
      ∃ last, findOneAndUpdate name filter update next = ⟨.ok (update.apply doc), last⟩ ∧
        UpdatesLast name doc (update.apply doc) next.1 last.1 := by
  obtain ⟨after, hcommit, rfl⟩ := exists_of_ofRelational hfirst
  obtain ⟨image, hchange, rfl⟩ := Relational.exists_of_commit hcommit
  obtain ⟨schema, hschema, rfl, found, hfound, hdoc, hstore⟩ :=
    Image.exists_of_findOneAndUpdate hchange
  have hsame := (Relational.findOne_of_selectFirst db hschema hfound).symm.trans hnone
  obtain rfl : found = none := Option.map_eq_none_iff.mp (Except.ok.inj hsame)
  obtain rfl : doc = update.create filter := hdoc
  obtain ⟨front, key, table, hsound, htable, hbefore, hafter, hselect, hagain⟩ :=
    Image.findOneAndUpdate_created h hschema (hdescribes.not_listsKeys schema) havoids hfound
      (hupdate.create hfilter) hstore hread (hdescribes.accepts_create havoids)
  have hself : (image.setTable table).tableOf schema = table :=
    Image.tableOf_setTable_self hsound hschema htable
  have hshown := Relational.findOne_of_selectFirst { db with image } hschema hselect
  refine ⟨rfl, hshown, (.relational { db with image := image.setTable table }, files), ?_, schema,
    front, key, Schema.for?_name hschema, hbefore, (congrArg Table.rows hself).trans hafter,
    fun other hother hne => ?_⟩
  · rw [findOneAndUpdate, Relational.findOneAndUpdate, hagain]
    rfl
  · refine Image.tableOf_setTable_of_ne image ?_
    rw [htable, Bool.eq_false_iff]
    exact fun heq => hne (Image.eq_of_sameName_table schema hschema other hother heq).symm

/-- The document that is made for a filter has the values that the filter asks for, and is a match.
So when a write made it, in any reachable state, the same write updates it in the last place and
makes no second one. A database has to read it back as it is. -/
theorem created_is_updated (hdescribes : filter.Describes) (havoids : update.Avoids filter) :
    (∀ path value, ⟨path, .equals value⟩ ∈ filter.conditions →
      (update.create filter).get? path = some value) ∧
    filter.accepts (update.create filter) = true ∧
    ∀ {config : Config} {held : Held}, Reachable config held → filter.Ordered → update.Ordered →
      ∀ {name : String} {doc : Document} {next : Held},
        held.1.findOne name filter = .ok none →
        findOneAndUpdate name filter update held = ⟨.ok doc, next⟩ →
        (config.backend = .sqlite → doc.Readable) →
        doc = update.create filter ∧ next.1.findOne name filter = .ok (some doc) ∧
        ∃ last, findOneAndUpdate name filter update next = ⟨.ok (update.apply doc), last⟩ ∧
          UpdatesLast name doc (update.apply doc) next.1 last.1 ∧
          last.1.count name ≤ next.1.count name := by
  have haccepts := hdescribes.accepts_create havoids
  refine ⟨fun path value hfield => hdescribes.get?_create havoids hfield, haccepts, ?_⟩
  intro config ⟨backend, files⟩ hreached hfilter hupdate name doc next hnone hfirst hread
  have hupdated : doc = update.create filter ∧ next.1.findOne name filter = .ok (some doc) ∧
      ∃ last, findOneAndUpdate name filter update next = ⟨.ok (update.apply doc), last⟩ ∧
        UpdatesLast name doc (update.apply doc) next.1 last.1 := by
    cases hconfig : config.backend with
    | snapshot =>
      obtain ⟨kept, rfl, -⟩ := soundSnapshot_of_reachable hconfig hreached
      exact created_is_updated_snapshot haccepts (Except.ok.inj hnone) hfirst
    | sqlite =>
      obtain ⟨db, rfl, hsound⟩ := soundDatabase_of_reachable hconfig hreached
      exact created_is_updated_relational hsound.image hdescribes havoids hfilter hupdate hnone
        hfirst (hread hconfig)
  obtain ⟨hdoc, hfound, last, hsecond, hlast⟩ := hupdated
  exact ⟨hdoc, hfound, last, hsecond, hlast, hlast.count_le⟩

/-- A setting that is asked for by two paths with a common front, and counted beside them. -/
theorem created_is_updated_of_settings :
    let config : Config := { Config.default with backend := .sqlite }
    let filter : Filter := (Filter.empty.push "_id" (.equals (.string "s"))).push "limits.max"
      (.equals (.int 9))
    let update : Update := ⟨[.assign "limits.min" (.int 0), .increment "views" (.int 1)]⟩
    let held := restore config (.empty "/w")
    filter.Describes ∧ update.Avoids filter ∧ Reachable config held ∧ ∃ doc next last,
      findOneAndUpdate "system_settings" filter update held = ⟨.ok doc, next⟩ ∧
      findOneAndUpdate "system_settings" filter update next = ⟨.ok (update.apply doc), last⟩ ∧
      UpdatesLast "system_settings" doc (update.apply doc) next.1 last.1 := by
  intro config filter update held
  have hdescribes : filter.Describes :=
    ⟨by simp [filter, Filter.push, Filter.empty, Value.floats], by decide +kernel⟩
  have havoids : update.Avoids filter := by
    have hapart : ∀ op ∈ ["limits.min", "views"], ∀ field ∈ ["_id", "limits.max"],
        Document.Incomparable (Document.segments op) (Document.segments field) := by
      decide +kernel
    simpa [Update.Avoids, update, filter, Filter.push, Filter.empty, UpdateOp.path] using hapart
  have hreached : Reachable config held := reachable_restore_empty config "/w"
  have hfilter : filter.Ordered := by
    simp [filter, Filter.Ordered, Filter.push, Filter.empty, Condition.Ordered, Value.Ordered]
  have hupdate : update.Ordered := by
    simp [update, Update.Ordered, UpdateOp.Ordered, Value.Ordered]
  obtain ⟨doc?, hfound, hnone⟩ : ∃ doc?, held.1.findOne "system_settings" filter = .ok doc? ∧
      doc?.isNone = true := exists_ok_of_any (by decide +kernel)
  obtain rfl := Option.isNone_iff_eq_none.mp hnone
  obtain ⟨doc, hanswer, hread⟩ : ∃ doc,
      (findOneAndUpdate "system_settings" filter update held).answer = .ok doc ∧
        decide doc.Readable = true := exists_ok_of_any (by decide +kernel)
  have hfirst : findOneAndUpdate "system_settings" filter update held =
      ⟨.ok doc, (findOneAndUpdate "system_settings" filter update held).state⟩ :=
    Outcome.eq_of_answer_eq hanswer
  obtain ⟨-, -, last, hsecond, hlast, -⟩ := (created_is_updated hdescribes havoids).2.2 hreached
    hfilter hupdate hfound hfirst fun _ => of_decide_eq_true hread
  exact ⟨hdescribes, havoids, hreached, doc, _, last, hfirst, hsecond, hlast⟩

/-- A finite double that is read back as another one: the setting that was made for it is no match
any more, and the same write makes it anew and does not update it. -/
theorem created_is_updated_fails :
    let config : Config := { Config.default with backend := .sqlite }
    let filter : Filter := (Filter.empty.push "_id" (.equals (.string "s"))).push "n"
      (.equals (.float .tenthSum))
    let update : Update := ⟨[.increment "views" (.int 1)]⟩
    let held := restore config (.empty "/w")
    filter.Describes ∧ update.Avoids filter ∧ Reachable config held ∧ filter.Ordered ∧
      update.Ordered ∧ (held.1.findOne "system_settings" filter).toOption.map Option.isNone =
        some true ∧
      ∃ doc next, findOneAndUpdate "system_settings" filter update held = ⟨.ok doc, next⟩ ∧
        doc.nesting ≤ Value.nestingLimit ∧
        (∀ x ∈ (Value.object doc).floats, x.isFinite = true) ∧
        Schema.systemSettings.keyOf? doc = some "s" ∧
        (next.1.findOne "system_settings" filter).toOption.map Option.isNone = some true ∧
        (findOneAndUpdate "system_settings" filter update next).answer ≠
          .ok (update.apply doc) := by
  intro config filter update held
  have hdescribes : filter.Describes :=
    ⟨by simpa [filter, Filter.push, Filter.empty, Value.floats] using by decide +kernel,
      by decide +kernel⟩
  have havoids : update.Avoids filter := by
    have hapart : ∀ field ∈ ["_id", "n"], Document.Incomparable (Document.segments "views")
        (Document.segments field) := by
      decide +kernel
    simpa [Update.Avoids, update, filter, Filter.push, Filter.empty, UpdateOp.path] using hapart
  have hfilter : filter.Ordered := by
    simp [filter, Filter.Ordered, Filter.push, Filter.empty, Condition.Ordered, Value.Ordered]
  have hupdate : update.Ordered := by
    simp [update, Update.Ordered, UpdateOp.Ordered, Value.Ordered]
  let once (doc : Document) : Bool := (doc.get? "views").any (·.eqv (.int 1))
  obtain ⟨doc, hanswer, hdoc⟩ : ∃ doc,
      (findOneAndUpdate "system_settings" filter update held).answer = .ok doc ∧
        decide (doc.nesting ≤ Value.nestingLimit ∧
          (Value.object doc).floats = [.tenthSum] ∧
          Schema.systemSettings.keyOf? doc = some "s" ∧ once (update.apply doc) = false) = true :=
    exists_ok_of_any (by decide +kernel)
  obtain ⟨hnesting, hfloats, hkey, htwice⟩ := of_decide_eq_true hdoc
  have hfinite : ∀ x ∈ (Value.object doc).floats, x.isFinite = true := by
    simp [hfloats, Binary64.tenthSum_finite_not_readsBack.1]
  have hfirst : findOneAndUpdate "system_settings" filter update held =
      ⟨.ok doc, (findOneAndUpdate "system_settings" filter update held).state⟩ :=
    Outcome.eq_of_answer_eq hanswer
  refine ⟨hdescribes, havoids, reachable_restore_empty config "/w", hfilter, hupdate,
    by decide +kernel, doc, _, hfirst, hnesting, hfinite, hkey, by decide +kernel,
    fun hsecond => ?_⟩
  -- The counter starts again.
  have hagain : (findOneAndUpdate "system_settings" filter update
      (findOneAndUpdate "system_settings" filter update held).state).answer.toOption.any once =
        true := by
    decide +kernel
  rw [hsecond] at hagain
  exact Bool.false_ne_true (htwice.symm.trans hagain)

end Backend

end DocStore
