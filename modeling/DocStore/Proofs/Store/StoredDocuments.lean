import DocStore.Proofs.Files.Rewriting
import DocStore.Proofs.Store.Insertions
import DocStore.Proofs.Store.StoredRows

/-!
# Documents that were just stored

In a collection as in a table a write stores its document in the place of the first match, or behind
the others (`Collection.exists_place`), and when this document matches it is the next first match
(`Collection.splitFirst_place`). A snapshot that was written once can be written again
(`Snapshot.commit_again`).
-/

namespace DocStore

namespace Collection

variable {name : String} {filter : Filter} {update : Update} {docs before after : Collection}
  {doc : Document}

lemma updateOne_of_splitFirst {old : Document}
    (h : splitFirst filter.accepts docs = some (before, old, after)) (name : String)
    (update : Update) (upsert : Bool) :
    updateOne name filter update upsert docs =
      (.matched, place name before (update.apply old) after) := by
  rw [updateOne, updateFirst?, h]
  rfl

lemma findOneAndUpdate_of_splitFirst {old : Document}
    (h : splitFirst filter.accepts docs = some (before, old, after)) (name : String)
    (update : Update) :
    findOneAndUpdate name filter update docs =
      (update.apply old, place name before (update.apply old) after) := by
  rw [findOneAndUpdate, updateFirst?, h]
  rfl

/-- Where a write that may make a document stores it: no document in front of it is a match. -/
theorem exists_place (name : String) (filter : Filter) (update : Update) (docs : Collection) :
    let doc := update.written filter (docs.filter filter.accepts).head?
    ∃ before after, (∀ other ∈ before, filter.accepts other = false) ∧
      (updateOne name filter update true docs).2 = place name before doc after ∧
      findOneAndUpdate name filter update docs = (doc, place name before doc after) ∧
      ((docs.filter filter.accepts).head? = none → before = docs ∧ after = []) := by
  intro doc
  have hdoc : doc = update.written filter ((splitFirst filter.accepts docs).map (·.2.1)) := by
    rw [← Sql.Table.head?_filter_eq]
  rw [hdoc, Sql.Table.head?_filter_eq]
  cases hsplit : splitFirst filter.accepts docs with
  | none =>
    refine ⟨docs, [], splitFirst_eq_none_iff.mp hsplit, ?_, ?_, fun _ => ⟨rfl, rfl⟩⟩
    · rw [updateOne, updateFirst?, hsplit]
      rfl
    · rw [findOneAndUpdate, updateFirst?, hsplit]
      rfl
  | some parts =>
    obtain ⟨before, old, after⟩ := parts
    refine ⟨before, after, (splitFirst_eq_some hsplit).2.2, ?_, ?_, fun hnone => by cases hnone⟩
    · rw [updateOne_of_splitFirst hsplit]
      rfl
    · rw [findOneAndUpdate_of_splitFirst hsplit]
      rfl

/-- A document that was stored and matches is the next first match. -/
theorem splitFirst_place (hbefore : ∀ other ∈ before, filter.accepts other = false)
    (haccepts : filter.accepts doc = true) (name : String) (after : Collection) :
    splitFirst filter.accepts (place name before doc after) =
      some (before.filter (!collides name doc ·), doc, after.filter (!collides name doc ·)) :=
  splitFirst_append (fun other hother => hbefore other (List.mem_of_mem_filter hother)) haccepts

lemma head?_filter_updateOne
    (haccepts : filter.accepts (update.written filter (docs.filter filter.accepts).head?) = true)
    (name : String) :
    ((updateOne name filter update true docs).2.filter filter.accepts).head? =
      some (update.written filter (docs.filter filter.accepts).head?) := by
  obtain ⟨before, after, hbefore, hafter, -⟩ := exists_place name filter update docs
  have hsplit := splitFirst_place hbefore haccepts name after
  rw [hafter, Sql.Table.head?_filter_eq]
  exact congrArg (Option.map (·.2.1)) hsplit

lemma place_filter (name : String) (before : Collection) (doc : Document) (after : Collection) :
    place name (before.filter (!collides name doc ·)) doc
        (after.filter (!collides name doc ·)) = place name before doc after := by
  simp [place, List.filter_filter]

end Collection

namespace Snapshot

variable {α β : Type} {kept : Snapshot} {files : FileTree} {change : α × Collections}

lemma commit_of_replace (h : (files.replace kept.path
      (.text { kept with collections := change.2 }.text)).answer = .ok ()) :
    ∃ later,
      kept.commit files change = ⟨.ok change.1, { kept with collections := change.2 }, later⟩ := by
  simp only [commit, persist, Outcome.mapState, Outcome.mapError, Outcome.map, h]
  exact ⟨_, rfl⟩

lemma answer_replace_of_commit {answer : α} (h : (kept.commit files change).answer = .ok answer) :
    (files.replace kept.path
      (.text { kept with collections := change.2 }.text)).answer = .ok () := by
  simp only [commit, persist, Outcome.mapState, Outcome.mapError, Outcome.map] at h
  generalize (files.replace kept.path _).answer = written at h
  cases written with
  | error fault => cases h
  | ok => rfl

lemma eq_of_commit {answer : α} {next : Snapshot} {left : FileTree}
    (h : kept.commit files change = ⟨.ok answer, next, left⟩) :
    change.1 = answer ∧ next = { kept with collections := change.2 } := by
  have hanswer : (kept.commit files change).answer = .ok answer := by rw [h]
  have hstate := state_commit kept files change
  rw [h] at hstate
  exact ⟨Backend.eq_of_answer_commit hanswer, congrArg Prod.fst hstate⟩

theorem commit_again {answer : α} {next : Snapshot} {left : FileTree}
    (h : kept.commit files change = ⟨.ok answer, next, left⟩) (other : β × Collections) :
    ∃ later,
      next.commit left other = ⟨.ok other.1, { next with collections := other.2 }, later⟩ := by
  have hanswer : (kept.commit files change).answer = .ok answer := by rw [h]
  have hstate := state_commit kept files change
  rw [h] at hstate
  obtain ⟨rfl, rfl⟩ := Prod.mk.inj hstate
  exact commit_of_replace (FileTree.replace_again (answer_replace_of_commit hanswer) _)

lemma commit_of_updateOne {name : String} {filter : Filter} {update : Update} {upsert : Bool}
    {result : UpdateResult} {next : Snapshot} {left : FileTree}
    (h : kept.updateOne files name filter update upsert = ⟨.ok result, next, left⟩) :
    update.hasIncrement = false ∧
      kept.commit files (kept.collections.modify name
        (Collection.updateOne name filter update upsert)) = ⟨.ok result, next, left⟩ := by
  rw [updateOne] at h
  cases hallowed : update.requireAssignments with
  | error error =>
    rw [hallowed] at h
    cases h
  | ok =>
    rw [hallowed] at h
    exact ⟨update.requireAssignments_eq_ok_iff.mp hallowed, h⟩

end Snapshot

lemma Backend.exists_of_ofSnapshot {α : Type} {outcome : Outcome StoreError (Snapshot × FileTree) α}
    {answer : Except StoreError α} {next : Held} (h : ofSnapshot outcome = ⟨answer, next⟩) :
    ∃ kept files, outcome = ⟨answer, kept, files⟩ ∧ next = (.snapshot kept, files) := by
  obtain ⟨_, kept, files⟩ := outcome
  obtain ⟨rfl, rfl⟩ := Outcome.mk.inj h
  exact ⟨kept, files, rfl, rfl⟩

lemma Backend.exists_of_ofRelational {α : Type} {files : FileTree}
    {outcome : Outcome StoreError Relational α} {answer : Except StoreError α} {next : Held}
    (h : ofRelational files outcome = ⟨answer, next⟩) :
    ∃ db, outcome = ⟨answer, db⟩ ∧ next = (.relational db, files) := by
  obtain ⟨_, db⟩ := outcome
  obtain ⟨rfl, rfl⟩ := Outcome.mk.inj h
  exact ⟨db, rfl, rfl⟩

lemma Backend.exists_of_updateOne_relational {db : Relational} {files : FileTree} {name : String}
    {filter : Filter} {update : Update} {result : UpdateResult} {next : Held}
    (h : updateOne name filter update true (.relational db, files) = ⟨.ok result, next⟩) :
    update.hasIncrement = false ∧ ∃ schema ∈ Schema.all, name = schema.name ∧ ∃ found image,
      (db.image.tableOf schema).selectFirst schema filter = .ok found ∧
      db.image.store schema (found.map (·.1)) (update.written filter (found.map (·.2))) =
        .ok image ∧
      next = (.relational { db with image }, files) := by
  obtain ⟨after, hcommit, rfl⟩ := exists_of_ofRelational h
  obtain ⟨image, hchange, rfl⟩ := Relational.exists_of_commit hcommit
  obtain ⟨hassign, schema, hschema, hname, found, hfound, hstore⟩ :=
    Sql.Image.exists_of_updateOne hchange
  exact ⟨hassign, schema, hschema, hname, found, image, hfound, hstore, rfl⟩

end DocStore
