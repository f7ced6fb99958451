import DocStore.Proofs.Store.Batches

/-!
# Writes of a snapshot that fail

A single write of a snapshot fails in two ways (`failed_carryOut`). Either it was refused before
anything happened, or its change is in memory and the file could not be written. So the collections
are found as before exactly when it was refused or had nothing to change, and the same holds of the
entry that ends a batch: `find_after_failure`.
-/

namespace DocStore

lemma Outcome.state_map {ε σ α β : Type} (f : α → β) (outcome : Outcome ε σ α) :
    (outcome.map f).state = outcome.state := rfl

/-- What a single write makes of the documents of its collection; `none` for other requests. -/
def Request.change? (name : String) : Request → Option (Collection → Collection)
  | .updateOne filter update upsert =>
    some fun docs => (Collection.updateOne name filter update upsert docs).2
  | .deleteMany filter => some fun docs => (Collection.deleteMany filter docs).2
  | .findOneAndUpdate filter update =>
    some fun docs => (Collection.findOneAndUpdate name filter update docs).2
  | .find _ | .findOne _ | .count | .bulkWrite _ => none

/-- What an update answers that would have to increment. -/
def StoreError.incrementRefused : StoreError :=
  .request (.update .incrementNotAllowed)

def Snapshot.withDocs (kept : Snapshot) (name : String) (docs : Collection) : Snapshot :=
  { kept with collections := Fields.insert name docs kept.collections }

namespace Backend

/-- Every collection is found as in another state, with every filter. -/
def FoundAs (after before : Backend) : Prop :=
  ∀ name filter, after.find name filter = before.find name filter

variable {name : String} {kept : Snapshot} {docs : Collection}

lemma foundAs_withDocs_iff :
    FoundAs (.snapshot (kept.withDocs name docs)) (.snapshot kept) ↔
      docs = kept.collections.docs name := by
  constructor
  · intro h
    have hall : ∀ docs : Collection, docs.filter Filter.empty.accepts = docs := fun docs =>
      List.filter_eq_self.mpr fun _ _ => rfl
    have hname := h name .empty
    simpa [find, Snapshot.find, Snapshot.withDocs, hall] using hname
  -- Inserting the documents that are there makes the collection, but nothing else is found.
  · rintro rfl other filter
    by_cases hother : other = name
    · subst hother
      simp [find, Snapshot.find, Snapshot.withDocs]
    · simp [find, Snapshot.find, Snapshot.withDocs, Collections.docs_insert_of_ne hother]

/-- What a single write that failed has left: all is as it was, or the change is in memory and the
file was not written. -/
inductive LeftBehind (name : String) (kept : Snapshot) (files : FileTree) (docs : Collection) :
    StoreError → Held → Prop
  | refused : LeftBehind name kept files docs .incrementRefused (.snapshot kept, files)
  | unwritten {fault : FileFault} {left : FileTree}
      (hpersist : (kept.withDocs name docs).persist files = ⟨.error fault, left⟩) :
    LeftBehind name kept files docs (.file fault) (.snapshot (kept.withDocs name docs), left)

variable {files : FileTree} {error : StoreError} {held : Held}

lemma LeftBehind.foundAs_iff (h : LeftBehind name kept files docs error held) :
    FoundAs held.1 (.snapshot kept) ↔
      error = .incrementRefused ∨ docs = kept.collections.docs name := by
  cases h with
  | refused => exact ⟨fun _ => .inl rfl, fun _ _ _ => rfl⟩
  | unwritten =>
    rw [foundAs_withDocs_iff]
    exact ⟨.inr, fun h => h.resolve_left (fun heq => by cases heq)⟩

lemma commit_eq_error {α : Type} {change : α × Collections}
    (h : (kept.commit files change).answer = .error error) :
    ∃ fault left, error = .file fault ∧
      Snapshot.persist { kept with collections := change.2 } files = ⟨.error fault, left⟩ ∧
      kept.commit files change =
        .fail (.file fault) ({ kept with collections := change.2 }, left) := by
  unfold Snapshot.commit at h ⊢
  dsimp only at h ⊢
  generalize Snapshot.persist { kept with collections := change.2 } files = outcome at h ⊢
  obtain ⟨fault | done, left⟩ := outcome
  · cases h
    exact ⟨fault, left, rfl, rfl, rfl⟩
  · cases h

lemma leftBehind_commit {α : Type} {change : α × Collections} {docs : Collection}
    (hchange : change.2 = Fields.insert name docs kept.collections)
    (h : (ofSnapshot (kept.commit files change)).answer = .error error) :
    LeftBehind name kept files docs error (ofSnapshot (kept.commit files change)).state := by
  simp only [ofSnapshot, Outcome.mapState] at h
  obtain ⟨fault, left, rfl, hpersist, hcommit⟩ := commit_eq_error h
  rw [hchange] at hpersist hcommit
  rw [hcommit]
  exact .unwritten hpersist

lemma leftBehind_updateOne {filter : Filter} {update : Update} {upsert : Bool}
    (h : (updateOne name filter update upsert (.snapshot kept, files)).answer = .error error) :
    LeftBehind name kept files
      (Collection.updateOne name filter update upsert (kept.collections.docs name)).2 error
      (updateOne name filter update upsert (.snapshot kept, files)).state := by
  rw [updateOne, Snapshot.updateOne, Update.requireAssignments] at h ⊢
  split_ifs at h ⊢
  · cases h
    exact .refused
  · exact leftBehind_commit rfl h

lemma leftBehind_deleteMany {filter : Filter}
    (h : (deleteMany name filter (.snapshot kept, files)).answer = .error error) :
    LeftBehind name kept files (Collection.deleteMany filter (kept.collections.docs name)).2 error
      (deleteMany name filter (.snapshot kept, files)).state := by
  rw [deleteMany, Snapshot.deleteMany] at h ⊢
  exact leftBehind_commit rfl h

lemma leftBehind_findOneAndUpdate {filter : Filter} {update : Update}
    (h : (findOneAndUpdate name filter update (.snapshot kept, files)).answer = .error error) :
    LeftBehind name kept files
      (Collection.findOneAndUpdate name filter update (kept.collections.docs name)).2 error
      (findOneAndUpdate name filter update (.snapshot kept, files)).state := by
  rw [findOneAndUpdate, Snapshot.findOneAndUpdate] at h ⊢
  exact leftBehind_commit rfl h

/-- How a single write of a snapshot fails. -/
theorem failed_carryOut {request : Request} {change : Collection → Collection}
    (hrequest : request.change? name = some change)
    (h : (carryOut name request (.snapshot kept, files)).answer = .error error) :
    LeftBehind name kept files (change (kept.collections.docs name)) error
      (carryOut name request (.snapshot kept, files)).state := by
  cases request with
  | find | findOne | count | bulkWrite => cases hrequest
  | updateOne filter update upsert =>
    cases hrequest
    rw [carryOut, Outcome.state_map]
    exact leftBehind_updateOne (Outcome.answer_of_map_eq_error h)
  | deleteMany filter =>
    cases hrequest
    rw [carryOut, Outcome.state_map]
    exact leftBehind_deleteMany (Outcome.answer_of_map_eq_error h)
  | findOneAndUpdate filter update =>
    cases hrequest
    rw [carryOut, Outcome.state_map]
    exact leftBehind_findOneAndUpdate (Outcome.answer_of_map_eq_error h)

/-- A batch of a snapshot that fails: the entries before the failing one are done, and it fails
alone as it did in the batch. -/
lemma exists_failing_entry {models : List WriteModel}
    (h : (bulkWrite name models (.snapshot kept, files)).answer = .error error) :
    ∃ done model rest result met left, models = done ++ model :: rest ∧
      bulkWrite name done (.snapshot kept, files) = ⟨.ok result, (.snapshot met, left)⟩ ∧
      updateOne name model.filter model.update model.upsert (.snapshot met, left) =
        ⟨.error error, (bulkWrite name models (.snapshot kept, files)).state⟩ := by
  induction models generalizing kept files with
  | nil => cases h
  | cons model rest ih =>
    rcases hfirst : updateOne name model.filter model.update model.upsert
        (.snapshot kept, files) with ⟨failure | result, next⟩
    · rw [bulkWrite_cons_of_error hfirst] at h ⊢
      cases h
      exact ⟨[], model, rest, .zero, kept, files, rfl, rfl, hfirst⟩
    · obtain ⟨met, left, rfl⟩ : ∃ met left, next = (.snapshot met, left) :=
        ⟨_, _, (congrArg (·.state) hfirst).symm⟩
      rw [bulkWrite_cons_of_ok hfirst] at h ⊢
      obtain ⟨done, failing, more, counts, later, last, rfl, hdone, hfails⟩ :=
        ih (Outcome.answer_of_map_eq_error h)
      refine ⟨model :: done, failing, more, (BatchResult.ofUpdate result).add counts, later, last,
        rfl, ?_, hfails⟩
      rw [bulkWrite_cons_of_ok hfirst, hdone]
      rfl

/-- After a write that failed every collection is found as before exactly when the write was
refused, or would have changed nothing. A failing batch leaves what its earlier entries did and, on
the same terms, what the failing one did. -/
theorem find_after_failure (name : String) (kept : Snapshot) (files : FileTree) :
    (∀ request change error, request.change? name = some change →
      (carryOut name request (.snapshot kept, files)).answer = .error error →
        LeftBehind name kept files (change (kept.collections.docs name)) error
          (carryOut name request (.snapshot kept, files)).state ∧
        (FoundAs (carryOut name request (.snapshot kept, files)).state.1 (.snapshot kept) ↔
          error = .incrementRefused ∨
            change (kept.collections.docs name) = kept.collections.docs name)) ∧
    ∀ models error, (bulkWrite name models (.snapshot kept, files)).answer = .error error →
      ∃ done model rest result met left, models = done ++ model :: rest ∧
        bulkWrite name done (.snapshot kept, files) = ⟨.ok result, (.snapshot met, left)⟩ ∧
        LeftBehind name met left
          (Collection.updateOne name model.filter model.update model.upsert
            (met.collections.docs name)).2
          error (bulkWrite name models (.snapshot kept, files)).state ∧
        (FoundAs (bulkWrite name models (.snapshot kept, files)).state.1 (.snapshot met) ↔
          error = .incrementRefused ∨
            (Collection.updateOne name model.filter model.update model.upsert
              (met.collections.docs name)).2 = met.collections.docs name) := by
  constructor
  · intro request change error hrequest h
    have hleft := failed_carryOut hrequest h
    exact ⟨hleft, hleft.foundAs_iff⟩
  · intro models error h
    obtain ⟨done, model, rest, result, met, left, hmodels, hdone, hfails⟩ :=
      exists_failing_entry h
    have hleft := leftBehind_updateOne (congrArg (·.answer) hfails)
    rw [hfails] at hleft
    exact ⟨done, model, rest, result, met, left, hmodels, hdone, hleft, hleft.foundAs_iff⟩

/-- An assignment that could not be written, since a file stands in place of the directory, is found
afterwards. An increment that a batch was refused is not, and the entry before it is. -/
theorem find_after_blocked_assignment :
    let blocked := (FileTree.empty "/w").put ["c"] (.file (.text "x"))
    let kept := Snapshot.restore blocked "c/localdb.json" true
    let filter : Filter := .push .empty "_id" (.equals (.string "s"))
    let assign : Update := ⟨[.assign "n" (.int 1)]⟩
    let increment : Update := ⟨[.increment "n" (.int 1)]⟩
    let batch : List WriteModel := [⟨filter, assign, true⟩, ⟨filter, increment, true⟩]
    (updateOne "system_settings" filter assign true (.snapshot kept, blocked)).answer =
        .error (.file .alreadyExists) ∧
      ¬FoundAs (updateOne "system_settings" filter assign true (.snapshot kept, blocked)).state.1
        (.snapshot kept) ∧
      (bulkWrite "system_settings" batch (.snapshot kept, .empty "/w")).answer =
        .error .incrementRefused ∧
      ∃ done model rest result met left, batch = done ++ model :: rest ∧
        bulkWrite "system_settings" done (.snapshot kept, .empty "/w") =
          ⟨.ok result, (.snapshot met, left)⟩ ∧
        FoundAs (bulkWrite "system_settings" batch (.snapshot kept, .empty "/w")).state.1
          (.snapshot met) := by
  intro blocked kept filter assign increment batch
  have hfails : (updateOne "system_settings" filter assign true (.snapshot kept, blocked)).answer =
      .error (.file .alreadyExists) := by decide +kernel
  have hrefused : (bulkWrite "system_settings" batch (.snapshot kept, .empty "/w")).answer =
      .error .incrementRefused := by decide +kernel
  refine ⟨hfails, fun hfound => ?_, hrefused, ?_⟩
  · have hanswer : (carryOut "system_settings" (.updateOne filter assign true)
        (.snapshot kept, blocked)).answer = .error (.file .alreadyExists) := by
      rw [carryOut, Outcome.map, hfails]
      rfl
    have hiff := ((find_after_failure "system_settings" kept blocked).1 _ _ _ rfl hanswer).2
    rcases hiff.mp hfound with herror | hsame
    · cases herror
    · exact absurd (congrArg List.length hsame) (by decide +kernel)
  · obtain ⟨done, model, rest, result, met, left, hbatch, hdone, -, hiff⟩ :=
      (find_after_failure "system_settings" kept (.empty "/w")).2 batch _ hrefused
    exact ⟨done, model, rest, result, met, left, hbatch, hdone, hiff.mpr (.inl rfl)⟩

/-- A new document is found although the call that was to make it failed. -/
theorem failed_write_is_found :
    ∃ (held : Held) (filter : Filter) (update : Update),
      Reachable { Config.default with cacheDir := "c" } held ∧ filter.Ordered ∧ update.Ordered ∧
      (findOneAndUpdate "system_settings" filter update held).answer.isOk = false ∧
      ¬FoundAs (findOneAndUpdate "system_settings" filter update held).state.1 held.1 := by
  let blocked := (FileTree.empty "/w").put ["c"] (.file (.text "x"))
  let filter : Filter := .push .empty "_id" (.equals (.string "s"))
  let update : Update := ⟨[.increment "views" (.int 1)]⟩
  refine ⟨restore { Config.default with cacheDir := "c" } blocked, filter, update, .opened ?_,
    ?_, ?_, by decide +kernel, fun hfound => ?_⟩
  · rintro location hhome content hentry
    have hplace : location = ["c", "localdb.json"] := by
      rw [← Option.some.inj hhome]
      decide +kernel
    subst hplace
    have hnone : Option.isNone <| blocked.entry? ["c", "localdb.json"] := by decide +kernel
    rw [hentry] at hnone
    cases hnone
  · simp [filter, Filter.Ordered, Filter.push, Filter.empty, Condition.Ordered, Value.Ordered]
  · simp [update, Update.Ordered, UpdateOp.Ordered, Value.Ordered]
  · have hlength := congrArg (fun found => found.toOption.map List.length)
      (hfound "system_settings" .empty)
    exact absurd hlength (by decide +kernel)

end Backend

end DocStore
