import DocStore.Proofs.Store.Parity
import DocStore.Proofs.Store.Statements

/-!
# Batches of single writes

A batch that succeeds counts what its entries did one by one (`Singles`), and it may be cut
anywhere. In a database a batch that fails has done exactly the entries before the one that fails,
since a single write that fails changes nothing: `writes_all_or_nothing`.
-/

namespace DocStore

namespace Outcome

variable {ε σ α β : Type} {f : α → β} {outcome : Outcome ε σ α}

lemma exists_of_answer_map_eq_ok {answer : β} (h : (outcome.map f).answer = .ok answer) :
    ∃ value, outcome.answer = .ok value ∧ f value = answer := by
  obtain ⟨_ | value, state⟩ := outcome
  · cases h
  · cases h
    exact ⟨value, rfl, rfl⟩

lemma answer_of_map_eq_error {error : ε} (h : (outcome.map f).answer = .error error) :
    outcome.answer = .error error := by
  obtain ⟨_ | value, state⟩ := outcome
  · cases h
    rfl
  · cases h

end Outcome

namespace Backend

/-- The entries of a batch carried out as single updates, with their results and the last state. -/
inductive Singles (name : String) :
    List WriteModel → Held → List UpdateResult → Held → Prop
  | none (held : Held) : Singles name [] held [] held
  | more {model : WriteModel} {rest : List WriteModel} {held next last : Held}
      {result : UpdateResult} {results : List UpdateResult}
      (hfirst : updateOne name model.filter model.update model.upsert held = ⟨.ok result, next⟩)
      (hrest : Singles name rest next results last) :
      Singles name (model :: rest) held (result :: results) last

/-- The sums of single results. -/
def total (results : List UpdateResult) : BatchResult :=
  ⟨(results.map (·.matchedCount)).sum, (results.map (·.createdCount)).sum⟩

variable {name : String} {models : List WriteModel} {held : Held}

lemma total_cons (result : UpdateResult) (results : List UpdateResult) :
    total (result :: results) = (BatchResult.ofUpdate result).add (total results) := by
  simp [total, BatchResult.ofUpdate, BatchResult.add]

/-- A batch that succeeds has done its entries one by one, and counts them. -/
theorem exists_singles {counts : BatchResult}
    (h : (bulkWrite name models held).answer = .ok counts) :
    ∃ results, Singles name models held results (bulkWrite name models held).state ∧
      counts = total results := by
  induction models generalizing held counts with
  | nil =>
    cases h
    exact ⟨[], .none held, rfl⟩
  | cons model rest ih =>
    rcases hfirst : updateOne name model.filter model.update model.upsert held with
      ⟨error | result, next⟩
    · rw [bulkWrite_cons_of_error hfirst] at h
      cases h
    · rw [bulkWrite_cons_of_ok hfirst] at h ⊢
      obtain ⟨others, hothers, rfl⟩ := Outcome.exists_of_answer_map_eq_ok h
      obtain ⟨results, hsingles, rfl⟩ := ih hothers
      exact ⟨result :: results, .more hfirst hsingles, (total_cons result results).symm⟩

/-- A batch that succeeds may be cut in two. -/
theorem bulkWrite_append {first second : List WriteModel} {counts : BatchResult}
    (h : (bulkWrite name (first ++ second) held).answer = .ok counts) :
    ∃ before after, (bulkWrite name first held).answer = .ok before ∧
      bulkWrite name second (bulkWrite name first held).state =
        ⟨.ok after, (bulkWrite name (first ++ second) held).state⟩ ∧
      counts = before.add after := by
  have hcut : bulkWrite name (first ++ second) held =
      (bulkWrite name first held).andThen fun result state =>
        (bulkWrite name second state).map result.add :=
    Outcome.batch_append _ first second held
  rw [hcut] at h ⊢
  generalize bulkWrite name first held = outcome at h ⊢
  obtain ⟨error | before, middle⟩ := outcome
  · cases h
  · obtain ⟨after, hafter, hcounts⟩ := Outcome.exists_of_answer_map_eq_ok h
    refine ⟨before, after, rfl, ?_, hcounts.symm⟩
    rw [← hafter]
    rfl

/-- An operation on a database that is its steps, and that changes nothing when it fails: no step
fails behind one that has changed something. -/
structure Whole {α : Type} (steps : Relational → Outcome StoreError Relational α)
    (operation : Held → Outcome StoreError Held α) : Prop where
  stepwise : ∀ (db : Relational) (files : FileTree), db.image.NamesDiffer →
    operation (.relational db, files) = ofRelational files (steps db)
  untouched : ∀ db, Relational.Untouched db (steps db)
  unchanged : ∀ db files error, (operation (.relational db, files)).answer = .error error →
    (operation (.relational db, files)).state = (.relational db, files)

lemma state_ofRelational_of_untouched {α : Type} {db : Relational}
    {outcome : Outcome StoreError Relational α} (h : Relational.Untouched db outcome)
    (files : FileTree) {error : StoreError}
    (herror : (ofRelational files outcome).answer = .error error) :
    (ofRelational files outcome).state = (.relational db, files) := by
  have hstate := h error herror
  simp only [ofRelational, Outcome.mapState, hstate]

lemma whole_updateOne (name : String) (filter : Filter) (update : Update) (upsert : Bool) :
    Whole (Relational.Stepwise.updateOne name filter update upsert)
      (updateOne name filter update upsert) where
  stepwise _ files _ := congrArg (ofRelational files) (Relational.Stepwise.updateOne_eq _ _ _ _ _)
  untouched := Relational.Stepwise.untouched_updateOne name filter update upsert
  unchanged db files _ herror :=
    state_ofRelational_of_untouched (Relational.untouched_commit db _) files herror

lemma whole_deleteMany (refusal : StoreError) (name : String) (filter : Filter) :
    Whole (Relational.Stepwise.deleteMany refusal name filter) (deleteMany name filter) where
  stepwise _ files h :=
    congrArg (ofRelational files) (Relational.Stepwise.deleteMany_eq refusal _ _ h)
  untouched := Relational.Stepwise.untouched_deleteMany refusal name filter
  unchanged db files _ herror :=
    state_ofRelational_of_untouched (Relational.untouched_commit db _) files herror

lemma whole_findOneAndUpdate (name : String) (filter : Filter) (update : Update) :
    Whole (Relational.Stepwise.findOneAndUpdate name filter update)
      (findOneAndUpdate name filter update) where
  stepwise _ files _ :=
    congrArg (ofRelational files) (Relational.Stepwise.findOneAndUpdate_eq _ _ _ _)
  untouched := Relational.Stepwise.untouched_findOneAndUpdate name filter update
  unchanged db files _ herror :=
    state_ofRelational_of_untouched (Relational.untouched_commit db _) files herror

/-- A batch that fails in a database leaves the state that one of its entries met, and this entry
fails in it. -/
theorem exists_meets_of_error {error : StoreError} {db : Relational} {files : FileTree}
    (h : (bulkWrite name models (.relational db, files)).answer = .error error) :
    ∃ model, Meets name models (.relational db, files) model
        (bulkWrite name models (.relational db, files)).state ∧
      updateOne name model.filter model.update model.upsert
        (bulkWrite name models (.relational db, files)).state =
          ⟨.error error, (bulkWrite name models (.relational db, files)).state⟩ := by
  induction models generalizing db with
  | nil => cases h
  | cons model rest ih =>
    rcases hfirst : updateOne name model.filter model.update model.upsert
        (.relational db, files) with ⟨failure | result, next⟩
    -- The failing entry has changed nothing, so the batch leaves what this entry met.
    · have hnext : next = (.relational db, files) := by
        have hstate := (whole_updateOne name model.filter model.update model.upsert).unchanged
          db files failure (by rw [hfirst])
        rwa [hfirst] at hstate
      rw [bulkWrite_cons_of_error hfirst] at h ⊢
      cases h
      subst hnext
      exact ⟨model, meets_head name model rest _, hfirst⟩
    · obtain ⟨later, rfl⟩ : ∃ later, next = (.relational later, files) :=
        ⟨_, (congrArg (·.state) hfirst).symm⟩
      rw [bulkWrite_cons_of_ok hfirst] at h ⊢
      obtain ⟨failing, hmeets, hfails⟩ := ih (Outcome.answer_of_map_eq_error h)
      exact ⟨failing, hmeets.cons hfirst, hfails⟩

/-- What a batch leaves in a database, and how it counts. -/
structure ExactPrefix (name : String) (models : List WriteModel) (held : Held) : Prop where
  /-- The entries before the failing one are done, and it fails alone as it did in the batch. -/
  failed : ∀ error, (bulkWrite name models held).answer = .error error →
    ∃ done model rest result, models = done ++ model :: rest ∧
      bulkWrite name done held = ⟨.ok result, (bulkWrite name models held).state⟩ ∧
      updateOne name model.filter model.update model.upsert (bulkWrite name models held).state =
        ⟨.error error, (bulkWrite name models held).state⟩
  counted : ∀ counts, (bulkWrite name models held).answer = .ok counts →
    ∃ results, Singles name models held results (bulkWrite name models held).state ∧
      counts = total results
  split : ∀ counts, (bulkWrite name models held).answer = .ok counts →
    ∀ first second, models = first ++ second →
      ∃ before after, (bulkWrite name first held).answer = .ok before ∧
        bulkWrite name second (bulkWrite name first held).state =
          ⟨.ok after, (bulkWrite name models held).state⟩ ∧
        counts = before.add after

lemma exactPrefix (name : String) (models : List WriteModel) (db : Relational)
    (files : FileTree) : ExactPrefix name models (.relational db, files) where
  failed := by
    intro error herror
    obtain ⟨model, ⟨done, rest, result, hmodels, hdone⟩, hfails⟩ := exists_meets_of_error herror
    exact ⟨done, model, rest, result, hmodels, hdone, hfails⟩
  counted := fun _ hcounts => exists_singles hcounts
  split := by
    rintro counts hcounts first second rfl
    exact bulkWrite_append hcounts

/-- Single writes of a database do all their statements or change nothing, and batches do exactly
the entries before the first that fails. This is for every image, also one with rows that cannot be
read. -/
theorem writes_all_or_nothing (name : String) :
    (∀ filter update upsert, Whole (Relational.Stepwise.updateOne name filter update upsert)
      (updateOne name filter update upsert)) ∧
    (∀ refusal filter, Whole (Relational.Stepwise.deleteMany refusal name filter)
      (deleteMany name filter)) ∧
    (∀ filter update, Whole (Relational.Stepwise.findOneAndUpdate name filter update)
      (findOneAndUpdate name filter update)) ∧
    ∀ models db files, ExactPrefix name models (.relational db, files) :=
  ⟨whole_updateOne name, fun refusal => whole_deleteMany refusal name, whole_findOneAndUpdate name,
    exactPrefix name⟩

/-- The second entry may not increment: the document that the first has made stays. -/
example :
    let held := restore { Config.default with backend := .sqlite } (.empty "/w")
    let filter : Filter := .push .empty "_id" (.equals (.string "s"))
    let outcome := bulkWrite "system_settings"
      [⟨filter, ⟨[.assign "n" (.int 1)]⟩, true⟩, ⟨filter, ⟨[.increment "n" (.int 1)]⟩, true⟩] held
    outcome.answer = .error (.request (.update .incrementNotAllowed)) ∧
      outcome.state.1.count "system_settings" = 1 := by
  decide +kernel

end Backend

end DocStore
