import DocStore.Proofs.Files.Database
import DocStore.Proofs.Ordered
import DocStore.Store.Backend

/-!
# Runs of requests

A `Request` is one call on a collection, with its `Answer`. The `Reachable` states of a backend are
those that it gets into from a missing file by requests, flushes and reopening, in any order and
whether they succeed or fail, while nobody else touches the file. Other files may come and go, but
none is a journal or a log of the engine with changes to play back (`Content`). A property of the
states that each single write keeps is kept by every request (`carryOut_keeps`).
-/

namespace DocStore

namespace Outcome

lemma eq_of_answer_eq {ε σ α : Type} {outcome : Outcome ε σ α} {answer : Except ε α}
    (h : outcome.answer = answer) : outcome = ⟨answer, outcome.state⟩ := by
  rw [← h]

variable {σ : Type}

/-- A property of the states that each entry of a batch keeps is kept by the batch. -/
theorem batch_keeps {P : σ → Prop} {update : WriteModel → σ → Outcome StoreError σ UpdateResult}
    {models : List WriteModel}
    (h : ∀ model ∈ models, ∀ state, P state → P (update model state).state) {state : σ}
    (hstate : P state) : P (batch update models state).state := by
  induction models generalizing state with
  | nil => exact hstate
  | cons model rest ih =>
    have hfirst := h model (by simp) state hstate
    rw [batch]
    generalize update model state = first at hfirst
    obtain ⟨_ | result, next⟩ := first
    · exact hfirst
    · exact ih (fun other ho => h other (List.mem_cons_of_mem model ho)) hfirst

end Outcome

lemma Update.requireAssignments_eq_ok_iff (update : Update) :
    update.requireAssignments = .ok () ↔ update.hasIncrement = false := by
  unfold requireAssignments
  cases update.hasIncrement <;> simp

/-- A request to a collection. -/
inductive Request where
  | find (filter : Filter)
  | findOne (filter : Filter)
  | count
  | updateOne (filter : Filter) (update : Update) (upsert : Bool)
  | bulkWrite (models : List WriteModel)
  | deleteMany (filter : Filter)
  | findOneAndUpdate (filter : Filter) (update : Update)

/-- What a request is answered. -/
inductive Answer where
  | found (docs : List Document)
  | first (doc? : Option Document)
  | counted (count : Nat)
  | updated (result : UpdateResult)
  | written (result : BatchResult)
  | deleted (count : Nat)
  | document (doc : Document)

def Request.Ordered : Request → Prop
  | .find _ | .findOne _ | .count | .deleteMany _ => True
  | .updateOne filter update _ | .findOneAndUpdate filter update =>
    filter.Ordered ∧ update.Ordered
  | .bulkWrite models => ∀ model ∈ models, model.Ordered

/-- The place of the file that a backend reads. -/
def Config.home? (config : Config) : Option Location :=
  match config.backend with
  | .snapshot => some (FileTree.locationOf config.snapshotPath)
  | .sqlite => FileTree.home? config.sqlitePath

namespace Backend

def carryOut (name : String) : Request → Held → Outcome StoreError Held Answer
  | .find filter, held => ⟨(held.1.find name filter).map .found, held⟩
  | .findOne filter, held => ⟨(held.1.findOne name filter).map .first, held⟩
  | .count, held => .pass (.counted (held.1.count name)) held
  | .updateOne filter update upsert, held =>
    (updateOne name filter update upsert held).map .updated
  | .bulkWrite models, held => (bulkWrite name models held).map .written
  | .deleteMany filter, held => (deleteMany name filter held).map .deleted
  | .findOneAndUpdate filter update, held =>
    (findOneAndUpdate name filter update held).map .document

/-- A property of the states that each single write keeps is kept by every request. -/
theorem carryOut_keeps {P : Held → Prop} {name : String}
    (hupdate : ∀ (filter : Filter) (update : Update) (upsert : Bool), filter.Ordered →
      update.Ordered → ∀ held, P held → P (updateOne name filter update upsert held).state)
    (hdelete : ∀ (filter : Filter) held, P held → P (deleteMany name filter held).state)
    (hfind : ∀ (filter : Filter) (update : Update), filter.Ordered → update.Ordered →
      ∀ held, P held → P (findOneAndUpdate name filter update held).state)
    {request : Request} (hrequest : request.Ordered) {held : Held} (h : P held) :
    P (carryOut name request held).state := by
  cases request with
  | find | findOne | count => exact h
  | updateOne filter update upsert =>
    exact hupdate filter update upsert hrequest.1 hrequest.2 held h
  | bulkWrite models =>
    refine Outcome.batch_keeps (P := P) (fun model hm state hstate => ?_) h
    obtain ⟨hfilter, hmodel⟩ := hrequest model hm
    exact hupdate model.filter model.update model.upsert hfilter hmodel state hstate
  | deleteMany filter => exact hdelete filter held h
  | findOneAndUpdate filter update => exact hfind filter update hrequest.1 hrequest.2 held h

/-- The states that a backend gets into from a missing file, with no changes beside it that the
engine would play back. -/
inductive Reachable (config : Config) : Held → Prop where
  | opened {files : FileTree} (habsent : ∀ location, config.home? = some location →
      ∀ content, files.entry? location ≠ some (.file content)) :
    Reachable config (restore config files)
  | request {held : Held} (h : Reachable config held) (name : String) {request : Request}
      (hrequest : request.Ordered) :
    Reachable config (carryOut name request held).state
  | flushed {held : Held} (h : Reachable config held) : Reachable config (flush held).state
  | reopened {held : Held} (h : Reachable config held) : Reachable config (restore config held.2)
  /-- Others change files, but not the file of the backend. -/
  | meanwhile {backend : Backend} {files later : FileTree} (h : Reachable config (backend, files))
      (hhome : ∀ location, config.home? = some location →
        later.entry? location = files.entry? location) :
    Reachable config (backend, later)

lemma reachable_restore_empty (config : Config) (directory : String) :
    Reachable config (restore config (.empty directory)) := by
  refine .opened fun location _ content hentry => ?_
  unfold FileTree.entry? at hentry
  simp [FileTree.empty, LocationMap.get?_empty] at hentry

end Backend

end DocStore
