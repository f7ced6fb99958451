import DocStore.Proofs.Store.Requests
import DocStore.Store.Basic

/-!
# Stores in use

A store takes requests and is closed, and when it is dropped another one may be made on its files.
`Store.run` does such actions one after the other. What opening a backend, requests and flushes keep
is kept by every run: `keptBy_run`.
-/

namespace DocStore

/-- What each single write keeps is kept by every request. -/
theorem Backend.carryOut_preserves {P : Held → Prop} {name : String}
    (hupdate : ∀ filter update upsert held, P held →
      P (updateOne name filter update upsert held).state)
    (hdelete : ∀ filter held, P held → P (deleteMany name filter held).state)
    (hfind : ∀ filter update held, P held → P (findOneAndUpdate name filter update held).state)
    (request : Request) {held : Held} (h : P held) : P (carryOut name request held).state := by
  cases request with
  | find | findOne | count => exact h
  | updateOne filter update upsert => exact hupdate filter update upsert held h
  | bulkWrite models =>
    exact Outcome.batch_keeps (P := P) (fun model _ => hupdate _ _ _) h
  | deleteMany filter => exact hdelete filter held h
  | findOneAndUpdate filter update => exact hfind filter update held h

namespace Store

def carryOut (name : String) (store : Store) : Request → Outcome StoreError Store Answer
  | .find filter => (store.find name filter).map .found
  | .findOne filter => (store.findOne name filter).map .first
  | .count => (store.count name).map .counted
  | .updateOne filter update upsert => (store.updateOne name filter update upsert).map .updated
  | .bulkWrite models => (store.bulkWrite name models).map .written
  | .deleteMany filter => (store.deleteMany name filter).map .deleted
  | .findOneAndUpdate filter update => (store.findOneAndUpdate name filter update).map .document

/-- What is done with a store. -/
inductive Action where
  | ask (name : String) (request : Request)
  | close
  /-- The store is dropped, and another one is made on its files. -/
  | reopen

def act (store : Store) : Action → Store
  | .ask name request => (store.carryOut name request).state
  | .close => store.close.state
  | .reopen => .start store.config store.files

def run (store : Store) (actions : List Action) : Store :=
  actions.foldl act store

theorem carryOut_eq (name : String) (store : Store) (request : Request) :
    store.carryOut name request =
      (Backend.carryOut name request store.held).mapState store.keep := by
  cases request <;> rfl

lemma act_ask (store : Store) (name : String) (request : Request) :
    store.act (.ask name request) =
      store.keep (Backend.carryOut name request store.held).state := by
  rw [act, carryOut_eq]
  rfl

lemma act_close (store : Store) :
    store.act .close =
      if store.isInitialized then store.keep (Backend.flush store.held).state else store := by
  rw [act, close]
  split <;> rfl

/-- A property of the files and one of an open backend, as far as a store has them. -/
structure KeptBy (config : Config) (P : FileTree → Prop) (Q : Backend.Held → Prop)
    (store : Store) : Prop where
  config : store.config = config
  files : P store.files
  backend : ∀ backend, store.backend = some backend → Q (backend, store.files)

variable {config : Config} {P : FileTree → Prop} {Q : Backend.Held → Prop} {store : Store}

lemma keptBy_start {files : FileTree} (h : P files) : KeptBy config P Q (.start config files) :=
  ⟨rfl, h, fun _ hnone => by cases hnone⟩

lemma KeptBy.held (h : KeptBy config P Q store)
    (hopen : ∀ files, P files → Q (Backend.restore config files)) : Q store.held := by
  unfold Store.held
  split
  · rename_i backend hbackend
    exact h.backend backend hbackend
  · rw [h.config]
    exact hopen store.files h.files

lemma KeptBy.keep (h : KeptBy config P Q store) {held : Backend.Held} (hfiles : P held.2)
    (hheld : Q held) : KeptBy config P Q (store.keep held) where
  config := h.config
  files := hfiles
  backend := by
    rintro _ ⟨⟩
    exact hheld

/-- What opening a backend, requests and flushes keep is kept by every run. -/
theorem keptBy_run (h : KeptBy config P Q store)
    (hopen : ∀ files, P files → Q (Backend.restore config files))
    (hask : ∀ name request held, Q held → Q (Backend.carryOut name request held).state)
    (hflush : ∀ held, Q held → Q (Backend.flush held).state)
    (hleft : ∀ held, Q held → P held.2) (actions : List Action) :
    KeptBy config P Q (store.run actions) := by
  refine List.foldlRecOn actions act (motive := KeptBy config P Q) h ?_
  intro store h action _
  have hheld := h.held hopen
  cases action with
  | ask name request =>
    rw [act_ask]
    have hstate := hask name request _ hheld
    exact h.keep (hleft _ hstate) hstate
  | close =>
    rw [act_close]
    split
    · have hstate := hflush _ hheld
      exact h.keep (hleft _ hstate) hstate
    · exact h
  | reopen =>
    rw [act, h.config]
    exact keptBy_start h.files

end Store

end DocStore
