import DocStore.Store.Backend

/-!
# Stores

A store has a configuration, and a backend once a collection was asked for. Reading opens the
backend too; only closing leaves a store without one as it is.
-/

namespace DocStore

/-- A store and the files around it. -/
structure Store where
  config : Config
  /-- The backend, once it was asked for. -/
  backend : Option Backend
  files : FileTree

namespace Store

/-- The store of a configuration, before its first use. -/
def start (config : Config) (files : FileTree) : Store :=
  ⟨config, none, files⟩

def isInitialized (store : Store) : Bool :=
  store.backend.isSome

/-- The backend and the files; the file of the backend is read now when it was not read before. -/
def held (store : Store) : Backend.Held :=
  match store.backend with
  | some backend => (backend, store.files)
  | none => Backend.restore store.config store.files

/-- The store with what an operation left of its backend and files. -/
def keep (store : Store) (held : Backend.Held) : Store :=
  { store with backend := some held.1, files := held.2 }

def opened (store : Store) : Store :=
  store.keep store.held

def read {α : Type} (store : Store) (question : Backend → Except StoreError α) :
    Outcome StoreError Store α :=
  ⟨question store.held.1, store.opened⟩

def write {α : Type} (store : Store) (action : Backend.Held → Outcome StoreError Backend.Held α) :
    Outcome StoreError Store α :=
  (action store.held).mapState store.keep

def find (store : Store) (name : String) (filter : Filter) :
    Outcome StoreError Store (List Document) :=
  store.read (·.find name filter)

def findAll (store : Store) (name : String) : Outcome StoreError Store (List Document) :=
  store.find name .empty

def findOne (store : Store) (name : String) (filter : Filter) :
    Outcome StoreError Store (Option Document) :=
  store.read (·.findOne name filter)

def count (store : Store) (name : String) : Outcome StoreError Store Nat :=
  store.read fun backend => .ok (backend.count name)

def updateOne (store : Store) (name : String) (filter : Filter) (update : Update)
    (upsert : Bool) : Outcome StoreError Store UpdateResult :=
  store.write (Backend.updateOne name filter update upsert)

def bulkWrite (store : Store) (name : String) (models : List WriteModel) :
    Outcome StoreError Store BatchResult :=
  store.write (Backend.bulkWrite name models)

def deleteMany (store : Store) (name : String) (filter : Filter) :
    Outcome StoreError Store Nat :=
  store.write (Backend.deleteMany name filter)

def findOneAndUpdate (store : Store) (name : String) (filter : Filter) (update : Update) :
    Outcome StoreError Store Document :=
  store.write (Backend.findOneAndUpdate name filter update)

/-- Writes the file of the backend; nothing happens when there is no backend. -/
def close (store : Store) : Outcome StoreError Store Unit :=
  if store.isInitialized then store.write Backend.flush else .pass () store

end Store

end DocStore
