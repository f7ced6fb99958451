import DocStore.Store.Batch
import DocStore.Schema

/-!
# Collections in memory

A collection is the list of its documents in order of insertion. A write goes to the first document
that matches, or behind the others; whatever document shares the key of the written one disappears.
Main statements: a split list is put together again (`splitFirst_eq_some`), and no split means no
match (`splitFirst_eq_none_iff`).
-/

namespace DocStore

/-- A list around the first element that satisfies `p`. -/
def splitFirst {α : Type} (p : α → Bool) : List α → Option (List α × α × List α)
  | [] => none
  | a :: rest =>
    if p a then some ([], a, rest)
    else (splitFirst p rest).map fun (before, found, after) => (a :: before, found, after)

theorem splitFirst_eq_none_iff {α : Type} {p : α → Bool} {l : List α} :
    splitFirst p l = none ↔ ∀ a ∈ l, p a = false := by
  induction l with
  | nil => simp [splitFirst]
  | cons a rest ih => by_cases h : p a <;> simp [splitFirst, h, ih]

theorem splitFirst_eq_some {α : Type} {p : α → Bool} {l before after : List α} {found : α}
    (h : splitFirst p l = some (before, found, after)) :
    l = before ++ found :: after ∧ p found = true ∧ ∀ a ∈ before, p a = false := by
  induction l generalizing before with
  | nil => simp [splitFirst] at h
  | cons a rest ih =>
    by_cases ha : p a
    · simp only [splitFirst, ha, if_true, Option.some.injEq, Prod.mk.injEq] at h
      obtain ⟨rfl, rfl, rfl⟩ := h
      simp [ha]
    · simp only [splitFirst, ha, Bool.false_eq_true, if_false, Option.map_eq_some_iff,
        Prod.mk.injEq] at h
      obtain ⟨⟨earlier, same, later⟩, hrest, rfl, rfl, rfl⟩ := h
      obtain ⟨rfl, hp, hall⟩ := ih hrest
      exact ⟨rfl, hp, by simpa [ha] using hall⟩

/-- The document that the equalities of a filter describe. -/
def Filter.seed (filter : Filter) : Document :=
  filter.equalities.foldl (fun doc equality => doc.set equality.1 equality.2) []

/-- The document that is made when nothing matches: what the filter asks for, then updated. -/
def Update.create (update : Update) (filter : Filter) : Document :=
  update.apply filter.seed

/-- Whether two documents have equal values at the key path. -/
def Schema.sharesKey (schema : Schema) (doc other : Document) : Bool :=
  match doc.get? schema.key.path with
  | none => false
  | some key => (other.get? schema.key.path).any fun found => found.eqv key

abbrev Collection := List Document

namespace Collection

/-- Whether two documents cannot both stand in the collection `name`. -/
def collides (name : String) (doc other : Document) : Bool :=
  (Schema.for? name).any fun schema => schema.sharesKey doc other

/-- Puts a document between others, without those that it collides with. -/
def place (name : String) (before : List Document) (doc : Document) (after : List Document) :
    Collection :=
  before.filter (!collides name doc ·) ++ doc :: after.filter (!collides name doc ·)

/-- Updates the first match; the updated document and the collection with it. -/
def updateFirst? (name : String) (filter : Filter) (update : Update) (docs : Collection) :
    Option (Document × Collection) :=
  (splitFirst filter.accepts docs).map fun (before, doc, after) =>
    (update.apply doc, place name before (update.apply doc) after)

def push (name : String) (doc : Document) (docs : Collection) : Collection :=
  place name docs doc []

/-- Updates the first match. When there is none, `upsert` makes a document. -/
def updateOne (name : String) (filter : Filter) (update : Update) (upsert : Bool)
    (docs : Collection) : UpdateResult × Collection :=
  match updateFirst? name filter update docs with
  | some (_, docs) => (.matched, docs)
  | none =>
    if upsert then (.created, push name (update.create filter) docs)
    else (.unmatched, docs)

/-- Updates the first match or makes a document, and gives it as it then is. -/
def findOneAndUpdate (name : String) (filter : Filter) (update : Update) (docs : Collection) :
    Document × Collection :=
  match updateFirst? name filter update docs with
  | some result => result
  | none => (update.create filter, push name (update.create filter) docs)

def deleteMany (filter : Filter) (docs : Collection) : Nat × Collection :=
  (docs.countP filter.accepts, docs.filter (!filter.accepts ·))

end Collection

end DocStore
