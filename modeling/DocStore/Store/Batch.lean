import DocStore.Outcome
import DocStore.Store.Error

/-!
# Batches

The entries of a batch are carried out in order until one fails. Main statement: a batch is its
first part followed by the rest (`batch_append`).
-/

namespace DocStore

/-- What an update of the first match did. -/
inductive UpdateResult where
  | matched
  | created
  /-- Nothing matched, and nothing was to be created. -/
  | unmatched
  deriving DecidableEq

namespace UpdateResult

def matchedCount : UpdateResult → Nat
  | .matched => 1
  | _ => 0

def createdCount : UpdateResult → Nat
  | .created => 1
  | _ => 0

end UpdateResult

/-- How many entries of a batch matched a document, and how many created one. -/
structure BatchResult where
  matchedCount : Nat
  createdCount : Nat
  deriving DecidableEq

namespace BatchResult

/-- The result of the batch without entries. -/
def zero : BatchResult := ⟨0, 0⟩

def ofUpdate (result : UpdateResult) : BatchResult :=
  ⟨result.matchedCount, result.createdCount⟩

def add (a b : BatchResult) : BatchResult :=
  ⟨a.matchedCount + b.matchedCount, a.createdCount + b.createdCount⟩

@[simp] theorem zero_add (a : BatchResult) : zero.add a = a := by
  simp [zero, add]

theorem add_assoc (a b c : BatchResult) : (a.add b).add c = a.add (b.add c) := by
  simp [add, Nat.add_assoc]

end BatchResult

namespace Outcome

variable {σ : Type}

/-- Carries out the entries of a batch in order. The first failure ends it, and what the entries
before it did stays. -/
def batch (update : WriteModel → σ → Outcome StoreError σ UpdateResult) :
    List WriteModel → σ → Outcome StoreError σ BatchResult
  | [], state => pass .zero state
  | model :: rest, state =>
    (update model state).andThen fun result state =>
      (batch update rest state).map (BatchResult.ofUpdate result).add

theorem batch_append (update : WriteModel → σ → Outcome StoreError σ UpdateResult)
    (first second : List WriteModel) (state : σ) :
    batch update (first ++ second) state =
      (batch update first state).andThen fun result state =>
        (batch update second state).map result.add := by
  induction first generalizing state with
  | nil =>
    rcases h : batch update second state with ⟨_ | total, last⟩ <;>
      simp [batch, h, map, Except.map]
  | cons model rest ih =>
    simp only [List.cons_append, batch]
    rcases update model state with ⟨_ | result, next⟩
    · rfl
    · simp only [andThen, ih]
      rcases batch update rest next with ⟨_ | total, last⟩
      · rfl
      · rcases h : batch update second last with ⟨_ | more, final⟩ <;>
          simp [map, Except.map, h, BatchResult.add_assoc]

end Outcome

end DocStore
