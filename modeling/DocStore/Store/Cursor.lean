import DocStore.Store.Basic

/-!
# Cursors

A cursor gives the documents of one answer one after the other. It holds them all, so later writes
do not show in it. What it gives after some steps is the document at that place of the answer
(`Cursor.next_after`), and its count of remaining documents is exact (`Cursor.remaining_after`).
-/

namespace DocStore

/-- The documents that are still to come. -/
structure Cursor where
  toList : List Document

/-- A cursor over the matches of a filter. -/
def Store.cursor (store : Store) (name : String) (filter : Filter) :
    Outcome StoreError Store Cursor :=
  (store.find name filter).map Cursor.mk

namespace Cursor

def remaining (cursor : Cursor) : Nat :=
  cursor.toList.length

/-- The next document, and the cursor behind it. -/
def next (cursor : Cursor) : Option Document × Cursor :=
  (cursor.toList.head?, ⟨cursor.toList.tail⟩)

/-- The cursor behind a number of documents. -/
def after : Nat → Cursor → Cursor
  | 0, cursor => cursor
  | n + 1, cursor => after n cursor.next.2

theorem toList_after (n : Nat) (cursor : Cursor) :
    (after n cursor).toList = cursor.toList.drop n := by
  induction n generalizing cursor with
  | zero => rfl
  | succ n ih =>
    calc (after (n + 1) cursor).toList = cursor.toList.tail.drop n := ih _
      _ = cursor.toList.drop (n + 1) := List.drop_tail

theorem next_after (n : Nat) (cursor : Cursor) :
    (after n cursor).next.1 = cursor.toList[n]? := by
  rw [next, toList_after, List.head?_drop]

theorem remaining_after (n : Nat) (cursor : Cursor) :
    (after n cursor).remaining = cursor.remaining - n := by
  rw [remaining, toList_after, List.length_drop, remaining]

end Cursor

end DocStore
