import DocStore.Proofs.Paths

/-!
# What a path leads to after a write

`Value.resolve` follows segments through the mappings inside a value; for a document it is what
`Document.getAt?` finds (`Document.getAt?_eq_resolve`). After a write at one path this gives what
every path leads to: behind the path of the write it is what was written, in front of it a mapping
that the write went through, and at any other path what was there before (`Document.get?_set`).
-/

namespace DocStore

namespace Value

/-- What some segments lead to inside a value. Only mappings are entered. -/
def resolve : List String → Value → Option Value
  | [], value => some value
  | key :: rest, .object fields => (Fields.get? key fields).bind (resolve rest)
  | _ :: _, _ => none

lemma resolve_append (first second : List String) (value : Value) :
    resolve (first ++ second) value = (resolve first value).bind (resolve second) := by
  induction first generalizing value with
  | nil => rfl
  | cons key rest ih =>
    cases value with
    | object fields =>
      simp only [List.cons_append, resolve, Option.bind_assoc]
      exact congrArg _ (funext ih)
    | _ => rfl

end Value

namespace Document

open Value (resolve)

lemma getAt?_eq_resolve {keys : List String} (h : keys ≠ []) (doc : Document) :
    getAt? keys doc = resolve keys (.object doc) := by
  induction keys generalizing doc with
  | nil => exact absurd rfl h
  | cons key rest ih =>
    cases rest with
    | nil => simp [getAt?, resolve]
    | cons next more =>
      rw [getAt?, resolve]
      cases Fields.get? key doc with
      | none => rfl
      | some value =>
        cases value with
        | object inner => exact ih (List.cons_ne_nil next more) inner
        | _ => rfl

lemma get?_eq_resolve (doc : Document) (path : String) :
    doc.get? path = resolve (segments path) (.object doc) :=
  getAt?_eq_resolve (segments_ne_nil path) doc

/-- The mapping that some segments lead to; empty when they lead to none. -/
def mappingAt (keys : List String) (doc : Document) : Document :=
  ((resolve keys (.object doc)).bind Value.asObject?).getD []

lemma mappingAt_nil (keys : List String) : mappingAt keys [] = [] := by
  cases keys <;> rfl

lemma mappingAt_cons (key : String) (rest : List String) (doc : Document) :
    mappingAt (key :: rest) doc = mappingAt rest (child key doc) := by
  rw [mappingAt, child, resolve]
  cases Fields.get? key doc with
  | none => exact (mappingAt_nil rest).symm
  | some value =>
    cases value with
    | object inner => rfl
    | _ => cases rest <;> rfl

/-- On its way to the place of a write a path leads to what the write makes of the mapping there. -/
lemma resolve_below (front rest : List String) (value : Value) (doc : Document) :
    resolve front (below (front ++ rest) value doc) =
      some (below rest value (mappingAt front doc)) := by
  induction front generalizing doc with
  | nil => rfl
  | cons key front ih =>
    rw [List.cons_append, below, setAt_cons, resolve, Fields.get?_insert_self, Option.bind_some,
      ih, mappingAt_cons]

/-- What a path leads to after a write at another path, in all cases: what the rest of it leads to
inside the written value, when it goes on behind the write; when the write went through it, the
mapping that was there, or an empty one, with the value written at the rest of the other path; and
what it led to before, when the paths part. -/
theorem get?_set (doc : Document) (path other : String) (value : Value) :
    (doc.set path value).get? other =
      if segments path <+: segments other then
        value.resolve ((segments other).drop (segments path).length)
      else if segments other <+: segments path then
        some (.object (setAt ((segments path).drop (segments other).length) value
          (((doc.get? other).bind Value.asObject?).getD [])))
      else doc.get? other := by
  obtain ⟨key, keys, hkeys⟩ := List.exists_cons_of_ne_nil (segments_ne_nil path)
  have hbelow : Value.object (doc.set path value) = below (segments path) value doc := by
    rw [hkeys, below, set, hkeys]
  split
  · rename_i hbehind
    obtain ⟨rest, hrest⟩ := hbehind
    have hself := resolve_below (segments path) [] value doc
    rw [List.append_nil] at hself
    rw [get?_eq_resolve, hbelow, ← hrest, Value.resolve_append, hself, Option.bind_some,
      List.drop_left, below]
  · rename_i hbehind
    split
    · rename_i hfront
      obtain ⟨rest, hrest⟩ := hfront
      have hne : rest ≠ [] := by
        rintro rfl
        exact hbehind (by simp [← hrest])
      obtain ⟨next, more, rfl⟩ := List.exists_cons_of_ne_nil hne
      rw [get?_eq_resolve, hbelow, ← hrest, resolve_below, List.drop_left, below, mappingAt,
        get?_eq_resolve]
    · rename_i hfront
      exact getAt?_setAt_of_incomparable ⟨hbehind, hfront⟩ value doc

/-- A scalar in the way of a write gives way to a mapping. -/
example :
    (Document.get? (Document.set [("a", .int 1)] "a.b" (.bool true)) "a").map Value.kind =
      some "object" := by
  decide +kernel

end Document

end DocStore
