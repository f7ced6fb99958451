import DocStore.Proofs.Resolution
import Mathlib.Data.List.Pairwise
import Mathlib.Data.List.Perm.Basic

/-!
# Values set at many paths

`Document.setAll` sets values at paths, one after the other. At unrelated paths the order does not
matter, every path then leads to its value, and a path unrelated to all of them to what was there
(`Document.setAll_perm`). In general a path leads to the value last set there, with what is set
behind it afterwards inside it, as `Value.overlay` says (`Document.get?_setAll_of_get?`). Setting
values in the order of their paths loses none (`Document.get?_setAll_of_ascending`).
-/

namespace DocStore

open Document (segments Incomparable)

namespace Value

/-- A value with another one set inside it; it gives way to a mapping when it is none. -/
def setWithin (value : Value) (keys : List String) (inner : Value) : Value :=
  Document.below keys inner (value.asObject?.getD [])

/-- The value of a path with what is set behind the path inside it, in order. -/
def overlay (value : Value) (path : String) (writes : List (String × Value)) : Value :=
  (writes.filter fun write => write.1 ≠ path ∧ segments path <+: segments write.1).foldl
    (fun value write =>
      value.setWithin ((segments write.1).drop (segments path).length) write.2) value

end Value

namespace Document

/-- Sets values at paths, one after the other. -/
def setAll (writes : List (String × Value)) (doc : Document) : Document :=
  writes.foldl (fun doc write => doc.set write.1 write.2) doc

variable {writes others : List (String × Value)} {doc : Document} {path other : String}
  {value old : Value}

lemma setAll_cons (write : String × Value) (writes : List (String × Value)) (doc : Document) :
    setAll (write :: writes) doc = setAll writes (doc.set write.1 write.2) :=
  rfl

lemma setAll_append (writes others : List (String × Value)) (doc : Document) :
    setAll (writes ++ others) doc = setAll others (setAll writes doc) :=
  List.foldl_append

lemma get?_setAll_of_incomparable
    (h : ∀ write ∈ writes, Incomparable (segments write.1) (segments path)) (doc : Document) :
    (setAll writes doc).get? path = doc.get? path := by
  induction writes generalizing doc with
  | nil => rfl
  | cons write rest ih =>
    obtain ⟨hwrite, hrest⟩ := List.forall_mem_cons.mp h
    rw [setAll_cons, ih hrest, get?_set_of_incomparable hwrite]

/-- Values that are set at unrelated paths may be set in any order: the document is the same, and
has them all. What is at paths unrelated to all of these is left alone. -/
theorem setAll_perm
    (hapart : writes.Pairwise fun a b => Incomparable (segments a.1) (segments b.1))
    (hperm : others.Perm writes) (doc : Document) :
    setAll others doc = setAll writes doc ∧
    (∀ write ∈ writes, (setAll writes doc).get? write.1 = some write.2) ∧
    ∀ path, (∀ write ∈ writes, Incomparable (segments write.1) (segments path)) →
      (setAll writes doc).get? path = doc.get? path := by
  have hsymm : Std.Symm fun a b : String × Value =>
      Incomparable (segments a.1) (segments b.1) := ⟨fun _ _ h => h.symm⟩
  refine ⟨?_, ?_, fun path h => get?_setAll_of_incomparable h doc⟩
  · apply (hperm.symm.foldl_eq' ?_ doc).symm
    intro first hfirst second hsecond doc
    by_cases hsame : first = second
    · rw [hsame]
    · exact setAt_comm (hapart.forall hsecond hfirst (Ne.symm hsame)) second.2 first.2 doc
  · intro write hwrite
    obtain ⟨before, after, rfl⟩ := List.append_of_mem hwrite
    obtain ⟨-, hlast, -⟩ := List.pairwise_append.mp hapart
    have hafter : ∀ next ∈ after, Incomparable (segments next.1) (segments write.1) := by
      intro next hnext
      exact ((List.pairwise_cons.mp hlast).1 next hnext).symm
    rw [setAll_append, setAll_cons, get?_setAll_of_incomparable hafter, get?_set_self]

/-- Two paths through a member that is an array, and one beside it. -/
theorem setAll_perm_of_array :
    let writes := [("a.x", .int 1), ("a.y.z", .null), ("b", .bool true)]
    let others := [("b", .bool true), ("a.y.z", .null), ("a.x", .int 1)]
    let doc : Document := [("a", .array [.int 0]), ("c", .string "s")]
    others.Perm writes ∧ setAll others doc = setAll writes doc ∧
      (setAll writes doc).get? "a.y.z" = some .null ∧
      (setAll writes doc).get? "c" = doc.get? "c" := by
  intro writes others doc
  have hperm : others.Perm writes := List.reverse_perm writes
  have hapart : writes.Pairwise fun a b => Incomparable (segments a.1) (segments b.1) := by
    have hpaths : ["a.x", "a.y.z", "b"].Pairwise
        fun a b => Incomparable (segments a) (segments b) := by decide +kernel
    simpa [writes] using hpaths
  obtain ⟨hsame, hread, hleft⟩ := setAll_perm hapart hperm doc
  refine ⟨hperm, hsame, hread ("a.y.z", .null) (by simp [writes]), hleft "c" ?_⟩
  have hothers : ∀ path ∈ ["a.x", "a.y.z", "b"], Incomparable (segments path) (segments "c") := by
    decide +kernel
  simpa [writes] using hothers

lemma object_set (doc : Document) (path : String) (value : Value) :
    Value.object (doc.set path value) = below (segments path) value doc := by
  obtain ⟨key, keys, hkeys⟩ := List.exists_cons_of_ne_nil (segments_ne_nil path)
  rw [set, hkeys, below]

lemma get?_set_of_behind (hget : doc.get? path = some old)
    (h : segments path <+: segments other) (value : Value) :
    (doc.set other value).get? path =
      some (old.setWithin ((segments other).drop (segments path).length) value) := by
  obtain ⟨rest, hrest⟩ := h
  rw [get?_eq_resolve] at hget
  rw [get?_eq_resolve, object_set, ← hrest, resolve_below, List.drop_left, mappingAt, hget,
    Option.bind_some, Value.setWithin]

/-- What is set after the value at a path shows behind the path, unless it is set at the path or on
the way there. -/
theorem get?_setAll_of_get? (hget : doc.get? path = some old)
    (h : ∀ write ∈ writes, ¬segments write.1 <+: segments path) :
    (setAll writes doc).get? path = some (old.overlay path writes) := by
  induction writes generalizing doc old with
  | nil => exact hget
  | cons write rest ih =>
    obtain ⟨hwrite, hrest⟩ := List.forall_mem_cons.mp h
    have hne : write.1 ≠ path := by
      rintro rfl
      exact hwrite List.prefix_rfl
    rw [setAll_cons]
    by_cases hbehind : segments path <+: segments write.1
    · rw [ih (get?_set_of_behind hget hbehind write.2) hrest, Value.overlay, Value.overlay,
        List.filter_cons_of_pos (by simp [hne, hbehind]), List.foldl_cons]
    · have hget' : (doc.set write.1 write.2).get? path = some old := by
        rw [get?_set_of_incomparable ⟨hwrite, hbehind⟩, hget]
      rw [ih hget' hrest, Value.overlay, Value.overlay,
        List.filter_cons_of_neg (by simp [hbehind])]

lemma startsWith_of_splitOnChar {separator : Char} {s t : List Char}
    (h : splitOnChar separator s <+: splitOnChar separator t) : s <+: t := by
  induction s generalizing t with
  | nil => exact List.nil_prefix
  | cons c s ih =>
    obtain ⟨piece, more, hs⟩ := List.exists_cons_of_ne_nil (splitOnChar_ne_nil separator s)
    cases t with
    | nil =>
      rw [splitOnChar, splitOnChar, hs] at h
      split at h <;> simp [List.cons_prefix_cons] at h
    | cons d t =>
      obtain ⟨first, others, ht⟩ := List.exists_cons_of_ne_nil (splitOnChar_ne_nil separator t)
      have hrest := @ih t
      rw [hs, ht] at hrest
      rw [splitOnChar, splitOnChar, hs, ht] at h
      by_cases hc : c = separator <;> by_cases hd : d = separator <;>
        simp_all [List.cons_prefix_cons]

/-- A path that another one starts with stands before it in the order of texts, as a separator
follows it there. -/
lemma le_of_segments_startWith (h : segments path <+: segments other) : path ≤ other := by
  have hpieces := h.map String.toList
  simp only [segments, List.map_map, Function.comp_def, String.toList_ofList,
    List.map_id'] at hpieces
  have hprefix : path.toList <+: other.toList := startsWith_of_splitOnChar hpieces
  exact not_lt.mp fun hlt => hprefix.le (String.lt_iff_toList_lt.mp hlt)

/-- When values are set in the order of their paths, each path leads to its own value with those
of the paths behind it inside. -/
theorem get?_setAll_of_ascending (h : Fields.Ascending writes) {write : String × Value}
    (hm : write ∈ writes) (doc : Document) :
    (setAll writes doc).get? write.1 = some (write.2.overlay write.1 writes) := by
  obtain ⟨before, after, rfl⟩ := List.append_of_mem hm
  obtain ⟨-, hlast, hbefore⟩ := List.pairwise_append.mp h
  have hafter := (List.pairwise_cons.mp hlast).1
  have hlater : ∀ next ∈ after, ¬segments next.1 <+: segments write.1 := by
    intro next hnext hprefix
    exact (hafter next hnext).not_ge (le_of_segments_startWith hprefix)
  -- What stands before it is not behind it, so only what follows is set inside.
  have hearlier : ∀ earlier ∈ before, ¬segments write.1 <+: segments earlier.1 := by
    intro earlier hm hprefix
    exact (hbefore earlier hm write (by simp)).not_ge (le_of_segments_startWith hprefix)
  have hnone : before.filter (fun other => other.1 ≠ write.1 ∧ segments write.1 <+:
      segments other.1) = [] := by
    rw [List.filter_eq_nil_iff]
    intro earlier hm
    simp [hearlier earlier hm]
  rw [setAll_append, setAll_cons, get?_setAll_of_get? (get?_set_self _ _ _) hlater,
    Value.overlay, Value.overlay, List.filter_append, hnone, List.nil_append,
    List.filter_cons_of_neg (by simp)]

end Document

end DocStore
