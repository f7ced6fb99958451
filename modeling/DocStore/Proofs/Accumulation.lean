import DocStore.Proofs.Assignments
import DocStore.Proofs.Overwriting
import Mathlib.Algebra.BigOperators.Group.List.Basic
import Mathlib.Logic.Function.Iterate
import Mathlib.Tactic.Ring

/-!
# Repeated increments

An increment of an integer by an integer gives their exact sum when this has 64 bits, and a double
otherwise, never another integer (`Update.get?_apply_adding`). So increments at equal or unrelated
paths, applied any number of times, leave at each path the integer that was there and all that was
added to it, as long as no partial sum overflows (`Update.get?_iterate_adding`).
-/

namespace DocStore

open Document (segments Incomparable)

namespace Value

/-- Whether an integer has 64 bits. -/
def FitsInt (n : Int) : Prop :=
  Int64.minValue.toInt ≤ n ∧ n ≤ Int64.maxValue.toInt

instance (n : Int) : Decidable (FitsInt n) :=
  inferInstanceAs (Decidable (_ ∧ _))

lemma addInts_of_fitsInt {a b : Int64} (h : FitsInt (a.toInt + b.toInt)) :
    ∃ sum : Int64, addInts a b = .int sum ∧ sum.toInt = a.toInt + b.toInt := by
  have hmin : Int64.minValue.toInt = -2 ^ 63 := by decide
  have hmax : Int64.maxValue.toInt = 2 ^ 63 - 1 := by decide
  obtain ⟨hlow, hhigh⟩ := h
  refine ⟨Int64.ofInt (a.toInt + b.toInt), if_pos ⟨hlow, hhigh⟩, ?_⟩
  exact Int64.toInt_ofInt_of_le (by omega) (by omega)

lemma addInts_of_not_fitsInt {a b : Int64} (h : ¬FitsInt (a.toInt + b.toInt)) :
    addInts a b = .float ((Binary64.ofInt a.toInt).add (Binary64.ofInt b.toInt)) :=
  if_neg h

end Value

namespace Document

/-- The integer at a path, 0 when there is none. -/
def intAt (doc : Document) (path : String) : Int64 :=
  ((doc.get? path).bind Value.asInt?).getD 0

lemma incrementBase_get? {doc : Document} {path : String}
    (h : ∀ x, doc.get? path ≠ some (.float x)) :
    Value.incrementBase (doc.get? path) = .int (doc.intAt path) := by
  rw [intAt]
  cases hget : doc.get? path with
  | none => rfl
  | some value =>
    cases value with
    | float x => exact absurd hget (h x)
    | _ => rfl

end Document

namespace Update

/-- Adds integers at paths. -/
def adding (deltas : List (String × Int64)) : Update :=
  ⟨deltas.map fun delta => .increment delta.1 (.int delta.2)⟩

/-- The sum of what is added at a path. -/
def sumAt (path : String) (deltas : List (String × Int64)) : Int :=
  ((deltas.filter (·.1 = path)).map (·.2.toInt)).sum

def add (doc : Document) (delta : String × Int64) : Document :=
  UpdateOp.apply doc (.increment delta.1 (.int delta.2))

variable {deltas : List (String × Int64)} {delta : String × Int64} {doc : Document}
  {path : String}

lemma get?_add_self {base : Int64} (h : Value.incrementBase (doc.get? path) = .int base)
    (n : Int64) :
    (add doc (path, n)).get? path = some (Value.addInts base n) := by
  have hadd : add doc (path, n) =
      doc.set path (Value.addNumbers (Value.incrementBase (doc.get? path)) (.int n)) := rfl
  rw [hadd, Document.get?_set_self, h]
  rfl

lemma get?_add_of_incomparable (h : Incomparable (segments delta.1) (segments path))
    (doc : Document) : (add doc delta).get? path = doc.get? path :=
  Document.get?_set_of_incomparable h _ doc

lemma sumAt_append (path : String) (deltas others : List (String × Int64)) :
    sumAt path (deltas ++ others) = sumAt path deltas + sumAt path others := by
  simp [sumAt]

lemma sumAt_singleton (path : String) (delta : String × Int64) :
    sumAt path [delta] = if delta.1 = path then delta.2.toInt else 0 := by
  by_cases h : delta.1 = path <;> simp [sumAt, h]

lemma sumAt_flatten_replicate (path : String) (deltas : List (String × Int64)) (n : Nat) :
    sumAt path (List.replicate n deltas).flatten = n * sumAt path deltas := by
  induction n with
  | zero => simp [sumAt]
  | succ n ih =>
    rw [List.replicate_succ, List.flatten_cons, sumAt_append, ih]
    push_cast
    ring

lemma apply_adding (deltas : List (String × Int64)) (doc : Document) :
    (adding deltas).apply doc = deltas.foldl add doc := by
  have hadds : ∀ op ∈ (adding deltas).ops, op.isIncrement = true := by
    intro op hop
    obtain ⟨delta, -, rfl⟩ := List.mem_map.mp hop
    rfl
  have hphases : (adding deltas).phases = (adding deltas).ops := by
    simpa using phases_append hadds (List.forall_mem_nil _)
  rw [apply, hphases, adding, List.foldl_map]
  rfl

lemma iterate_apply_adding (deltas : List (String × Int64)) (n : Nat) (doc : Document) :
    (adding deltas).apply^[n] doc = (List.replicate n deltas).flatten.foldl add doc := by
  induction n with
  | zero => rfl
  | succ n ih =>
    rw [Function.iterate_succ_apply', ih, apply_adding, List.replicate_succ', List.flatten_append,
      List.foldl_append, List.flatten_singleton]

lemma get?_foldl_add_of_incomparable
    (h : ∀ delta ∈ deltas, Incomparable (segments delta.1) (segments path)) (doc : Document) :
    (deltas.foldl add doc).get? path = doc.get? path := by
  induction deltas generalizing doc with
  | nil => rfl
  | cons delta rest ih =>
    obtain ⟨hdelta, hrest⟩ := List.forall_mem_cons.mp h
    rw [List.foldl_cons, ih hrest, get?_add_of_incomparable hdelta]

/-- After increments at its own path and at unrelated ones, a path counts as the integer that was
there and all that was added to it. It has this integer as soon as something was added. -/
theorem get?_foldl_add
    (hpaths : ∀ delta ∈ deltas, delta.1 = path ∨ Incomparable (segments delta.1) (segments path))
    (hfloat : ∀ x, doc.get? path ≠ some (.float x))
    (hfits : ∀ taken, taken <+: deltas →
      Value.FitsInt ((doc.intAt path).toInt + sumAt path taken)) :
    ∃ total : Int64, total.toInt = (doc.intAt path).toInt + sumAt path deltas ∧
      Value.incrementBase ((deltas.foldl add doc).get? path) = .int total ∧
      ((∃ delta ∈ deltas, delta.1 = path) →
        (deltas.foldl add doc).get? path = some (.int total)) := by
  induction deltas using List.reverseRecOn with
  | nil => exact ⟨doc.intAt path, by simp [sumAt], Document.incrementBase_get? hfloat, by simp⟩
  | append_singleton deltas delta ih =>
    obtain ⟨total, htotal, hbase, hget⟩ := ih
      (fun other hother => hpaths other (List.mem_append_left _ hother))
      (fun taken htaken => hfits taken (htaken.trans (List.prefix_append _ _)))
    rw [List.foldl_append, List.foldl_cons, List.foldl_nil, sumAt_append, sumAt_singleton]
    by_cases hpath : delta.1 = path
    · obtain ⟨name, n⟩ := delta
      obtain rfl : name = path := hpath
      have hlast := hfits _ List.prefix_rfl
      rw [sumAt_append, sumAt_singleton, if_pos rfl, ← add_assoc, ← htotal] at hlast
      obtain ⟨sum, hadd, hsum⟩ := Value.addInts_of_fitsInt hlast
      have hself := get?_add_self hbase n
      rw [hadd] at hself
      refine ⟨sum, ?_, ?_, fun _ => hself⟩
      · rw [hsum, htotal, if_pos rfl, add_assoc]
      · rw [hself]
        rfl
    · have hapart := (hpaths delta (by simp)).resolve_left hpath
      rw [get?_add_of_incomparable hapart, if_neg hpath, add_zero]
      refine ⟨total, htotal, hbase, ?_⟩
      rintro ⟨other, hother, heq⟩
      refine hget ⟨other, ?_, heq⟩
      rcases List.mem_append.mp hother with hother | hother
      · exact hother
      · rw [List.mem_singleton.mp hother] at heq
        exact absurd heq hpath

/-- One increment at a path without a double leaves the exact sum there if this has 64 bits, and
the sum of the two as doubles if not. -/
theorem get?_apply_adding (hfloat : ∀ x, doc.get? path ≠ some (.float x)) (n : Int64) :
    ∃ value, ((adding [(path, n)]).apply doc).get? path = some value ∧
      (Value.FitsInt ((doc.intAt path).toInt + n.toInt) →
        ∃ sum : Int64, value = .int sum ∧ sum.toInt = (doc.intAt path).toInt + n.toInt) ∧
      (¬Value.FitsInt ((doc.intAt path).toInt + n.toInt) →
        value = .float ((Binary64.ofInt (doc.intAt path).toInt).add (.ofInt n.toInt))) := by
  have hself := get?_add_self (Document.incrementBase_get? hfloat) n
  rw [apply_adding]
  exact ⟨_, hself, Value.addInts_of_fitsInt, Value.addInts_of_not_fitsInt⟩

/-- Increments by integers at equal or unrelated paths, applied `n` times. A path of theirs that
holds no double counts, after that, as the integer that was there, or 0, and `n` times what is
added to it, if no partial sum overflows; with `n` not 0 it holds this integer. Unrelated paths lead
to what they did. Whatever the range, a single increment leaves no other integer than the exact
sum. -/
theorem get?_iterate_adding
    (hpaths : ∀ delta ∈ deltas, ∀ other ∈ deltas,
      delta.1 = other.1 ∨ Incomparable (segments delta.1) (segments other.1))
    (doc : Document) (n : Nat) :
    (∀ delta ∈ deltas, (∀ x, doc.get? delta.1 ≠ some (.float x)) →
      (∀ taken, taken <+: (List.replicate n deltas).flatten →
        Value.FitsInt ((doc.intAt delta.1).toInt + sumAt delta.1 taken)) →
      ∃ total : Int64, total.toInt = (doc.intAt delta.1).toInt + n * sumAt delta.1 deltas ∧
        Value.incrementBase (((adding deltas).apply^[n] doc).get? delta.1) = .int total ∧
        (0 < n → ((adding deltas).apply^[n] doc).get? delta.1 = some (.int total))) ∧
    (∀ path, (∀ delta ∈ deltas, Incomparable (segments delta.1) (segments path)) →
      ((adding deltas).apply^[n] doc).get? path = doc.get? path) ∧
    ∀ path m, (∀ x, doc.get? path ≠ some (.float x)) →
      ∃ value, ((adding [(path, m)]).apply doc).get? path = some value ∧
        (Value.FitsInt ((doc.intAt path).toInt + m.toInt) →
          ∃ sum : Int64, value = .int sum ∧ sum.toInt = (doc.intAt path).toInt + m.toInt) ∧
        (¬Value.FitsInt ((doc.intAt path).toInt + m.toInt) →
          value = .float ((Binary64.ofInt (doc.intAt path).toInt).add (.ofInt m.toInt))) := by
  have hmem : ∀ delta ∈ (List.replicate n deltas).flatten, delta ∈ deltas := by
    intro delta hdelta
    obtain ⟨run, hrun, hm⟩ := List.mem_flatten.mp hdelta
    rwa [← List.eq_of_mem_replicate hrun]
  rw [iterate_apply_adding]
  refine ⟨?_, ?_, fun path m hfloat => get?_apply_adding hfloat m⟩
  · intro delta hdelta hfloat hfits
    obtain ⟨total, htotal, hbase, hget⟩ := get?_foldl_add
      (fun other hother => hpaths other (hmem other hother) delta hdelta) hfloat hfits
    rw [sumAt_flatten_replicate] at htotal
    refine ⟨total, htotal, hbase, fun hn => hget ⟨delta, ?_, rfl⟩⟩
    exact List.mem_flatten.mpr ⟨deltas, List.mem_replicate.mpr ⟨hn.ne', rfl⟩, hdelta⟩
  · intro path hapart
    exact get?_foldl_add_of_incomparable (fun delta hdelta => hapart delta (hmem delta hdelta)) doc

/-- Two increments of one path and one of another, applied twice; a string stands in the way to the
first path. -/
theorem get?_iterate_adding_through_string :
    let deltas : List (String × Int64) := [("a.n", 2), ("b", -1), ("a.n", 3)]
    let doc : Document := [("a", .string "s"), ("b", .int 5), ("c", .null)]
    ((adding deltas).apply^[2] doc).get? "a.n" = some (.int 10) ∧
      ((adding deltas).apply^[2] doc).get? "c" = some .null := by
  intro deltas doc
  have hpaths : ∀ delta ∈ deltas, ∀ other ∈ deltas,
      delta.1 = other.1 ∨ Incomparable (segments delta.1) (segments other.1) := by
    decide +kernel
  obtain ⟨hsum, hothers, -⟩ := get?_iterate_adding hpaths doc 2
  have hfits : ∀ taken ∈ (List.replicate 2 deltas).flatten.inits,
      Value.FitsInt ((doc.intAt "a.n").toInt + sumAt "a.n" taken) := by
    decide +kernel
  obtain ⟨total, htotal, -, hget⟩ := hsum ("a.n", 2) (by simp [deltas])
    (fun x hx => by cases hx) (fun taken htaken => hfits taken ((List.mem_inits _ _).mpr htaken))
  have hten : total = 10 := Int64.toInt_inj.mp (htotal.trans (by decide +kernel))
  refine ⟨?_, hothers "c" ?_⟩
  · rw [← hten]
    exact hget (by decide)
  · decide +kernel

end Update

end DocStore
