import DocStore.Proofs.Keys
import DocStore.Proofs.Nesting
import DocStore.Proofs.Paths
import DocStore.Proofs.ReadBack
import Mathlib.Algebra.Order.BigOperators.Group.List
import Mathlib.Algebra.Ring.Int.Defs
import Mathlib.Algebra.Ring.Nat

/-!
# Sums of increments

An `Increment` adds an integer at a path of the document of a key. As long as no sum overflows,
applying it is a `tally` of 64-bit integers, and tallies at equal or unrelated paths may come in any
order (`Increment.tally_comm`). So the document that increments make of a key depends on them up to
order only (`Increment.Apart.documentOf_perm`), and at each path it has the sum of those that were
meant for it (`Increment.get?_documentOf`).
-/

namespace DocStore

open Document (segments Incomparable)

/-- Adds an integer at a path, in the document of a key. -/
structure Increment where
  schema : Schema
  key : String
  path : String
  delta : Int64

namespace Value

lemma addInts_eq_add {a b : Int64} (h : (a.toInt + b.toInt).natAbs < 2 ^ 63) :
    addInts a b = .int (a + b) := by
  have hmin : Int64.minValue.toInt = -9223372036854775808 := by decide
  have hmax : Int64.maxValue.toInt = 9223372036854775807 := by decide
  have hfits : Int64.minValue.toInt ≤ a.toInt + b.toInt ∧
      a.toInt + b.toInt ≤ Int64.maxValue.toInt := by
    omega
  rw [addInts, if_pos hfits, Int64.ofInt_add, Int64.ofInt_toInt, Int64.ofInt_toInt]

end Value

namespace Document

lemma mem_floats_insert {key : String} {value : Value} {doc : Document} {x : Binary64}
    (h : x ∈ (Value.object (Fields.insert key value doc)).floats) :
    x ∈ value.floats ∨ x ∈ (Value.object doc).floats := by
  induction doc with
  | nil => simpa [Fields.insert, Value.floats, Value.floatsOfFields] using h
  | cons member rest ih =>
    obtain ⟨name, old⟩ := member
    simp only [Value.floats, Value.floatsOfFields, List.mem_append] at ih ⊢
    by_cases hkey : key = name
    · simp only [Fields.insert, if_pos hkey, Value.floats, Value.floatsOfFields,
        List.mem_append] at h
      tauto
    · by_cases hlt : key < name
      · simp only [Fields.insert, if_neg hkey, if_pos hlt, Value.floats, Value.floatsOfFields,
          List.mem_append] at h
        tauto
      · simp only [Fields.insert, if_neg hkey, if_neg hlt, Value.floats, Value.floatsOfFields,
          List.mem_append] at h
        tauto

lemma mem_floats_child {key : String} {doc : Document} {x : Binary64}
    (h : x ∈ (Value.object (child key doc)).floats) : x ∈ (Value.object doc).floats := by
  induction doc with
  | nil => exact h
  | cons member rest ih =>
    obtain ⟨name, value⟩ := member
    simp only [Value.floats, Value.floatsOfFields, List.mem_append] at ih ⊢
    by_cases hkey : key = name
    · left
      rw [child, Fields.get?_cons, if_pos hkey] at h
      cases value with
      | object inner => exact h
      | _ => simp [Value.asObject?, Value.floats, Value.floatsOfFields] at h
    · right
      rw [child, Fields.get?_cons, if_neg hkey] at h
      exact ih h

lemma mem_floats_setAt {keys : List String} {value : Value} {doc : Document} {x : Binary64}
    (h : x ∈ (Value.object (setAt keys value doc)).floats) :
    x ∈ value.floats ∨ x ∈ (Value.object doc).floats := by
  induction keys generalizing doc with
  | nil => exact .inr h
  | cons key rest ih =>
    cases rest with
    | nil => exact mem_floats_insert h
    | cons next more =>
      rcases mem_floats_insert h with h | h
      · rcases ih h with h | h
        · exact .inl h
        · exact .inr (mem_floats_child h)
      · exact .inr h

end Document

namespace Increment

/-- The document of the key, by its value at the key path. -/
def filter (call : Increment) : Filter :=
  Filter.empty.push call.schema.key.path (.equals (.string call.key))

def update (call : Increment) : Update :=
  ⟨[.increment call.path (.int call.delta)]⟩

/-- Whether an increment is meant for the document of a key. -/
def concerns (call : Increment) (schema : Schema) (key : String) : Bool :=
  call.schema == schema && call.key == key

/-- Whether an increment adds at a path. -/
def hits (call : Increment) (path : String) : Bool :=
  segments call.path == segments path

/-- The sum of what is added at a path. -/
def sumAt (path : String) (calls : List Increment) : Int :=
  ((calls.filter (·.hits path)).map (·.delta.toInt)).sum

/-- Adds to the integer at the path, modulo `2 ^ 64`. -/
def tally (call : Increment) (doc : Document) : Document :=
  doc.set call.path (.int (((doc.get? call.path).bind Value.asInt?).getD 0 + call.delta))

/-- The document that is made for a key. -/
def seed (schema : Schema) (key : String) : Document :=
  Document.set [] schema.key.path (.string key)

/-- What increments make of the document of a key. -/
def documentOf (schema : Schema) (key : String) (calls : List Increment) : Document :=
  (calls.filter (·.concerns schema key)).foldl (fun doc call => call.tally doc) (seed schema key)

/-- Increments at paths that are equal or unrelated, to each other and to the key path of their
collection, and that no reader refuses; all that they add together fits into 64 bits. -/
structure Apart (calls : List Increment) : Prop where
  schemas : ∀ call ∈ calls, call.schema ∈ Schema.all
  paths : ∀ call ∈ calls, ∀ other ∈ calls,
    segments call.path = segments other.path ∨
      Incomparable (segments call.path) (segments other.path)
  keys : ∀ call ∈ calls, Incomparable (segments call.path) (segments call.schema.key.path)
  short : ∀ call ∈ calls, (segments call.path).length ≤ Value.nestingLimit
  bounded : (calls.map (·.delta.toInt.natAbs)).sum < 2 ^ 63

variable {call other : Increment} {calls others : List Increment} {schema : Schema}
  {key path : String} {doc : Document}

lemma get?_tally_of_eq (h : segments call.path = segments path) :
    (call.tally doc).get? path =
      some (.int (((doc.get? path).bind Value.asInt?).getD 0 + call.delta)) := by
  rw [tally, Document.get?, Document.set, h, Document.getAt?_setAt_self _
    (Document.segments_ne_nil path), Document.get?, Document.get?, h]

lemma get?_tally_of_incomparable (h : Incomparable (segments call.path) (segments path)) :
    (call.tally doc).get? path = doc.get? path :=
  Document.get?_set_of_incomparable h _ doc

/-- Of two tallies at equal or unrelated paths either may come first. -/
theorem tally_comm (h : segments call.path = segments other.path ∨
    Incomparable (segments call.path) (segments other.path)) (doc : Document) :
    call.tally (other.tally doc) = other.tally (call.tally doc) := by
  rcases h with heq | happart
  · have hfirst : ((other.tally doc).get? call.path) =
        some (.int (((doc.get? call.path).bind Value.asInt?).getD 0 + other.delta)) :=
      get?_tally_of_eq heq.symm
    have hsecond : ((call.tally doc).get? other.path) =
        some (.int (((doc.get? other.path).bind Value.asInt?).getD 0 + call.delta)) :=
      get?_tally_of_eq heq
    have hsame : doc.get? other.path = doc.get? call.path := by
      rw [Document.get?, Document.get?, heq]
    have hsum : ∀ n : Int64, n + other.delta + call.delta = n + call.delta + other.delta := by
      intro n
      rw [Int64.add_assoc, Int64.add_comm other.delta, ← Int64.add_assoc]
    unfold tally at hfirst hsecond ⊢
    rw [hfirst, hsecond, hsame]
    simp only [Document.set, heq, Document.setAt_setAt_self, Option.bind_some, Value.asInt?,
      Option.getD_some]
    rw [hsum]
  · have hfirst : (other.tally doc).get? call.path = doc.get? call.path :=
      get?_tally_of_incomparable happart.symm
    have hsecond : (call.tally doc).get? other.path = doc.get? other.path :=
      get?_tally_of_incomparable happart
    unfold tally at hfirst hsecond ⊢
    rw [hfirst, hsecond]
    exact Document.setAt_comm happart _ _ doc

/-- An increment is applied as a tally, as long as there is an integer or nothing at its path and
the sum fits. -/
lemma apply_update_eq_tally (hvalue : ∀ value ∈ doc.get? call.path, ∃ n, value = .int n)
    (hfits : ((((doc.get? call.path).bind Value.asInt?).getD 0).toInt +
      call.delta.toInt).natAbs < 2 ^ 63) :
    call.update.apply doc = call.tally doc := by
  have happly : call.update.apply doc = doc.set call.path
      (Value.addNumbers (Value.incrementBase (doc.get? call.path)) (.int call.delta)) := rfl
  have hbase : Value.incrementBase (doc.get? call.path) =
      .int (((doc.get? call.path).bind Value.asInt?).getD 0) := by
    cases hget : doc.get? call.path with
    | none => rfl
    | some value =>
      obtain ⟨n, rfl⟩ := hvalue value hget
      rfl
  rw [happly, hbase, tally]
  exact congrArg (doc.set call.path) (Value.addInts_eq_add hfits)

lemma sumAt_append (path : String) (calls others : List Increment) :
    sumAt path (calls ++ others) = sumAt path calls + sumAt path others := by
  simp [sumAt]

lemma sumAt_singleton (path : String) (call : Increment) :
    sumAt path [call] = if call.hits path then call.delta.toInt else 0 := by
  by_cases h : call.hits path = true <;> simp [sumAt, h]

lemma sumAt_eq_zero (h : ∀ call ∈ calls, call.hits path = false) : sumAt path calls = 0 := by
  have hnone : calls.filter (·.hits path) = [] := by
    simpa using h
  rw [sumAt, hnone]
  rfl

/-- What stands at a path after some increments, when nothing stood there before. -/
def valueAt? (path : String) (calls : List Increment) : Option Value :=
  if calls.any (·.hits path) then some (.int (Int64.ofInt (sumAt path calls))) else none

lemma asInt?_valueAt? (path : String) (calls : List Increment) :
    ((valueAt? path calls).bind Value.asInt?).getD 0 = Int64.ofInt (sumAt path calls) := by
  unfold valueAt?
  by_cases h : calls.any (·.hits path) = true
  · rw [if_pos h]
    rfl
  · have hnone : ∀ call ∈ calls, call.hits path = false := by simpa using h
    rw [if_neg h, sumAt_eq_zero hnone]
    rfl

/-- At each path that is equal or unrelated to theirs, increments leave the sum of those that hit
it. -/
lemma get?_foldl_tally (hdoc : doc.get? path = none)
    (h : ∀ call ∈ calls, segments call.path = segments path ∨
      Incomparable (segments call.path) (segments path)) :
    (calls.foldl (fun doc call => call.tally doc) doc).get? path = valueAt? path calls := by
  induction calls using List.reverseRecOn with
  | nil => exact hdoc
  | append_singleton calls call ih =>
    have hbefore := ih fun other ho => h other (List.mem_append_left _ ho)
    have hlast := h call (by simp)
    rw [List.foldl_append, List.foldl_cons, List.foldl_nil]
    by_cases heq : segments call.path = segments path
    · have hhits : call.hits path = true := by simp [hits, heq]
      have hany : (calls ++ [call]).any (·.hits path) = true := by simp [hhits]
      rw [get?_tally_of_eq heq, hbefore, asInt?_valueAt?, valueAt?, if_pos hany, sumAt_append,
        sumAt_singleton, if_pos hhits, Int64.ofInt_add, Int64.ofInt_toInt]
    · have hhits : call.hits path = false := by simp [hits, heq]
      have hsame : valueAt? path (calls ++ [call]) = valueAt? path calls := by
        simp [valueAt?, sumAt_append, sumAt_singleton, hhits]
      rw [get?_tally_of_incomparable (hlast.resolve_left heq), hbefore, hsame]

lemma natAbs_sumAt_le (path : String) (calls : List Increment) :
    (sumAt path calls).natAbs ≤ (calls.map (·.delta.toInt.natAbs)).sum := by
  induction calls with
  | nil => exact Nat.le_refl 0
  | cons call rest ih =>
    have hsplit := sumAt_append path [call] rest
    rw [List.singleton_append, sumAt_singleton] at hsplit
    rw [List.map_cons, List.sum_cons, hsplit]
    by_cases h : call.hits path = true
    · rw [if_pos h]
      omega
    · rw [if_neg h]
      omega

lemma toInt_ofInt_of_natAbs_lt {n : Int} (h : n.natAbs < 2 ^ 63) : (Int64.ofInt n).toInt = n :=
  Int64.toInt_ofInt_of_le (by omega) (by omega)

lemma Apart.of_subset (h : Apart calls) (hsub : ∀ call ∈ others, call ∈ calls)
    (hsum : (others.map (·.delta.toInt.natAbs)).sum ≤ (calls.map (·.delta.toInt.natAbs)).sum) :
    Apart others where
  schemas := fun call hcall => h.schemas call (hsub call hcall)
  paths := fun call hcall other hother => h.paths call (hsub call hcall) other (hsub other hother)
  keys := fun call hcall => h.keys call (hsub call hcall)
  short := fun call hcall => h.short call (hsub call hcall)
  bounded := lt_of_le_of_lt hsum h.bounded

lemma Apart.sublist (h : Apart calls) (hsub : others.Sublist calls) : Apart others :=
  h.of_subset (fun _ hcall => hsub.subset hcall)
    ((hsub.map _).sum_le_sum fun _ _ => Nat.zero_le _)

lemma Apart.natAbs_sumAt_lt (h : Apart calls) (path : String) :
    (sumAt path calls).natAbs < 2 ^ 63 :=
  lt_of_le_of_lt (natAbs_sumAt_le path calls) h.bounded

lemma Apart.perm (h : Apart calls) (hperm : others.Perm calls) : Apart others :=
  h.of_subset (fun _ hcall => hperm.subset hcall) (hperm.map _).sum_eq.le

lemma get?_seed (schema : Schema) (key : String) :
    (seed schema key).get? schema.key.path = some (.string key) :=
  Document.get?_set_self _ _ _

lemma get?_seed_of_incomparable (h : Incomparable (segments path) (segments schema.key.path)) :
    (seed schema key).get? path = none := by
  rw [seed, Document.get?_set_of_incomparable h.symm, Document.get?, Document.getAt?_nil]

lemma mem_of_mem_concerns (hcall : call ∈ calls.filter (·.concerns schema key)) :
    call ∈ calls ∧ call.schema = schema ∧ call.key = key := by
  simpa [concerns] using hcall

lemma Apart.keyOf?_documentOf (h : Apart calls) (schema : Schema) (key : String) :
    schema.keyOf? (documentOf schema key calls) = some key := by
  rw [Schema.keyOf?_eq_some_iff]
  refine List.foldlRecOn
    (motive := fun doc : Document => doc.get? schema.key.path = some (.string key)) _ _
    (get?_seed schema key) fun doc hdoc call hcall => ?_
  obtain ⟨hmem, rfl, -⟩ := mem_of_mem_concerns hcall
  rw [get?_tally_of_incomparable (h.keys call hmem)]
  exact hdoc

/-- The document of a key has, at each path that is equal or unrelated to those of the increments,
the sum of the increments of this key at this path. -/
theorem get?_documentOf
    (hpath : ∀ call ∈ calls, segments call.path = segments path ∨
      Incomparable (segments call.path) (segments path))
    (hkey : Incomparable (segments path) (segments schema.key.path)) :
    (documentOf schema key calls).get? path =
      valueAt? path (calls.filter (·.concerns schema key)) :=
  get?_foldl_tally (get?_seed_of_incomparable hkey) fun call hcall =>
    hpath call (List.mem_of_mem_filter hcall)

/-- The document of a key depends on the increments up to order only. -/
theorem Apart.documentOf_perm (h : Apart calls) (hperm : others.Perm calls) (schema : Schema)
    (key : String) : documentOf schema key others = documentOf schema key calls := by
  refine ((hperm.symm.filter _).foldl_eq' (fun first hfirst second hsecond doc => ?_) _).symm
  have hpaths := h.paths second (List.mem_of_mem_filter hsecond) first
    (List.mem_of_mem_filter hfirst)
  exact tally_comm hpaths doc

lemma documentOf_append_of_not_concerns (h : call.concerns schema key = false)
    (calls : List Increment) : documentOf schema key (calls ++ [call]) =
      documentOf schema key calls := by
  simp [documentOf, h]

lemma documentOf_eq_seed (h : ∀ call ∈ calls, call.concerns schema key = false) :
    documentOf schema key calls = seed schema key := by
  have hnone : calls.filter (·.concerns schema key) = [] := by simpa using h
  rw [documentOf, hnone]
  rfl

/-- One more increment of a key is applied to the document of the key. -/
theorem Apart.apply_documentOf (h : Apart (calls ++ [call])) :
    call.update.apply (documentOf call.schema call.key calls) =
      documentOf call.schema call.key (calls ++ [call]) := by
  have hself : call.concerns call.schema call.key = true := by simp [concerns]
  have hsplit : (calls ++ [call]).filter (·.concerns call.schema call.key) =
      calls.filter (·.concerns call.schema call.key) ++ [call] := by
    simp [hself]
  have htally : documentOf call.schema call.key (calls ++ [call]) =
      call.tally (documentOf call.schema call.key calls) := by
    rw [documentOf, hsplit, List.foldl_append]
    rfl
  have hvalue : (documentOf call.schema call.key calls).get? call.path =
      valueAt? call.path (calls.filter (·.concerns call.schema call.key)) := by
    refine get?_documentOf (fun other hother => ?_) (h.keys call (by simp))
    exact h.paths other (List.mem_append_left _ hother) call (by simp)
  have hconcerned : Apart ((calls ++ [call]).filter (·.concerns call.schema call.key)) :=
    h.sublist List.filter_sublist
  have hothers : Apart (calls.filter (·.concerns call.schema call.key)) :=
    h.sublist (List.filter_sublist.trans (List.sublist_append_left _ _))
  have hsum := hconcerned.natAbs_sumAt_lt call.path
  have hbefore := hothers.natAbs_sumAt_lt call.path
  rw [hsplit, sumAt_append, sumAt_singleton, if_pos (by simp [hits])] at hsum
  rw [htally]
  apply apply_update_eq_tally
  · rw [hvalue, valueAt?]
    intro value hm
    split at hm
    · cases hm
      exact ⟨_, rfl⟩
    · cases hm
  · rw [hvalue, asInt?_valueAt?, toInt_ofInt_of_natAbs_lt hbefore]
    exact hsum

lemma readable_set {doc : Document} (h : doc.Readable) {path : String} {value : Value}
    (hpath : (segments path).length ≤ Value.nestingLimit) (hvalue : value.nesting = 0)
    (hfloats : value.floats = []) : (doc.set path value).Readable := by
  have hnesting := Document.nesting_set_le doc path value
  refine ⟨?_, fun x hx => ?_⟩
  · have hdoc := h.1
    omega
  · rcases Document.mem_floats_setAt hx with hx | hx
    · rw [hfloats] at hx
      cases hx
    · exact h.2 x hx

lemma Apart.readable_documentOf (h : Apart calls) (hschema : schema ∈ Schema.all) (key : String) :
    (documentOf schema key calls).Readable := by
  have hshort : ∀ schema ∈ Schema.all,
      (segments schema.key.path).length ≤ Value.nestingLimit := by
    decide +kernel
  have hempty : Document.Readable [] := by decide
  refine List.foldlRecOn (motive := Document.Readable) _ _
    (readable_set hempty (hshort schema hschema) rfl rfl) fun doc hdoc call hcall => ?_
  exact readable_set hdoc (h.short call (List.mem_of_mem_filter hcall)) rfl rfl

end Increment

end DocStore
