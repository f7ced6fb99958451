import DocStore.Proofs.Increments
import DocStore.Proofs.Store.ByKey
import DocStore.Proofs.Store.Parity
import DocStore.Proofs.Store.Rereading

/-!
# Increments of a store

Increments that do not get in each other's way make, from an empty store, one document for each key
(`Tallies`), in a snapshot as in a database. Each step keeps this (`Tallies.findOneAndUpdate`), so a
run loses no increment, each one is answered with the sum so far, and their order does not matter
(`increments_sum`).
-/

namespace DocStore

open Document (segments Incomparable)
open Sql (Image Prefilter Table)

namespace Increment

variable {call : Increment} {calls : List Increment} {schema : Schema} {docs : Collection}

def documentsOf (schema : Schema) (calls : List Increment) (keys : List String) : Collection :=
  keys.map fun key => documentOf schema key calls

/-- A collection with one document for each key that increments were meant for. -/
def Tallies (schema : Schema) (calls : List Increment) (docs : Collection) : Prop :=
  ∃ keys : List String, keys.Nodup ∧
    (∀ key, key ∈ keys ↔ ∃ call ∈ calls, call.concerns schema key = true) ∧
    docs = documentsOf schema calls keys

lemma tallies_nil (schema : Schema) : Tallies schema [] [] :=
  ⟨[], List.nodup_nil, by simp, rfl⟩

lemma Tallies.append_of_ne (h : Tallies schema calls docs) (hne : call.schema ≠ schema) :
    Tallies schema (calls ++ [call]) docs := by
  obtain ⟨keys, hnodup, hkeys, rfl⟩ := h
  have hother : ∀ key, call.concerns schema key = false := by
    intro key
    simp [concerns, hne]
  refine ⟨keys, hnodup, fun key => ?_, ?_⟩
  · rw [hkeys]
    simp [hother]
  · exact List.map_congr_left fun key _ =>
      (documentOf_append_of_not_concerns (hother key) calls).symm

lemma accepts_filter_iff (call : Increment) (doc : Document) :
    call.filter.accepts doc = true ↔ call.schema.keyOf? doc = some call.key := by
  rw [Schema.keyOf?_eq_some_iff]
  simp [filter, Filter.accepts, Filter.push, Filter.empty, Condition.holds,
    Option.any_eq_true, Value.eqv_string_iff]

lemma documentsOf_append_of_notMem (calls : List Increment) {keys : List String}
    (h : call.key ∉ keys) :
    documentsOf call.schema (calls ++ [call]) keys = documentsOf call.schema calls keys := by
  refine List.map_congr_left fun key hkey => documentOf_append_of_not_concerns ?_ calls
  have hne : call.key ≠ key := by
    rintro rfl
    exact h hkey
  simp [concerns, hne]

lemma Apart.keyOf?_ne_of_notMem (h : Apart calls) (schema : Schema) {key : String}
    {keys : List String} (hkey : key ∉ keys) :
    ∀ doc ∈ documentsOf schema calls keys, schema.keyOf? doc ≠ some key := by
  intro doc hdoc
  obtain ⟨other, hother, rfl⟩ := List.mem_map.mp hdoc
  rw [h.keyOf?_documentOf]
  rintro ⟨⟩
  exact hkey hother

section OneCall

variable (hapart : Apart (calls ++ [call]))
include hapart

lemma Apart.findOneAndUpdate_of_mem {before behind : List String} (hbefore : call.key ∉ before)
    (hbehind : call.key ∉ behind) :
    Collection.findOneAndUpdate call.schema.name call.filter call.update
        (documentsOf call.schema calls (before ++ call.key :: behind)) =
      (documentOf call.schema call.key (calls ++ [call]),
        documentsOf call.schema (calls ++ [call]) (before ++ call.key :: behind)) := by
  have hcalls : Apart calls := hapart.sublist (List.sublist_append_left _ _)
  have hname := Schema.for?_name (hapart.schemas call (by simp))
  have hkey := hapart.keyOf?_documentOf call.schema call.key
  have hfirst := hcalls.keyOf?_ne_of_notMem call.schema hbefore
  have hlast := hcalls.keyOf?_ne_of_notMem call.schema hbehind
  have hsplit : splitFirst call.filter.accepts
      (documentsOf call.schema calls (before ++ call.key :: behind)) =
      some (documentsOf call.schema calls before, documentOf call.schema call.key calls,
        documentsOf call.schema calls behind) := by
    rw [documentsOf, List.map_append, List.map_cons]
    refine Collection.splitFirst_append (fun doc hdoc => ?_) ?_
    · rw [Bool.eq_false_iff, ne_eq, accepts_filter_iff]
      exact hfirst doc hdoc
    · rw [accepts_filter_iff]
      exact hcalls.keyOf?_documentOf call.schema call.key
  have hplace := Collection.place_of_forall_ne hname hkey
    (List.forall_mem_append.mpr ⟨hfirst, hlast⟩)
  rw [Collection.findOneAndUpdate, Collection.updateFirst?, hsplit, Option.map_some]
  dsimp only
  rw [hapart.apply_documentOf, hplace, ← documentsOf_append_of_notMem calls hbefore,
    ← documentsOf_append_of_notMem calls hbehind]
  simp [documentsOf]

lemma Apart.findOneAndUpdate_of_notMem {keys : List String} (hkeys : call.key ∉ keys)
    (hnew : ∀ other ∈ calls, other.concerns call.schema call.key = false) :
    Collection.findOneAndUpdate call.schema.name call.filter call.update
        (documentsOf call.schema calls keys) =
      (documentOf call.schema call.key (calls ++ [call]),
        documentsOf call.schema (calls ++ [call]) (keys ++ [call.key])) := by
  have hcalls : Apart calls := hapart.sublist (List.sublist_append_left _ _)
  have hname := Schema.for?_name (hapart.schemas call (by simp))
  have hkey := hapart.keyOf?_documentOf call.schema call.key
  have hothers := hcalls.keyOf?_ne_of_notMem call.schema hkeys
  have hnone : splitFirst call.filter.accepts (documentsOf call.schema calls keys) = none := by
    rw [splitFirst_eq_none_iff]
    intro doc hdoc
    rw [Bool.eq_false_iff, ne_eq, accepts_filter_iff]
    exact hothers doc hdoc
  have hcreate : call.update.create call.filter =
      documentOf call.schema call.key (calls ++ [call]) := by
    have hseed : call.filter.seed = seed call.schema call.key := rfl
    rw [← hapart.apply_documentOf, documentOf_eq_seed hnew, Update.create, hseed]
  have hplace := Collection.place_of_forall_ne hname hkey
    (List.forall_mem_append.mpr ⟨hothers, List.forall_mem_nil _⟩)
  rw [Collection.findOneAndUpdate, Collection.updateFirst?, hnone, Option.map_none]
  dsimp only
  rw [Collection.push, hcreate, hplace, ← documentsOf_append_of_notMem calls hkeys]
  simp [documentsOf]

/-- An increment of a key is answered with the document of the key, and counts for no other. -/
theorem Tallies.findOneAndUpdate (h : Tallies call.schema calls docs) :
    ∃ after, Collection.findOneAndUpdate call.schema.name call.filter call.update docs =
        (documentOf call.schema call.key (calls ++ [call]), after) ∧
      Tallies call.schema (calls ++ [call]) after := by
  obtain ⟨keys, hnodup, hkeys, rfl⟩ := h
  have hself : ∀ key, call.concerns call.schema key = true ↔ call.key = key := by
    intro key
    simp [concerns]
  by_cases hused : call.key ∈ keys
  -- The key has one document, somewhere among the others, and it keeps its place.
  · obtain ⟨before, behind, rfl⟩ := List.append_of_mem hused
    obtain ⟨hnot, -⟩ := List.nodup_cons.mp (List.nodup_middle.mp hnodup)
    obtain ⟨hbefore, hbehind⟩ := not_or.mp (mt List.mem_append.mpr hnot)
    refine ⟨_, hapart.findOneAndUpdate_of_mem hbefore hbehind, _, hnodup, fun key => ?_, rfl⟩
    rw [hkeys]
    simp only [List.mem_append, List.mem_singleton]
    constructor
    · rintro ⟨other, hother, hconcerns⟩
      exact ⟨other, .inl hother, hconcerns⟩
    · rintro ⟨other, hother | rfl, hconcerns⟩
      · exact ⟨other, hother, hconcerns⟩
      · rw [← (hself key).mp hconcerns]
        exact (hkeys _).mp hused
  -- No increment was meant for the key yet, so its document starts with this one.
  · have hnew : ∀ other ∈ calls, other.concerns call.schema call.key = false := by
      intro other hother
      rw [Bool.eq_false_iff]
      exact fun hconcerns => hused ((hkeys _).mpr ⟨other, hother, hconcerns⟩)
    have hnodup' : (keys ++ [call.key]).Nodup :=
      List.nodup_append'.mpr ⟨hnodup, List.nodup_singleton _, by simpa using hused⟩
    refine ⟨_, hapart.findOneAndUpdate_of_notMem hused hnew, _, hnodup', fun key => ?_, rfl⟩
    rw [List.mem_append, hkeys, List.mem_singleton, eq_comm, ← hself key]
    simp [or_and_right, exists_or]

end OneCall

end Increment

/-! ## Both backends -/

namespace Backend

/-- Collections that a backend keeps: in memory, or in rows that are written from them. -/
def Keeps (backend : Backend) (collections : Collections) : Prop :=
  match backend with
  | .snapshot kept => kept.collections = collections
  | .relational db => db.image.Keeps collections

variable {held : Held} {collections : Collections} {schema : Schema}

/-- An update of the first match by key is answered as in memory, and its result is kept. -/
theorem Keeps.findOneAndUpdate (h : held.1.Keeps collections) (hschema : schema ∈ Schema.all)
    (hread : ∀ doc ∈ collections.docs schema.name, doc.Readable) {filter : Filter}
    (hfits : (Prefilter.ofFilter schema filter).Fits)
    (hpick : filter.PicksOne schema (collections.docs schema.name)) (hfilter : filter.Ordered)
    {update : Update} (hupdate : update.Ordered) {doc : Document} {after : Collection}
    (hresult : Collection.findOneAndUpdate schema.name filter update
      (collections.docs schema.name) = (doc, after))
    (hkey : ∃ key, schema.keyOf? doc = some key)
    (hwritten : ∀ fault,
      (findOneAndUpdate schema.name filter update held).answer ≠ .error (.file fault)) :
    (findOneAndUpdate schema.name filter update held).answer = .ok doc ∧
      (findOneAndUpdate schema.name filter update held).state.1.Keeps
        (Fields.insert schema.name after collections) := by
  obtain ⟨backend, files⟩ := held
  cases backend with
  | snapshot kept =>
    cases h
    have hmodify : kept.collections.modify schema.name
        (Collection.findOneAndUpdate schema.name filter update) =
        (doc, Fields.insert schema.name after kept.collections) := by
      rw [Collections.modify, hresult]
    simp only [Backend.findOneAndUpdate, ofSnapshot, Outcome.mapState,
      Snapshot.findOneAndUpdate, hmodify] at hwritten ⊢
    refine ⟨answer_commit_of_written kept files hwritten, ?_⟩
    change (kept.commit files _).state.1.collections = _
    rw [Snapshot.state_commit]
  | relational db =>
    obtain ⟨key, hkey⟩ := hkey
    have hanswered : schema.keyOf? (Collection.findOneAndUpdate schema.name filter update
        (collections.docs schema.name)).1 = some key := by
      rw [hresult]
      exact hkey
    obtain ⟨image, hchange, hkeeps⟩ :=
      Image.Keeps.findOneAndUpdate_of_keyOf? h hschema hread hfits hpick hfilter hupdate hanswered
    rw [hresult] at hchange hkeeps
    simp only [Backend.findOneAndUpdate, ofRelational, Outcome.mapState,
      Relational.findOneAndUpdate, hchange]
    exact ⟨rfl, hkeeps⟩

lemma Keeps.find_empty {backend : Backend} (h : backend.Keeps collections)
    (hschema : schema ∈ Schema.all)
    (hread : ∀ doc ∈ collections.docs schema.name, doc.Readable) :
    backend.find schema.name .empty = .ok (collections.docs schema.name) := by
  cases backend with
  | snapshot kept =>
    cases h
    exact congrArg Except.ok (List.filter_eq_self.mpr fun _ _ => rfl)
  | relational db =>
    rw [Backend.find_empty h.sound hschema]
    exact ((h.written hschema).contents_eq_iff hschema).mpr hread

lemma exists_keeps_of_empty {config : Config} (hreached : Reachable config held)
    (hempty : ∀ schema ∈ Schema.all, held.1.count schema.name = 0) :
    ∃ collections, held.1.Keeps collections ∧
      ∀ schema ∈ Schema.all, collections.docs schema.name = [] := by
  obtain ⟨backend, files⟩ := held
  cases hconfig : config.backend with
  | snapshot =>
    obtain ⟨kept, rfl, -⟩ := soundSnapshot_of_reachable hconfig hreached
    exact ⟨kept.collections, rfl, fun schema hschema =>
      List.length_eq_zero_iff.mp (hempty schema hschema)⟩
  | sqlite =>
    obtain ⟨db, rfl, hsound⟩ := soundDatabase_of_reachable hconfig hreached
    refine ⟨[], ⟨hsound.image, fun schema hschema => ?_⟩, fun _ _ => rfl⟩
    have hcount := hempty schema hschema
    rw [count, Relational.count, Schema.for?_name hschema] at hcount
    rw [List.length_eq_zero_iff.mp hcount]
    exact .nil

end Backend

namespace Increment

open Backend (Held Keeps Reachable)

def carryOut (call : Increment) (held : Held) : Outcome StoreError Held Document :=
  Backend.findOneAndUpdate call.schema.name call.filter call.update held

/-- The state after increments, one after the other. -/
def run (calls : List Increment) (held : Held) : Held :=
  calls.foldl (fun held call => (call.carryOut held).state) held

/-- No increment of a run fails because of a file. -/
def FilesWritten (calls : List Increment) (held : Held) : Prop :=
  ∀ before call after, calls = before ++ call :: after →
    ∀ fault, (call.carryOut (run before held)).answer ≠ .error (.file fault)

/-- A backend that holds what increments make. -/
def Made (calls : List Increment) (backend : Backend) : Prop :=
  ∃ collections, backend.Keeps collections ∧
    ∀ schema ∈ Schema.all, Tallies schema calls (collections.docs schema.name)

/-- A value that is the sum of what is added at a path; no value, when nothing is. -/
structure Sums (path : String) (calls : List Increment) (value? : Option Value) : Prop where
  absent : (∀ call ∈ calls, call.hits path = false) → value? = none
  sum : ∀ call ∈ calls, call.hits path = true →
    ∃ n : Int64, value? = some (.int n) ∧ n.toInt = sumAt path calls

variable {call : Increment} {calls others : List Increment} {held : Held} {schema : Schema}

lemma run_append (calls others : List Increment) (held : Held) :
    run (calls ++ others) held = run others (run calls held) :=
  List.foldl_append

lemma FilesWritten.left (h : FilesWritten (calls ++ others) held) : FilesWritten calls held := by
  rintro before call after rfl
  exact h before call (after ++ others) (by simp)

lemma FilesWritten.last (h : FilesWritten (calls ++ [call]) held) :
    ∀ fault, (call.carryOut (run calls held)).answer ≠ .error (.file fault) :=
  h calls call [] rfl

lemma filesWritten_nil (held : Held) : FilesWritten [] held := by
  intro before call after h
  simp at h

lemma filesWritten_cons (hfirst : (call.carryOut held).answer.isOk = true)
    (hrest : FilesWritten calls (call.carryOut held).state) :
    FilesWritten (call :: calls) held := by
  intro before other after h fault
  cases before with
  | nil =>
    cases h
    exact Backend.ne_error_of_isOk hfirst _
  | cons first before =>
    cases h
    exact hrest before other after rfl fault

lemma sums_valueAt? {path : String} (h : Apart calls) : Sums path calls (valueAt? path calls) where
  absent := by
    intro hnone
    have hany : calls.any (·.hits path) = false := by simpa using hnone
    rw [valueAt?, hany]
    rfl
  sum := by
    intro call hcall hhits
    have hany : calls.any (·.hits path) = true := List.any_eq_true.mpr ⟨call, hcall, hhits⟩
    rw [valueAt?, if_pos hany]
    exact ⟨_, rfl, toInt_ofInt_of_natAbs_lt (h.natAbs_sumAt_lt path)⟩

lemma Apart.sums_documentOf (h : Apart calls) {path : String}
    (hpath : ∀ call ∈ calls, segments call.path = segments path ∨
      Incomparable (segments call.path) (segments path))
    (hkey : Incomparable (segments path) (segments schema.key.path)) (key : String) :
    Sums path (calls.filter (·.concerns schema key))
      ((documentOf schema key calls).get? path) := by
  rw [get?_documentOf hpath hkey]
  exact sums_valueAt? (h.sublist List.filter_sublist)

lemma made_nil {config : Config} (hreached : Reachable config held)
    (hempty : ∀ schema ∈ Schema.all, held.1.count schema.name = 0) : Made [] held.1 := by
  obtain ⟨collections, hkeeps, hnil⟩ := Backend.exists_keeps_of_empty hreached hempty
  refine ⟨collections, hkeeps, fun schema hschema => ?_⟩
  rw [hnil schema hschema]
  exact tallies_nil schema

lemma Tallies.readable {docs : Collection} (h : Tallies schema calls docs) (hapart : Apart calls)
    (hschema : schema ∈ Schema.all) : ∀ doc ∈ docs, doc.Readable := by
  obtain ⟨keys, -, -, rfl⟩ := h
  intro doc hdoc
  obtain ⟨key, -, rfl⟩ := List.mem_map.mp hdoc
  exact hapart.readable_documentOf hschema key

lemma filter_ordered (call : Increment) : call.filter.Ordered := by
  simp [filter, Filter.Ordered, Filter.push, Filter.empty, Condition.Ordered, Value.Ordered]

lemma update_ordered (call : Increment) : call.update.Ordered := by
  simp [update, Update.Ordered, UpdateOp.Ordered, Value.Ordered]

lemma filter_fits (call : Increment) :
    (Prefilter.ofFilter call.schema call.filter).Fits :=
  Filter.fits_byKey call.schema call.key

lemma filter_picksOne (call : Increment) (docs : Collection) :
    call.filter.PicksOne call.schema docs := by
  left
  simp [filter, Filter.push, Filter.empty]

theorem Made.carryOut (h : Made calls held.1) (hapart : Apart (calls ++ [call]))
    (hwritten : ∀ fault, (call.carryOut held).answer ≠ .error (.file fault)) :
    (call.carryOut held).answer = .ok (documentOf call.schema call.key (calls ++ [call])) ∧
      Made (calls ++ [call]) (call.carryOut held).state.1 := by
  obtain ⟨collections, hkeeps, htallies⟩ := h
  have hschema := hapart.schemas call (by simp)
  have hcalls : Apart calls := hapart.sublist (List.sublist_append_left _ _)
  have hself := htallies call.schema hschema
  obtain ⟨after, hresult, hafter⟩ := hself.findOneAndUpdate hapart
  obtain ⟨hanswer, hkept⟩ := hkeeps.findOneAndUpdate hschema (hself.readable hcalls hschema)
    (filter_fits call) (filter_picksOne call _) (filter_ordered call) (update_ordered call) hresult
    ⟨call.key, hapart.keyOf?_documentOf call.schema call.key⟩ hwritten
  refine ⟨hanswer, _, hkept, fun schema hother => ?_⟩
  by_cases heq : call.schema = schema
  · subst heq
    rw [Collections.docs_insert_self]
    exact hafter
  · have hnames : schema.name ≠ call.schema.name :=
      fun hname => heq (Schema.eq_of_name_eq hschema hother hname.symm)
    rw [Collections.docs_insert_of_ne hnames]
    exact (htallies schema hother).append_of_ne heq

theorem Made.run (h : Made [] held.1) (hapart : Apart calls) (hwritten : FilesWritten calls held) :
    Made calls (run calls held).1 := by
  -- From the last increment back: what it is answered with depends on those before it.
  induction calls using List.reverseRecOn with
  | nil => exact h
  | append_singleton calls call ih =>
    have hcalls := ih (hapart.sublist (List.sublist_append_left _ _)) hwritten.left
    rw [run_append]
    exact (hcalls.carryOut hapart hwritten.last).2

lemma Made.exists_find (h : Made calls held.1) (hapart : Apart calls)
    (hschema : schema ∈ Schema.all) :
    ∃ docs, held.1.find schema.name .empty = .ok docs ∧ Tallies schema calls docs := by
  obtain ⟨collections, hkeeps, htallies⟩ := h
  have hself := htallies schema hschema
  exact ⟨_, hkeeps.find_empty hschema (hself.readable hapart hschema), hself⟩

/-- The documents of increments are the same up to order, whichever of them came first. -/
lemma Tallies.perm {docs later : Collection} (h : Tallies schema calls docs)
    (hlater : Tallies schema others later) (hapart : Apart calls) (hperm : others.Perm calls) :
    later.Perm docs := by
  obtain ⟨keys, hnodup, hkeys, rfl⟩ := h
  obtain ⟨otherKeys, hotherNodup, hotherKeys, rfl⟩ := hlater
  have hsame : otherKeys.Perm keys := by
    rw [List.perm_ext_iff_of_nodup hotherNodup hnodup]
    intro key
    rw [hkeys, hotherKeys]
    simp [hperm.mem_iff]
  have hdocs : documentsOf schema others otherKeys = documentsOf schema calls otherKeys :=
    List.map_congr_left fun key _ => hapart.documentOf_perm hperm schema key
  rw [hdocs]
  exact hsame.map _

/-- What a scan finds after some increments: one document for each key that they were meant for,
with the sum of them at each path. -/
structure Found (schema : Schema) (calls : List Increment) (keys : List String)
    (docs : List Document) : Prop where
  nodup : keys.Nodup
  used : ∀ key, key ∈ keys ↔ ∃ call ∈ calls, call.concerns schema key = true
  keyed : docs.map schema.keyOf? = keys.map some
  sums : ∀ key doc, doc ∈ docs → schema.keyOf? doc = some key → ∀ path,
    (∀ call ∈ calls, segments call.path = segments path ∨
      Incomparable (segments call.path) (segments path)) →
    Incomparable (segments path) (segments schema.key.path) →
    Sums path (calls.filter (·.concerns schema key)) (doc.get? path)

lemma Tallies.found {docs : Collection} (h : Tallies schema calls docs) (hapart : Apart calls) :
    ∃ keys, Found schema calls keys docs := by
  obtain ⟨keys, hnodup, hkeys, rfl⟩ := h
  refine ⟨keys, hnodup, hkeys, ?_, ?_⟩
  · rw [documentsOf, List.map_map]
    exact List.map_congr_left fun key _ => hapart.keyOf?_documentOf schema key
  · intro key doc hdoc hkey path hpath hapartKey
    obtain ⟨other, -, rfl⟩ := List.mem_map.mp hdoc
    rw [hapart.keyOf?_documentOf, Option.some.injEq] at hkey
    subst hkey
    exact hapart.sums_documentOf hpath hapartKey other

end Increment

namespace Backend

open Increment (run FilesWritten Found sumAt)

/-- Increments that do not get in each other's way, from empty collections and with files that are
written: each one is answered with the sum so far; there is one document for each key, with the sum
of its increments at each path; and the documents are the same in whatever order they came. -/
theorem increments_sum {config : Config} {held : Held} (hreached : Reachable config held)
    (hempty : ∀ schema ∈ Schema.all, held.1.count schema.name = 0) {calls : List Increment}
    (hapart : Increment.Apart calls) (hwritten : FilesWritten calls held) :
    (∀ before call after, calls = before ++ call :: after →
      ∃ doc n, (call.carryOut (run before held)).answer = .ok doc ∧
        doc.get? call.path = some (.int n) ∧
        n.toInt = sumAt call.path
          ((before ++ [call]).filter (·.concerns call.schema call.key))) ∧
    ∀ schema ∈ Schema.all, ∃ docs keys,
      (run calls held).1.find schema.name .empty = .ok docs ∧ Found schema calls keys docs ∧
      ∀ others : List Increment, others.Perm calls → FilesWritten others held →
        ∃ later, (run others held).1.find schema.name .empty = .ok later ∧ later.Perm docs := by
  have hnone := Increment.made_nil hreached hempty
  constructor
  · rintro before call after rfl
    have hsplit : before ++ call :: after = (before ++ [call]) ++ after := by simp
    rw [hsplit] at hapart hwritten
    have hfirst : Increment.Apart (before ++ [call]) :=
      hapart.sublist (List.sublist_append_left _ _)
    have hbefore := hnone.run (hfirst.sublist (List.sublist_append_left _ _)) hwritten.left.left
    obtain ⟨hanswer, -⟩ := hbefore.carryOut hfirst hwritten.left.last
    have hself : call.concerns call.schema call.key = true := by simp [Increment.concerns]
    obtain ⟨n, hn, hsum⟩ := (hfirst.sums_documentOf
      (fun other ho => hfirst.paths other ho call (by simp))
      (hfirst.keys call (by simp)) call.key).sum call (by simp [hself])
      (by simp [Increment.hits])
    exact ⟨_, n, hanswer, hn, hsum⟩
  · intro schema hschema
    obtain ⟨docs, hfind, htallies⟩ := (hnone.run hapart hwritten).exists_find hapart hschema
    obtain ⟨keys, hfound⟩ := htallies.found hapart
    refine ⟨docs, keys, hfind, hfound, fun others hperm hothers => ?_⟩
    have hapart' := hapart.perm hperm
    obtain ⟨later, hlater, htallies'⟩ :=
      (hnone.run hapart' hothers).exists_find hapart' hschema
    exact ⟨later, hlater, htallies.perm htallies' hapart hperm⟩

/-- Two increments of a setting in a database, with one of a plugin between them: the second is
answered with the sum. -/
theorem increments_sum_of_setting :
    let first : Increment := ⟨.systemSettings, "s", "hits.total", 2⟩
    let between : Increment := ⟨.plugins, "p", "hits.failed", 7⟩
    let last : Increment := ⟨.systemSettings, "s", "hits.total", 3⟩
    let held := restore { Config.default with backend := .sqlite } (.empty "/w")
    Increment.Apart [first, between, last] ∧ FilesWritten [first, between, last] held ∧
      (∃ doc n, (last.carryOut (run [first, between] held)).answer = .ok doc ∧
        doc.get? "hits.total" = some (.int n) ∧ n.toInt = 5) ∧
      ∃ docs, (run [first, between, last] held).1.find "system_settings" .empty = .ok docs ∧
        docs.map Schema.systemSettings.keyOf? = [some "s"] := by
  intro first between last held
  have hreached := reachable_restore_empty { Config.default with backend := .sqlite } "/w"
  have hempty : ∀ schema ∈ Schema.all, held.1.count schema.name = 0 := by decide +kernel
  have hapart : Increment.Apart [first, between, last] :=
    ⟨by decide +kernel, by decide +kernel, by decide +kernel, by decide +kernel,
      by decide +kernel⟩
  have hwritten : FilesWritten [first, between, last] held :=
    Increment.filesWritten_cons (by decide +kernel) (Increment.filesWritten_cons
      (by decide +kernel) (Increment.filesWritten_cons (by decide +kernel)
        (Increment.filesWritten_nil _)))
  obtain ⟨hanswers, hfind⟩ := increments_sum hreached hempty hapart hwritten
  obtain ⟨doc, n, hanswer, hvalue, hsum⟩ := hanswers [first, between] last [] rfl
  have htotal : sumAt "hits.total" (([first, between] ++ [last]).filter
      (·.concerns .systemSettings "s")) = 5 := by
    decide +kernel
  obtain ⟨docs, keys, hdocs, hfound, -⟩ := hfind .systemSettings (by decide)
  have hkeys : keys = ["s"] := by
    refine List.perm_singleton.mp
      ((List.perm_ext_iff_of_nodup hfound.nodup (List.nodup_singleton "s")).mpr fun key => ?_)
    rw [hfound.used]
    simp [first, between, last, Increment.concerns, Schema.plugins, Schema.systemSettings]
    exact eq_comm
  rw [hkeys] at hfound
  exact ⟨hapart, hwritten, ⟨doc, n, hanswer, hvalue, hsum.trans htotal⟩, docs, hdocs,
    hfound.keyed⟩

end Backend

end DocStore
