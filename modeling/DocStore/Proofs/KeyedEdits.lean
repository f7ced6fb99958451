import DocStore.Store.Batch
import Mathlib.Data.List.Perm.Basic
import Mathlib.Tactic.Lemma

/-!
# Edits by key

An `Edit` changes the entry of a list that has its key, or puts a new one behind the others. Edits
of different keys do not get in each other's way (`Edit.apply_comm`), so edits of pairwise distinct
keys may be carried out in any order: they are counted alike and leave the same entries
(`Edit.run_perm`). Entries with other keys, or with none, stay as they are (`Edit.filter_run`).
-/

namespace DocStore

lemma BatchResult.add_left_comm (a b c : BatchResult) : a.add (b.add c) = b.add (a.add c) := by
  simp [add, Nat.add_left_comm]

/-- A change of the entry with a key, and the entry to be made when there is none. -/
structure Edit (α : Type) where
  key : String
  change : α → α
  fresh? : Option α

namespace Edit

variable {α : Type} (keyOf : α → Option String)

/-- An entry after an edit: it is changed when it has the key. -/
def revise (edit : Edit α) (entry : α) : α :=
  if keyOf entry = some edit.key then edit.change entry else entry

/-- The entries that an edit makes: one at most, and none when an entry has the key. -/
def made (edit : Edit α) (entries : List α) : List α :=
  if ∃ entry ∈ entries, keyOf entry = some edit.key then [] else edit.fresh?.toList

/-- What an edit does to a list. -/
def result (edit : Edit α) (entries : List α) : UpdateResult :=
  if ∃ entry ∈ entries, keyOf entry = some edit.key then .matched
  else if edit.fresh?.isSome then .created
  else .unmatched

def apply (edit : Edit α) (entries : List α) : List α :=
  entries.map (edit.revise keyOf) ++ edit.made keyOf entries

/-- The list that edits leave when they are carried out one after the other. -/
def run (edits : List (Edit α)) (entries : List α) : List α :=
  edits.foldl (fun entries edit => edit.apply keyOf entries) entries

def counts : List (Edit α) → List α → BatchResult
  | [], _ => .zero
  | edit :: rest, entries =>
    (BatchResult.ofUpdate (edit.result keyOf entries)).add (counts rest (edit.apply keyOf entries))

/-- An edit that gives its key to what it changes and makes, among entries that satisfy `P`. -/
structure KeepsKey (P : α → Prop) (edit : Edit α) : Prop where
  change : ∀ entry, P entry → keyOf entry = some edit.key →
    P (edit.change entry) ∧ keyOf (edit.change entry) = some edit.key
  fresh : ∀ entry ∈ edit.fresh?, P entry ∧ keyOf entry = some edit.key

variable {keyOf} {P : α → Prop} {edit first second : Edit α} {entries others : List α}

lemma revise_of_eq {entry : α} (h : keyOf entry = some edit.key) :
    edit.revise keyOf entry = edit.change entry :=
  if_pos h

lemma revise_of_ne {entry : α} (h : keyOf entry ≠ some edit.key) :
    edit.revise keyOf entry = entry :=
  if_neg h

lemma revise_spec (h : edit.KeepsKey keyOf P) {entry : α} (hentry : P entry) :
    P (edit.revise keyOf entry) ∧ keyOf (edit.revise keyOf entry) = keyOf entry := by
  by_cases hkey : keyOf entry = some edit.key
  · rw [revise_of_eq hkey, hkey]
    exact h.change entry hentry hkey
  · rw [revise_of_ne hkey]
    exact ⟨hentry, rfl⟩

lemma mem_fresh?_of_mem_made {entry : α} (h : entry ∈ edit.made keyOf entries) :
    entry ∈ edit.fresh? := by
  unfold made at h
  split at h
  · simp at h
  · exact Option.mem_toList.mp h

/-- An edit leaves entries that satisfy `P`, and the entries with other keys are those that were
there. -/
lemma mem_apply (h : edit.KeepsKey keyOf P) (hentries : ∀ entry ∈ entries, P entry) {entry : α}
    (hm : entry ∈ edit.apply keyOf entries) :
    P entry ∧ (keyOf entry = some edit.key ∨ entry ∈ entries) := by
  rcases List.mem_append.mp hm with hm | hm
  · obtain ⟨old, hold, rfl⟩ := List.mem_map.mp hm
    obtain ⟨hrevised, hkey⟩ := revise_spec h (hentries old hold)
    refine ⟨hrevised, ?_⟩
    by_cases hedited : keyOf old = some edit.key
    · exact .inl (hkey.trans hedited)
    · rw [revise_of_ne hedited]
      exact .inr hold
  · obtain ⟨hmade, hkey⟩ := h.fresh entry (mem_fresh?_of_mem_made hm)
    exact ⟨hmade, .inl hkey⟩

lemma exists_mem_apply_iff (h : edit.KeepsKey keyOf P) (hentries : ∀ entry ∈ entries, P entry)
    {key : String} (hne : key ≠ edit.key) :
    (∃ entry ∈ edit.apply keyOf entries, keyOf entry = some key) ↔
      ∃ entry ∈ entries, keyOf entry = some key := by
  have hother : some key ≠ some edit.key := by simpa using hne
  constructor
  · rintro ⟨entry, hm, hkey⟩
    refine ⟨entry, (mem_apply h hentries hm).2.resolve_left ?_, hkey⟩
    rwa [hkey]
  · rintro ⟨entry, hm, hkey⟩
    refine ⟨entry, List.mem_append_left _ (List.mem_map.mpr ⟨entry, hm, revise_of_ne ?_⟩), hkey⟩
    rwa [hkey]

lemma result_congr (edit : Edit α)
    (h : (∃ entry ∈ others, keyOf entry = some edit.key) ↔
      ∃ entry ∈ entries, keyOf entry = some edit.key) :
    edit.result keyOf others = edit.result keyOf entries ∧
      edit.made keyOf others = edit.made keyOf entries := by
  simp only [result, made, h, and_self]

lemma apply_perm (edit : Edit α) (h : others.Perm entries) :
    edit.result keyOf others = edit.result keyOf entries ∧
      (edit.apply keyOf others).Perm (edit.apply keyOf entries) := by
  have hsame : (∃ entry ∈ others, keyOf entry = some edit.key) ↔
      ∃ entry ∈ entries, keyOf entry = some edit.key := by
    simp only [h.mem_iff]
  obtain ⟨hresult, hmade⟩ := edit.result_congr hsame
  refine ⟨hresult, ?_⟩
  rw [apply, apply, hmade]
  exact (h.map _).append_right _

lemma filter_apply (h : edit.KeepsKey keyOf P) (hentries : ∀ entry ∈ entries, P entry)
    {spares : α → Bool} (hspares : ∀ entry, keyOf entry = some edit.key → spares entry = false) :
    (edit.apply keyOf entries).filter spares = entries.filter spares := by
  have hmade : (edit.made keyOf entries).filter spares = [] := by
    refine List.filter_eq_nil_iff.mpr fun entry hm => ?_
    rw [hspares entry (h.fresh entry (mem_fresh?_of_mem_made hm)).2]
    exact Bool.false_ne_true
  have hsame : ∀ entry ∈ entries, spares (edit.revise keyOf entry) = spares entry := by
    intro entry hentry
    by_cases hkey : keyOf entry = some edit.key
    · have hrevised := (revise_spec h (hentries entry hentry)).2.trans hkey
      rw [hspares _ hrevised, hspares entry hkey]
    · rw [revise_of_ne hkey]
  have hkept : ∀ entry ∈ entries.filter spares, edit.revise keyOf entry = entry := by
    intro entry hentry
    refine revise_of_ne fun hkey => ?_
    have hkeep := (List.mem_filter.mp hentry).2
    rw [hspares entry hkey] at hkeep
    exact Bool.false_ne_true hkeep
  calc (edit.apply keyOf entries).filter spares
      = (entries.map (edit.revise keyOf)).filter spares := by
        rw [apply, List.filter_append, hmade, List.append_nil]
    _ = (entries.filter spares).map (edit.revise keyOf) := by
        rw [List.filter_map, List.filter_congr (p := spares ∘ edit.revise keyOf) hsame]
    _ = (entries.filter spares).map id := List.map_congr_left hkept
    _ = entries.filter spares := List.map_id _

lemma apply_of_forall_ne (edit : Edit α) (h : ∀ entry ∈ entries, keyOf entry ≠ some edit.key) :
    edit.result keyOf entries = (if edit.fresh?.isSome then .created else .unmatched) ∧
      edit.apply keyOf entries = entries ++ edit.fresh?.toList := by
  have hnone : ¬∃ entry ∈ entries, keyOf entry = some edit.key := by
    rintro ⟨entry, hm, hkey⟩
    exact h entry hm hkey
  have hrevised : entries.map (edit.revise keyOf) = entries :=
    (List.map_congr_left fun entry hm => revise_of_ne (h entry hm)).trans (List.map_id _)
  rw [result, apply, made, if_neg hnone, if_neg hnone, hrevised]
  exact ⟨rfl, rfl⟩

lemma apply_append_cons (edit : Edit α) {front back : List α} {entry : α}
    (hkey : keyOf entry = some edit.key)
    (hothers : ∀ other ∈ front ++ back, keyOf other ≠ some edit.key) :
    edit.result keyOf (front ++ entry :: back) = .matched ∧
      edit.apply keyOf (front ++ entry :: back) = front ++ edit.change entry :: back := by
  have hsome : ∃ other ∈ front ++ entry :: back, keyOf other = some edit.key :=
    ⟨entry, by simp, hkey⟩
  obtain ⟨hfront, hback⟩ := List.forall_mem_append.mp hothers
  have hkept : ∀ {others : List α}, (∀ other ∈ others, keyOf other ≠ some edit.key) →
      others.map (edit.revise keyOf) = others := fun h =>
    (List.map_congr_left fun other ho => revise_of_ne (h other ho)).trans (List.map_id _)
  rw [result, apply, made, if_pos hsome, if_pos hsome, List.map_append, List.map_cons,
    hkept hfront, hkept hback, revise_of_eq hkey, List.append_nil]
  exact ⟨rfl, rfl⟩

/-- Where one entry at most has the key of an edit that may make one, one entry has it then. -/
lemma countP_apply (h : edit.KeepsKey keyOf P) (hentries : ∀ entry ∈ entries, P entry)
    (hfresh : edit.fresh?.isSome = true)
    (hunique : entries.countP (fun entry => keyOf entry == some edit.key) ≤ 1) :
    (edit.apply keyOf entries).countP (fun entry => keyOf entry == some edit.key) = 1 := by
  have hrevised : (entries.map (edit.revise keyOf)).countP
      (fun entry => keyOf entry == some edit.key) =
        entries.countP (fun entry => keyOf entry == some edit.key) := by
    rw [List.countP_map]
    refine List.countP_congr fun entry hm => ?_
    rw [Function.comp_apply, (revise_spec h (hentries entry hm)).2]
  rw [apply, List.countP_append, hrevised, made]
  by_cases hsome : ∃ entry ∈ entries, keyOf entry = some edit.key
  · have hpos : 0 < entries.countP (fun entry => keyOf entry == some edit.key) := by
      simpa [List.countP_pos_iff] using hsome
    rw [if_pos hsome, List.countP_nil]
    omega
  · obtain ⟨entry, hentry⟩ := Option.isSome_iff_exists.mp hfresh
    have hnone : entries.countP (fun entry => keyOf entry == some edit.key) = 0 := by
      simpa [List.countP_eq_zero] using hsome
    rw [if_neg hsome, hnone, hentry]
    simp [(h.fresh entry hentry).2]

lemma revise_comm (hne : first.key ≠ second.key) (hfirst : first.KeepsKey keyOf P)
    (hsecond : second.KeepsKey keyOf P) {entry : α} (hentry : P entry) :
    second.revise keyOf (first.revise keyOf entry) =
      first.revise keyOf (second.revise keyOf entry) := by
  by_cases hkey : keyOf entry = some first.key
  · have hother : keyOf entry ≠ some second.key := by
      rw [hkey, ne_eq, Option.some.injEq]
      exact hne
    have hrevised : keyOf (first.revise keyOf entry) ≠ some second.key := by
      rwa [(revise_spec hfirst hentry).2]
    rw [revise_of_ne hrevised, revise_of_ne hother]
  · have hrevised : keyOf (second.revise keyOf entry) ≠ some first.key := by
      rwa [(revise_spec hsecond hentry).2]
    rw [revise_of_ne hkey, revise_of_ne hrevised]

lemma map_revise_made (hne : first.key ≠ second.key) (hfirst : first.KeepsKey keyOf P)
    (entries : List α) :
    (first.made keyOf entries).map (second.revise keyOf) = first.made keyOf entries := by
  have hmade : ∀ entry ∈ first.made keyOf entries, second.revise keyOf entry = entry := by
    intro entry hm
    refine revise_of_ne ?_
    rw [(hfirst.fresh entry (mem_fresh?_of_mem_made hm)).2, ne_eq, Option.some.injEq]
    exact hne
  exact (List.map_congr_left hmade).trans (List.map_id _)

lemma result_apply (hne : second.key ≠ first.key) (hfirst : first.KeepsKey keyOf P)
    (hentries : ∀ entry ∈ entries, P entry) :
    second.result keyOf (first.apply keyOf entries) = second.result keyOf entries ∧
      second.made keyOf (first.apply keyOf entries) = second.made keyOf entries :=
  second.result_congr (exists_mem_apply_iff hfirst hentries hne)

theorem apply_comm (hne : first.key ≠ second.key) (hfirst : first.KeepsKey keyOf P)
    (hsecond : second.KeepsKey keyOf P) (hentries : ∀ entry ∈ entries, P entry) :
    (second.apply keyOf (first.apply keyOf entries)).Perm
      (first.apply keyOf (second.apply keyOf entries)) := by
  have hrevised : (entries.map (first.revise keyOf)).map (second.revise keyOf) =
      (entries.map (second.revise keyOf)).map (first.revise keyOf) := by
    rw [List.map_map, List.map_map]
    exact List.map_congr_left fun entry hentry =>
      revise_comm hne hfirst hsecond (hentries entry hentry)
  -- Either way both change the old entries, and what they make stands behind these.
  have hboth : second.apply keyOf (first.apply keyOf entries) =
      (entries.map (first.revise keyOf)).map (second.revise keyOf) ++
        (first.made keyOf entries ++ second.made keyOf entries) := by
    rw [apply, (result_apply hne.symm hfirst hentries).2, apply, List.map_append,
      map_revise_made hne hfirst, List.append_assoc]
  have hother : first.apply keyOf (second.apply keyOf entries) =
      (entries.map (second.revise keyOf)).map (first.revise keyOf) ++
        (second.made keyOf entries ++ first.made keyOf entries) := by
    rw [apply, (result_apply hne hsecond hentries).2, apply, List.map_append,
      map_revise_made hne.symm hsecond, List.append_assoc]
  rw [hboth, hother, hrevised]
  exact List.perm_append_comm.append_left _

lemma run_cons (edit : Edit α) (rest : List (Edit α)) (entries : List α) :
    run keyOf (edit :: rest) entries = run keyOf rest (edit.apply keyOf entries) :=
  rfl

lemma run_perm_entries (edits : List (Edit α)) (h : others.Perm entries) :
    counts keyOf edits others = counts keyOf edits entries ∧
      (run keyOf edits others).Perm (run keyOf edits entries) := by
  induction edits generalizing others entries with
  | nil => exact ⟨rfl, h⟩
  | cons edit rest ih =>
    obtain ⟨hresult, happly⟩ : edit.result keyOf others = edit.result keyOf entries ∧
        (edit.apply keyOf others).Perm (edit.apply keyOf entries) := edit.apply_perm h
    obtain ⟨hcounts, hlast⟩ := ih happly
    refine ⟨?_, hlast⟩
    rw [counts, counts, hresult, hcounts]

/-- Edits of pairwise distinct keys are counted alike in any order, and leave the same entries. -/
theorem run_perm {edits later : List (Edit α)} (hperm : later.Perm edits)
    (hkeys : (edits.map Edit.key).Nodup) (hkeeps : ∀ edit ∈ edits, edit.KeepsKey keyOf P)
    (hentries : ∀ entry ∈ entries, P entry) :
    counts keyOf later entries = counts keyOf edits entries ∧
      (run keyOf later entries).Perm (run keyOf edits entries) := by
  induction hperm generalizing entries with
  | nil => exact ⟨rfl, .refl _⟩
  | cons edit hrest ih =>
    obtain ⟨hedit, hothers⟩ := List.forall_mem_cons.mp hkeeps
    obtain ⟨hcounts, hlast⟩ := ih (List.nodup_cons.mp hkeys).2 hothers
      fun entry hm => (mem_apply hedit hentries hm).1
    refine ⟨?_, hlast⟩
    rw [counts, counts, hcounts]
  | swap first second rest =>
    have hne : first.key ≠ second.key := by
      rintro heq
      simp [heq] at hkeys
    obtain ⟨hfirst, hothers⟩ := List.forall_mem_cons.mp hkeeps
    obtain ⟨hsecond, -⟩ := List.forall_mem_cons.mp hothers
    -- The two edits leave lists that differ in their order, which the others do not see.
    obtain ⟨hcounts, hlast⟩ := run_perm_entries rest
      (apply_comm hne.symm hsecond hfirst hentries)
    refine ⟨?_, hlast⟩
    simp only [counts, hcounts, (result_apply hne hsecond hentries).1,
      (result_apply hne.symm hfirst hentries).1]
    exact BatchResult.add_left_comm _ _ _
  | trans hfirst hsecond ihfirst ihsecond =>
    obtain ⟨hcounts, hlast⟩ := ihsecond hkeys hkeeps hentries
    obtain ⟨hmore, hthen⟩ := ihfirst ((hsecond.map Edit.key).nodup_iff.mpr hkeys)
      (fun edit hedit => hkeeps edit (hsecond.mem_iff.mp hedit)) hentries
    exact ⟨hmore.trans hcounts, hthen.trans hlast⟩

/-- Entries with other keys than those of the edits, or with none, stay as they are. -/
theorem filter_run {edits : List (Edit α)} (hkeeps : ∀ edit ∈ edits, edit.KeepsKey keyOf P)
    (hentries : ∀ entry ∈ entries, P entry) {spares : α → Bool}
    (hspares : ∀ edit ∈ edits, ∀ entry, keyOf entry = some edit.key → spares entry = false) :
    (run keyOf edits entries).filter spares = entries.filter spares := by
  induction edits generalizing entries with
  | nil => rfl
  | cons edit rest ih =>
    obtain ⟨hedit, hothers⟩ := List.forall_mem_cons.mp hkeeps
    obtain ⟨hspared, hmore⟩ := List.forall_mem_cons.mp hspares
    rw [run_cons, ih hothers (fun entry hm => (mem_apply hedit hentries hm).1) hmore,
      filter_apply hedit hentries hspared]

end Edit

end DocStore
