import DocStore.Proofs.Store.Written

/-!
# The match that a table shows first

A table that is written from documents shows the first match among them, unless the filter compares
the key with a list: then the rows are visited in the order of their keys, and the match with the
least key comes first (`Written.exists_selectFirst`). This is the first match exactly when the
filter `PicksFirst` (`Written.eq_head?_iff_picksFirst`).
-/

namespace DocStore

open Sql (Row)

variable {schema : Schema} {docs : List Document} {filter : Filter}

namespace Filter

/-- A filter that compares the key with a list. -/
def ListsKeys (schema : Schema) (filter : Filter) : Prop :=
  ∃ field ∈ filter.conditions, field.path = schema.key.path ∧
    ∃ values, field.condition = .oneOf values

/-- A document whose key is not after that of any match. -/
def HasLeastKey (schema : Schema) (filter : Filter) (docs : List Document) (doc : Document) :
    Prop :=
  ∀ other ∈ docs.filter filter.accepts, ∀ key otherKey, schema.keyOf? doc = some key →
    schema.keyOf? other = some otherKey → key ≤ otherKey

/-- What is shown first where the keys in a list are visited in their order: the match with the
least key when the filter compares the key with a list, else the first match. -/
structure ShowsFirst (schema : Schema) (filter : Filter) (docs : List Document)
    (shown : Option Document) : Prop where
  matching : ∀ doc ∈ shown, doc ∈ docs.filter filter.accepts
  isSome_eq : shown.isSome = (docs.filter filter.accepts).head?.isSome
  listed : filter.ListsKeys schema → ∀ doc ∈ shown, filter.HasLeastKey schema docs doc
  unlisted : ¬filter.ListsKeys schema → shown = (docs.filter filter.accepts).head?

/-- A filter that compares the key with no list, or whose first match has the least key. -/
def PicksFirst (schema : Schema) (filter : Filter) (docs : List Document) : Prop :=
  ¬filter.ListsKeys schema ∨
    ∀ first ∈ (docs.filter filter.accepts).head?, filter.HasLeastKey schema docs first

end Filter

namespace Sql

lemma Prefilter.mem_clauses_of_ofField? {fields : List FieldCondition} {field : FieldCondition}
    (hfield : field ∈ fields) {clause : Clause} {params : List String}
    (hclause : Clause.ofField? schema field = some (clause, params)) (halways : clause ≠ .always) :
    clause ∈ (ofConditions schema fields).clauses := by
  induction fields with
  | nil => simp at hfield
  | cons first rest ih =>
    rcases List.mem_cons.mp hfield with rfl | hrest
    · simp [ofConditions, hclause, halways]
    · have hmem := ih hrest
      cases hfirst : Clause.ofField? schema first with
      | none => simpa [ofConditions, hfirst] using hmem
      | some compiled =>
        simp only [ofConditions, hfirst]
        split
        · exact hmem
        · exact List.mem_cons_of_mem _ hmem

namespace Table

variable {table : Table}

/-- A filter that compares the key with a list, and accepts a document with a string key, has the
table visited in the order of its keys. -/
lemma ranksByPrimary_of_accepts (hcolumns : table.columns = schema.columnList)
    (hlists : filter.ListsKeys schema) {doc : Document} (hkeyed : (schema.keyOf? doc).isSome = true)
    (haccepts : filter.accepts doc = true) :
    table.ranksByPrimary (Prefilter.ofFilter schema filter) = true := by
  obtain ⟨field, hfield, hpath, values, hvalues⟩ := hlists
  obtain ⟨key, hkey⟩ := Option.isSome_iff_exists.mp hkeyed
  have hfound := (Schema.keyOf?_eq_some_iff schema doc key).mp hkey
  have hholds : (Condition.oneOf values).holds (doc.get? schema.key.path) = true := by
    have hfieldHolds := List.all_eq_true.mp haccepts field hfield
    rwa [hpath, hvalues] at hfieldHolds
  obtain ⟨s, hs, -⟩ := (Clause.holds_oneOf_iff fun _ _ => .inr ⟨key, hfound⟩).mp hholds
  have hstrings : (values.filterMap Value.asString?).isEmpty = false := by
    rw [List.isEmpty_eq_false_iff_exists_mem]
    exact ⟨s, (Clause.mem_strings_iff values s).mpr hs⟩
  have hclause : Clause.ofField? schema field =
      some (.isIn schema.key.column (values.filterMap Value.asString?).length,
        values.filterMap Value.asString?) := by
    simp [Clause.ofField?, Schema.columnFor?, hpath, hvalues, Clause.ofCondition?, Schema.isKey,
      hstrings]
  refine List.any_eq_true.mpr ⟨_, Prefilter.mem_clauses_of_ofField? hfield hclause (by simp), ?_⟩
  rw [hcolumns, Schema.columnList]
  exact sameName_self _

lemma ranksByPrimary_eq_false_of_not_listsKeys (hschema : schema ∈ Schema.all)
    (hcolumns : table.columns = schema.columnList) (h : ¬filter.ListsKeys schema) :
    table.ranksByPrimary (Prefilter.ofFilter schema filter) = false :=
  ranksByPrimary_eq_false hschema hcolumns fun field hfield hpath values hvalues =>
    h ⟨field, hfield, hpath, values, hvalues⟩

lemma pairwise_visit {prefilter : Prefilter} (h : table.ranksByPrimary prefilter = true) :
    (table.visit prefilter).Pairwise fun a b => a.primary.getD "" ≤ b.primary.getD "" := by
  have hsorted : ((table.passing prefilter).mergeSort fun a b =>
      decide (a.primary.getD "" ≤ b.primary.getD "")).Pairwise fun a b =>
        decide (a.primary.getD "" ≤ b.primary.getD "") = true := by
    refine List.pairwise_mergeSort (fun a b c hab hbc => ?_) (fun a b => ?_) _
    · rw [decide_eq_true_eq] at hab hbc ⊢
      exact String.le_trans hab hbc
    · rw [Bool.or_eq_true, decide_eq_true_eq, decide_eq_true_eq]
      exact String.le_total _ _
  rw [visit, if_pos h]
  simpa using hsorted

lemma Written.pairwise_found (h : Written schema table docs) (hschema : schema ∈ Schema.all)
    (hread : ∀ doc ∈ docs, doc.Readable)
    (hrank : table.ranksByPrimary (Prefilter.ofFilter schema filter) = true) :
    (found schema table filter).Pairwise fun a b => a.1 ≤ b.1 := by
  have hkeys : ∀ row ∈ table.visit (Prefilter.ofFilter schema filter),
      ∀ entry ∈ entryOf? schema table row, row.primary = some entry.1 := by
    intro row hrow entry hentry
    have hmem := List.mem_of_mem_filter ((visit_perm table _).mem_iff.mp hrow)
    obtain ⟨doc, hdoc, hwrites⟩ := exists_right_of_forall₂ h.rows hmem
    have hrowHolds := (hwrites.rowHolds_iff hschema h.sound.columns).mpr (hread doc hdoc)
    rw [hrowHolds.entryOf?_eq] at hentry
    obtain ⟨key, hkey, rfl⟩ := Option.map_eq_some_iff.mp hentry
    exact (primary_of_writes hwrites).trans hkey
  refine List.Pairwise.filter _ (List.pairwise_filterMap.mpr ?_)
  refine (pairwise_visit hrank).imp_of_mem fun ha hb hle entry hentry other hother => ?_
  rwa [hkeys _ ha entry hentry, hkeys _ hb other hother] at hle

lemma Holds.keyed?_of_mem_found (h : Holds schema table docs) {entry : String × Document}
    (hentry : entry ∈ found schema table filter) :
    entry.2 ∈ docs.filter filter.accepts ∧ schema.keyOf? entry.2 = some entry.1 := by
  obtain ⟨doc, hdoc, hkeyed⟩ := List.mem_filterMap.mp ((h.found_perm filter).mem_iff.mp hentry)
  obtain ⟨key, hkey, rfl⟩ := Option.map_eq_some_iff.mp hkeyed
  exact ⟨hdoc, hkey⟩

lemma Written.exists_keyOf? (h : Written schema table docs) {doc : Document} (hdoc : doc ∈ docs) :
    ∃ key, schema.keyOf? doc = some key := by
  obtain ⟨row, -, -, key, hkey, -⟩ := exists_left_of_forall₂ h.rows hdoc
  exact ⟨key, hkey⟩

/-- No match has a key before that of the entry that is found first in the order of keys. -/
lemma Written.le_of_found_eq_cons (h : Written schema table docs) (hschema : schema ∈ Schema.all)
    (hread : ∀ doc ∈ docs, doc.Readable)
    (hrank : table.ranksByPrimary (Prefilter.ofFilter schema filter) = true)
    {entry : String × Document} {rest : List (String × Document)}
    (hfound : found schema table filter = entry :: rest) {doc : Document}
    (hdoc : doc ∈ docs.filter filter.accepts) {key : String} (hkey : schema.keyOf? doc = some key) :
    entry.1 ≤ key := by
  have hsorted := h.pairwise_found hschema hread hrank
  have hmem : (key, doc) ∈ found schema table filter := by
    refine ((h.holds hschema hread).found_perm filter).mem_iff.mpr ?_
    exact List.mem_filterMap.mpr ⟨doc, hdoc, by rw [keyed?, hkey, Option.map_some]⟩
  rw [hfound] at hsorted hmem
  rcases List.mem_cons.mp hmem with hfirst | hlater
  · rw [← hfirst]
  · exact (List.pairwise_cons.mp hsorted).1 _ hlater

/-- A table shows the first match, or the one with the least key when the filter compares the key
with a list. -/
theorem Written.exists_selectFirst (h : Written schema table docs) (hschema : schema ∈ Schema.all)
    (hread : ∀ doc ∈ docs, doc.Readable) (hfits : (Prefilter.ofFilter schema filter).Fits) :
    ∃ shown : Option Document,
      table.selectFirst schema filter = .ok (shown.bind (keyed? schema)) ∧
      filter.ShowsFirst schema docs shown := by
  have hholds := h.holds hschema hread
  have hkeyed : ∀ doc ∈ docs.filter filter.accepts, (schema.keyOf? doc).isSome = true :=
    fun doc hdoc => hholds.isSome_keyOf? (List.mem_of_mem_filter hdoc)
  rw [hholds.selectFirst_eq_found hfits]
  cases hrank : table.ranksByPrimary (Prefilter.ofFilter schema filter) with
  | false =>
    rw [hholds.found_eq hrank, head?_filterMap_keyed? hkeyed]
    refine ⟨_, rfl, fun doc hdoc => List.mem_of_mem_head? hdoc, rfl, fun hlists doc hdoc => ?_,
      fun _ => rfl⟩
    -- A list of keys that does not rank the rows has no string, so nothing matches.
    have hmem := List.mem_of_mem_head? hdoc
    have hranks := ranksByPrimary_of_accepts h.sound.columns hlists (hkeyed doc hmem)
      (List.mem_filter.mp hmem).2
    rw [hrank] at hranks
    cases hranks
  | true =>
    have hlists : filter.ListsKeys schema := by
      by_contra hnone
      rw [ranksByPrimary_eq_false_of_not_listsKeys hschema h.sound.columns hnone] at hrank
      cases hrank
    cases hfound : found schema table filter with
    | nil =>
      have hperm := (hholds.found_perm filter).map (·.2)
      rw [map_snd_filterMap_keyed? hkeyed, hfound] at hperm
      have hnone : docs.filter filter.accepts = [] := hperm.symm.eq_nil
      exact ⟨none, rfl, by simp, by rw [hnone]; rfl, fun _ => by simp, absurd hlists⟩
    | cons entry rest =>
      have hentry : entry ∈ found schema table filter := by
        rw [hfound]
        exact List.mem_cons_self
      obtain ⟨hmatch, hkey⟩ := hholds.keyed?_of_mem_found hentry
      refine ⟨some entry.2, by simp [keyed?, hkey], ?_, ?_, ?_, absurd hlists⟩
      · rintro doc ⟨⟩
        exact hmatch
      · exact (List.isSome_head?.mpr (List.ne_nil_of_mem hmatch)).symm
      · rintro - doc ⟨⟩ other hother key otherKey hdocKey hotherKey
        rw [hkey, Option.some.injEq] at hdocKey
        exact hdocKey ▸ h.le_of_found_eq_cons hschema hread hrank hfound hother hotherKey

/-- What is shown first is the first match exactly when the filter picks that. -/
theorem Written.eq_head?_iff_picksFirst (h : Written schema table docs) {shown : Option Document}
    (hshown : filter.ShowsFirst schema docs shown) :
    shown = (docs.filter filter.accepts).head? ↔ filter.PicksFirst schema docs := by
  by_cases hlists : filter.ListsKeys schema
  · constructor
    · rintro rfl
      exact .inr (hshown.listed hlists)
    · intro hpicks
      have hleast := hpicks.resolve_left (not_not_intro hlists)
      have hsome := hshown.isSome_eq
      cases hfirst : (docs.filter filter.accepts).head? with
      | none =>
        rw [hfirst] at hsome
        exact Option.not_isSome_iff_eq_none.mp (by simp [hsome])
      | some first =>
        rw [hfirst] at hsome
        obtain ⟨doc, rfl⟩ := Option.isSome_iff_exists.mp hsome
        have hdoc := hshown.matching doc rfl
        have hmem := List.mem_of_mem_head? hfirst
        obtain ⟨key, hkey⟩ := h.exists_keyOf? (List.mem_of_mem_filter hdoc)
        obtain ⟨firstKey, hfirstKey⟩ := h.exists_keyOf? (List.mem_of_mem_filter hmem)
        -- Neither key is after the other.
        have hsame : key = firstKey :=
          String.le_antisymm (hshown.listed hlists doc rfl first hmem key firstKey hkey hfirstKey)
            (hleast first hfirst doc hdoc firstKey key hfirstKey hkey)
        rw [h.eq_of_keyOf?_eq (List.mem_of_mem_filter hdoc) (List.mem_of_mem_filter hmem)
          (by rw [hkey, hfirstKey, hsame])]
  · exact iff_of_true (hshown.unlisted hlists) (.inl hlists)

lemma Written.bind_keyOf?_eq_iff (h : Written schema table docs) {first second : Option Document}
    (hfirst : ∀ doc ∈ first, doc ∈ docs) (hsecond : ∀ doc ∈ second, doc ∈ docs) :
    first.bind schema.keyOf? = second.bind schema.keyOf? ↔ first = second := by
  have hkeyed : ∀ doc ∈ docs, schema.keyOf? doc ≠ none := by
    intro doc hdoc
    obtain ⟨key, hkey⟩ := h.exists_keyOf? hdoc
    simp [hkey]
  refine ⟨fun hsame => ?_, fun hsame => by rw [hsame]⟩
  cases first with
  | none =>
    cases second with
    | none => rfl
    | some doc => exact absurd hsame.symm (hkeyed doc (hsecond doc rfl))
  | some doc =>
    cases second with
    | none => exact absurd hsame (hkeyed doc (hfirst doc rfl))
    | some other => rw [h.eq_of_keyOf?_eq (hfirst doc rfl) (hsecond other rfl) hsame]

end Table

end Sql

end DocStore
