import DocStore.Proofs.Keys
import DocStore.Proofs.Ordered
import DocStore.Store.Snapshot
import Mathlib.Data.List.Nodup

/-!
# Keys in a collection

A collection is `Sound` when its documents are ordered and those of a conventional collection have
distinct string keys. A written document stays, those that share its key disappear, and all others
stay as they are (`Collection.stores_updateOne`); so every write keeps a collection sound.
-/

namespace DocStore

namespace Schema

lemma for?_eq_some_iff (name : String) (schema : Schema) :
    for? name = some schema ↔ schema ∈ all ∧ schema.name = name := by
  have hdistinct : ∀ schema ∈ all, for? schema.name = some schema := by decide
  constructor
  · intro h
    exact ⟨List.mem_of_find?_eq_some h, by simpa using List.find?_some h⟩
  · rintro ⟨hschema, rfl⟩
    exact hdistinct schema hschema

lemma for?_name {schema : Schema} (h : schema ∈ all) : for? schema.name = some schema :=
  (for?_eq_some_iff schema.name schema).mpr ⟨h, rfl⟩

lemma eq_of_name_eq {schema other : Schema} (h : schema ∈ all) (ho : other ∈ all)
    (hname : schema.name = other.name) : schema = other := by
  have hself := for?_name h
  rw [hname, for?_name ho] at hself
  exact (Option.some.inj hself).symm

/-- The documents that stay when one is stored: those whose value at the key path does not equal
its. -/
def besides (schema : Schema) (doc : Document) (docs : List Document) : List Document :=
  docs.filter fun other =>
    match doc.get? schema.key.path with
    | none => true
    | some key => !(other.get? schema.key.path).any fun found => found.eqv key

end Schema

namespace Collections

@[simp] lemma docs_insert_self (name : String) (docs : Collection) (collections : Collections) :
    Collections.docs (Fields.insert name docs collections) name = docs := by
  rw [Collections.docs, Fields.get?_insert_self, Option.getD_some]

lemma docs_insert_of_ne {name other : String} (h : other ≠ name) (docs : Collection)
    (collections : Collections) :
    Collections.docs (Fields.insert name docs collections) other = collections.docs other := by
  rw [Collections.docs, Fields.get?_insert_of_ne h, Collections.docs]

end Collections

namespace Collection

/-- Ordered documents, with distinct string keys in a conventional collection. -/
structure Sound (name : String) (docs : Collection) : Prop where
  documents : ∀ doc ∈ docs, doc.Ordered
  keys : ∀ schema, Schema.for? name = some schema → (docs.filterMap schema.keyOf?).Nodup

lemma sound_nil (name : String) : Sound name [] :=
  ⟨by simp, fun _ _ => List.nodup_nil⟩

lemma Sound.sublist {name : String} {docs kept : Collection} (h : Sound name docs)
    (hkept : kept.Sublist docs) : Sound name kept where
  documents := fun doc hdoc => h.documents doc (hkept.subset hdoc)
  keys := fun schema hname => (h.keys schema hname).sublist (hkept.filterMap schema.keyOf?)

lemma place_eq {name : String} {schema : Schema} (hname : Schema.for? name = some schema)
    (before : List Document) (doc : Document) (after : List Document) :
    place name before doc after =
      schema.besides doc before ++ doc :: schema.besides doc after := by
  have hcollides : (fun other => !collides name doc other) = fun other =>
      match doc.get? schema.key.path with
      | none => true
      | some key => !(other.get? schema.key.path).any fun found => found.eqv key := by
    funext other
    rw [collides, hname, Option.any_some, Schema.sharesKey]
    cases doc.get? schema.key.path <;> rfl
  simp only [place, Schema.besides, hcollides]

lemma place_of_forall_ne {name : String} {schema : Schema} (hname : Schema.for? name = some schema)
    {before after : List Document} {doc : Document} {key : String}
    (hkey : schema.keyOf? doc = some key)
    (h : ∀ other ∈ before ++ after, schema.keyOf? other ≠ some key) :
    place name before doc after = before ++ doc :: after := by
  have hkept : ∀ other ∈ before ++ after, (!collides name doc other) = true := by
    intro other ho
    have hapart : ¬schema.sharesKey doc other = true := by
      rw [Schema.sharesKey_eq_true_iff hkey other]
      exact h other ho
    simpa [collides, hname] using hapart
  rw [place, List.filter_eq_self.mpr fun other ho => hkept other (List.mem_append_left _ ho),
    List.filter_eq_self.mpr fun other ho => hkept other (List.mem_append_right _ ho)]

/-- Whatever is dropped, a sound collection stays sound when a document is put between others. -/
lemma Sound.place {name : String} {docs : Collection} (h : Sound name docs) {doc : Document}
    (hdoc : doc.Ordered) {before after : List Document} (hdocs : (before ++ after).Sublist docs) :
    Sound name (place name before doc after) := by
  let others := (before ++ after).filter (!collides name doc ·)
  have hperm : (Collection.place name before doc after).Perm (doc :: others) := by
    refine List.perm_middle.trans ?_
    rw [← List.filter_append]
  have hothers : Sound name others := h.sublist (List.filter_sublist.trans hdocs)
  refine ⟨fun other ho => ?_, fun schema hname => ?_⟩
  · rcases List.mem_cons.mp (hperm.mem_iff.mp ho) with rfl | ho
    · exact hdoc
    · exact hothers.documents other ho
  · refine (hperm.filterMap schema.keyOf?).nodup_iff.mpr ?_
    cases hkey : schema.keyOf? doc with
    | none =>
      rw [List.filterMap_cons, hkey]
      exact hothers.keys schema hname
    | some key =>
      rw [List.filterMap_cons, hkey]
      refine List.nodup_cons.mpr ⟨fun hm => ?_, hothers.keys schema hname⟩
      obtain ⟨other, ho, hother⟩ := List.mem_filterMap.mp hm
      -- A document with that key was dropped.
      have hshares := (Schema.sharesKey_eq_true_iff hkey other).mpr hother
      have hkept := (List.mem_filter.mp ho).2
      simp [collides, hname, hshares] at hkept

/-- What a write of the first match does to the documents of a conventional collection. The update
of the match takes its place; when nothing matches, the document that may be made stands behind the
others. Of the others just those disappear whose value at the key path equals that of the stored
document. -/
structure Stores (schema : Schema) (filter : Filter) (update : Update) (upsert : Bool)
    (docs after : Collection) : Prop where
  matched : ∀ front old back, docs = front ++ old :: back →
    (∀ doc ∈ front, filter.accepts doc = false) → filter.accepts old = true →
    after = schema.besides (update.apply old) front ++
      update.apply old :: schema.besides (update.apply old) back
  created : (∀ doc ∈ docs, filter.accepts doc = false) → upsert = true →
    after = schema.besides (update.create filter) docs ++ [update.create filter]
  unmatched : (∀ doc ∈ docs, filter.accepts doc = false) → upsert = false → after = docs

lemma splitFirst_append {p : Document → Bool} {front back : List Document} {old : Document}
    (hfront : ∀ doc ∈ front, p doc = false) (hold : p old = true) :
    splitFirst p (front ++ old :: back) = some (front, old, back) := by
  induction front with
  | nil => simp [splitFirst, hold]
  | cons doc rest ih =>
    have hdoc := hfront doc (by simp)
    have hrest := ih fun other ho => hfront other (List.mem_cons_of_mem doc ho)
    simp [splitFirst, hdoc, hrest]

theorem stores_updateOne {name : String} {schema : Schema}
    (hname : Schema.for? name = some schema) (filter : Filter) (update : Update) (upsert : Bool)
    (docs : Collection) :
    Stores schema filter update upsert docs (updateOne name filter update upsert docs).2 where
  matched := by
    rintro front old back rfl hfront hold
    simp only [updateOne, updateFirst?, splitFirst_append hfront hold, Option.map_some]
    exact place_eq hname front _ back
  created := by
    rintro hnone rfl
    simp only [updateOne, updateFirst?, splitFirst_eq_none_iff.mpr hnone, Option.map_none, if_true]
    rw [push, place_eq hname]
    rfl
  unmatched := by
    rintro hnone rfl
    simp [updateOne, updateFirst?, splitFirst_eq_none_iff.mpr hnone]

lemma findOneAndUpdate_snd (name : String) (filter : Filter) (update : Update)
    (docs : Collection) :
    (findOneAndUpdate name filter update docs).2 = (updateOne name filter update true docs).2 := by
  rw [updateOne, findOneAndUpdate]
  cases updateFirst? name filter update docs <;> rfl

lemma mem_place {name : String} {before after : List Document} {doc other : Document}
    (h : other ∈ place name before doc after) : other = doc ∨ other ∈ before ++ after := by
  rw [place, List.mem_append, List.mem_cons] at h
  rcases h with h | rfl | h
  · exact .inr (List.mem_append_left _ (List.mem_of_mem_filter h))
  · exact .inl rfl
  · exact .inr (List.mem_append_right _ (List.mem_of_mem_filter h))

lemma mem_push {name : String} {docs : Collection} {doc other : Document}
    (h : other ∈ push name doc docs) : other = doc ∨ other ∈ docs := by
  simpa using mem_place h

theorem mem_updateOne {name : String} {filter : Filter} {update : Update} {upsert : Bool}
    {docs : Collection} {doc : Document}
    (h : doc ∈ (updateOne name filter update upsert docs).2) :
    doc ∈ docs ∨ (∃ old ∈ docs, doc = update.apply old) ∨ doc = update.create filter := by
  rw [updateOne] at h
  split at h
  · rename_i hfirst
    obtain ⟨⟨before, old, behind⟩, hsplit, heq⟩ := Option.map_eq_some_iff.mp hfirst
    cases heq
    obtain ⟨rfl, -, -⟩ := splitFirst_eq_some hsplit
    rcases mem_place h with rfl | h
    · exact .inr (.inl ⟨old, by simp, rfl⟩)
    · exact .inl (((List.Sublist.refl before).append (List.sublist_cons_self old behind)).subset h)
  · split at h
    · rcases mem_push h with rfl | h
      · exact .inr (.inr rfl)
      · exact .inl h
    · exact .inl h

lemma Sound.updateFirst? {name : String} {docs : Collection} (h : Sound name docs)
    {filter : Filter} {update : Update} (hupdate : update.Ordered) {doc : Document}
    {after : Collection} (hafter : updateFirst? name filter update docs = some (doc, after)) :
    Sound name after := by
  obtain ⟨⟨before, old, behind⟩, hsplit, heq⟩ := Option.map_eq_some_iff.mp hafter
  cases heq
  obtain ⟨rfl, -, -⟩ := splitFirst_eq_some hsplit
  refine h.place (hupdate.apply (h.documents old (by simp))) ?_
  exact (List.Sublist.refl before).append (List.sublist_cons_self old behind)

lemma Sound.push {name : String} {docs : Collection} (h : Sound name docs) {doc : Document}
    (hdoc : doc.Ordered) : Sound name (push name doc docs) :=
  h.place hdoc (by simp)

theorem Sound.updateOne {name : String} {docs : Collection} (h : Sound name docs)
    {filter : Filter} {update : Update} (hfilter : filter.Ordered) (hupdate : update.Ordered)
    (upsert : Bool) : Sound name (updateOne name filter update upsert docs).2 := by
  rw [Collection.updateOne]
  split
  · rename_i hfirst
    exact h.updateFirst? hupdate hfirst
  · split
    · exact h.push (hupdate.create hfilter)
    · exact h

theorem Sound.findOneAndUpdate {name : String} {docs : Collection} (h : Sound name docs)
    {filter : Filter} {update : Update} (hfilter : filter.Ordered) (hupdate : update.Ordered) :
    Sound name (findOneAndUpdate name filter update docs).2 := by
  rw [Collection.findOneAndUpdate]
  split
  · rename_i result hfirst
    exact h.updateFirst? hupdate hfirst
  · exact h.push (hupdate.create hfilter)

theorem Sound.deleteMany {name : String} {docs : Collection} (h : Sound name docs)
    (filter : Filter) : Sound name (deleteMany filter docs).2 :=
  h.sublist List.filter_sublist

end Collection

end DocStore
