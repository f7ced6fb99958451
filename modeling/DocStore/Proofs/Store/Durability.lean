import DocStore.Proofs.Files.Replacement
import DocStore.Proofs.Legible
import DocStore.Proofs.Nesting
import DocStore.Proofs.Store.SnapshotRun

/-!
# What a snapshot finds again

The file that a snapshot wrote holds one text for all its collections, nested two deeper than its
deepest document. So it is read back as a whole or not at all (`Collections.ofText?_text`): within
the limit with null in place of infinities and NaN, and past it as a file that cannot be read, which
gives a snapshot without collections (`restore_persist`).
-/

namespace DocStore

namespace Collections

/-- The names of the collections ascend, and all documents are ordered. -/
structure Ordered (collections : Collections) : Prop where
  names : Fields.Ascending collections
  documents : ∀ member ∈ collections, ∀ doc ∈ member.2, doc.Ordered

/-- The collections with null in place of each infinity and NaN in a document. -/
def legible (collections : Collections) : Collections :=
  collections.map fun member => (member.1, member.2.map Document.legible)

/-- The finite doubles of all documents are read back from their text unchanged. -/
def FiniteReadBack (collections : Collections) : Prop :=
  ∀ member ∈ collections, ∀ doc ∈ member.2, (Value.object doc).FiniteReadBack

/-- The greatest nesting of a document with which its collections can be read back: the object of
collections and the array of documents are around it. -/
def nestingLimit : Nat := 125

/-- All documents are within the limit. -/
def Shallow (collections : Collections) : Prop :=
  ∀ member ∈ collections, ∀ doc ∈ member.2, doc.nesting ≤ nestingLimit

instance : DecidablePred FiniteReadBack :=
  fun collections => inferInstanceAs (Decidable (∀ member ∈ collections, ∀ doc ∈ member.2, _))

instance : DecidablePred Shallow :=
  fun collections => inferInstanceAs (Decidable (∀ member ∈ collections, ∀ doc ∈ member.2, _))

variable {collections : Collections}

lemma nesting_toValue_le_iff :
    collections.toValue.nesting ≤ Value.nestingLimit ↔ collections.Shallow := by
  have hdocs : ∀ docs : Collection, (Value.array (docs.map .object)).nesting ≤ nestingLimit + 1 ↔
      ∀ doc ∈ docs, doc.nesting ≤ nestingLimit := by
    intro docs
    rw [Value.nesting, Nat.add_le_add_iff_right, Value.nestingItems_le_iff, List.forall_mem_map]
    rfl
  change Value.nesting (.object _) ≤ nestingLimit + 1 + 1 ↔ _
  rw [Value.nesting, Nat.add_le_add_iff_right, Value.nestingFields_le_iff, List.forall_mem_map]
  exact forall₂_congr fun member _ => hdocs member.2

lemma legibleItems_map_object (docs : List Document) :
    Value.legibleItems (docs.map .object) = (docs.map Document.legible).map .object := by
  induction docs with
  | nil => rfl
  | cons doc rest ih =>
    rw [List.map_cons, Value.legibleItems, ih]
    rfl

lemma mapM_asObject?_map_object (docs : List Document) :
    (docs.map Value.object).mapM Value.asObject? = some docs := by
  induction docs with
  | nil => rfl
  | cons doc rest ih =>
    rw [List.map_cons, List.mapM_cons, ih]
    rfl

lemma floatsOfItems_map_object {docs : List Document} {x : Binary64}
    (h : x ∈ Value.floatsOfItems (docs.map .object)) :
    ∃ doc ∈ docs, x ∈ (Value.object doc).floats := by
  induction docs with
  | nil => simp [Value.floatsOfItems] at h
  | cons doc rest ih =>
    rw [List.map_cons, Value.floatsOfItems, List.mem_append] at h
    rcases h with h | h
    · exact ⟨doc, by simp, h⟩
    · obtain ⟨other, ho, hx⟩ := ih h
      exact ⟨other, List.mem_cons_of_mem doc ho, hx⟩

lemma collectionOfTree?_tree {docs : Collection} (hdocs : ∀ doc ∈ docs, doc.Ordered)
    (hread : ∀ doc ∈ docs, (Value.object doc).FiniteReadBack) :
    collectionOfTree? (Value.array (docs.map .object)).tree =
      some (docs.map Document.legible) := by
  have hitems : Value.OrderedItems (docs.map .object) := by
    refine (Value.orderedItems_iff _).mpr (List.forall_mem_map.mpr ?_)
    exact hdocs
  have hfloats : ∀ x ∈ Value.floatsOfItems (docs.map .object),
      x.isFinite = true → x.ReadsBack := by
    intro x hx
    obtain ⟨doc, hd, hx⟩ := floatsOfItems_map_object hx
    exact hread doc hd x hx
  rw [Value.tree, collectionOfTree?, Value.ofItems?_treeItems _ hitems,
    Value.rereadItems?_eq_legibleItems _ hfloats, Option.bind_some, legibleItems_map_object,
    mapM_asObject?_map_object]

lemma ofMembers?_treeMembers (hdocs : ∀ member ∈ collections, ∀ doc ∈ member.2, doc.Ordered)
    (hread : collections.FiniteReadBack) :
    ofMembers? (Value.treeMembers
      (collections.map fun member => (member.1, .array (member.2.map .object)))) =
      some collections.legible := by
  induction collections with
  | nil => rfl
  | cons member rest ih =>
    obtain ⟨hmember, hrest⟩ := List.forall_mem_cons.mp hdocs
    obtain ⟨hfirst, hothers⟩ := List.forall_mem_cons.mp hread
    simp only [List.map_cons, Value.treeMembers, ofMembers?,
      collectionOfTree?_tree hmember hfirst, ih hrest hothers]
    rfl

/-- The text of collections is read back when no document is nested too deep, as these collections
with null in place of infinities and NaN; else it is not read at all. -/
theorem ofText?_text (h : collections.Ordered) (layout : Value.Layout) :
    (collections.Shallow → collections.FiniteReadBack →
      ofText? (collections.toValue.text layout) = some collections.legible) ∧
    (¬collections.Shallow → ofText? (collections.toValue.text layout) = none) := by
  have htext : ofText? (collections.toValue.text layout) =
      if collections.toValue.nesting ≤ Value.nestingLimit then ofTree? collections.toValue.tree
      else none := by
    rw [ofText?, Value.ofText?_text_tree]
    simp only [Option.bind_eq_bind, Option.bind_some, Value.nesting_tree]
    by_cases hn : collections.toValue.nesting ≤ Value.nestingLimit <;> simp [hn]
  rw [htext, ← nesting_toValue_le_iff]
  constructor
  · intro hshallow hread
    have hascending : Fields.Ascending collections.legible := List.pairwise_map.mpr h.names
    rw [if_pos hshallow, toValue, Value.tree, ofTree?, ofMembers?_treeMembers h.documents hread,
      Option.map_some, Fields.ofMembers_of_ascending hascending]
  · exact fun hdeep => if_neg hdeep

lemma ordered_nil : Ordered [] :=
  ⟨List.Pairwise.nil, by simp⟩

lemma Ordered.docs (h : collections.Ordered) (name : String) :
    ∀ doc ∈ collections.docs name, doc.Ordered := by
  rw [Collections.docs]
  cases hget : Fields.get? name collections with
  | none => simp
  | some docs => exact h.documents (name, docs) (Fields.mem_of_get? hget)

lemma Ordered.insert (h : collections.Ordered) (name : String) {docs : Collection}
    (hdocs : ∀ doc ∈ docs, doc.Ordered) : Ordered (Fields.insert name docs collections) where
  names := h.names.insert name docs
  documents := by
    intro member hm
    rcases Fields.mem_insert hm with rfl | hm
    · exact hdocs
    · exact h.documents member hm

lemma Ordered.updateOne (h : collections.Ordered) (name : String) {filter : Filter}
    {update : Update} (hfilter : filter.Ordered) (hupdate : update.Ordered) (upsert : Bool) :
    ∀ doc ∈ (Collection.updateOne name filter update upsert (collections.docs name)).2,
      doc.Ordered := by
  intro doc hd
  rcases Collection.mem_updateOne hd with hd | ⟨old, hold, rfl⟩ | rfl
  · exact h.docs name doc hd
  · exact hupdate.apply (h.docs name old hold)
  · exact hupdate.create hfilter

lemma ordered_of_collectionOfTree? {tree : Json.Tree} {docs : Collection}
    (h : collectionOfTree? tree = some docs) : ∀ doc ∈ docs, doc.Ordered := by
  unfold collectionOfTree? at h
  split at h
  · obtain ⟨values, hvalues, hmap⟩ := Option.bind_eq_some_iff.mp h
    have hordered := Value.orderedItems_of_ofItems? hvalues
    rw [eq_map_object_of_mapM hmap, Value.orderedItems_iff] at hordered
    exact fun doc hd => hordered _ (List.mem_map_of_mem hd)
  · cases h

lemma ordered_of_ofMembers? {trees : List (Option String × Json.Tree)}
    {members : List (String × Collection)} (h : ofMembers? trees = some members) :
    ∀ member ∈ members, ∀ doc ∈ member.2, doc.Ordered := by
  induction trees generalizing members with
  | nil =>
    cases h
    simp
  | cons entry rest ih =>
    obtain ⟨name, tree⟩ := entry
    simp only [ofMembers?] at h
    split at h
    · rename_i hcollection hmembers
      cases h
      exact List.forall_mem_cons.mpr ⟨ordered_of_collectionOfTree? hcollection, ih hmembers⟩
    · cases h

lemma ordered_of_ofText? {s : String} (h : ofText? s = some collections) :
    collections.Ordered := by
  simp only [ofText?, bind, Option.bind_eq_some_iff] at h
  obtain ⟨tree, -, -, -, h⟩ := h
  unfold ofTree? at h
  split at h
  · obtain ⟨members, hmembers, rfl⟩ := Option.map_eq_some_iff.mp h
    refine ⟨Fields.ofMembers_ascending members, fun member hm => ?_⟩
    exact ordered_of_ofMembers? hmembers member (Fields.mem_of_mem_ofMembers hm)
  · cases h

end Collections

namespace Snapshot

lemma ordered_stored (files : FileTree) (path : String) : (stored files path).Ordered := by
  unfold stored
  cases hcollections : (files.readText path).toOption.bind Collections.ofText? with
  | none => exact Collections.ordered_nil
  | some collections =>
    obtain ⟨s, -, hs⟩ := Option.bind_eq_some_iff.mp hcollections
    exact Collections.ordered_of_ofText? hs

lemma stored_persist {kept : Snapshot} {files : FileTree}
    (h : (kept.persist files).answer = .ok ()) :
    stored (kept.persist files).state kept.path = (Collections.ofText? kept.text).getD [] := by
  have hread := FileTree.readText_of_replace h
  rw [stored, persist, hread]
  rfl

lemma restore_of_persist {kept : Snapshot} (hordered : kept.collections.Ordered)
    {files : FileTree} (h : (kept.persist files).answer = .ok ()) (pretty : Bool) :
    let reopened := restore (kept.persist files).state kept.path pretty
    (kept.collections.Shallow → kept.collections.FiniteReadBack →
      reopened.collections = kept.collections.legible) ∧
    (¬kept.collections.Shallow → reopened.collections = []) := by
  obtain ⟨hshallow, hdeep⟩ := Collections.ofText?_text hordered
    (if kept.pretty then .pretty else .compact)
  change (_ → _ → stored (kept.persist files).state kept.path = _) ∧
    (_ → stored (kept.persist files).state kept.path = [])
  rw [stored_persist h, text]
  constructor
  · intro hwithin hread
    rw [hshallow hwithin hread, Option.getD_some]
  · intro hpast
    rw [hdeep hpast, Option.getD_none]

end Snapshot

namespace Backend

/-- The states that a backend gets into, whatever its file held when it was opened and whoever
changes the files meanwhile. -/
inductive Attained (config : Config) : Held → Prop where
  | opened (files : FileTree) : Attained config (restore config files)
  | request {held : Held} (h : Attained config held) (name : String) {request : Request}
      (hrequest : request.Ordered) : Attained config (carryOut name request held).state
  | flushed {held : Held} (h : Attained config held) : Attained config (flush held).state
  | meanwhile {backend : Backend} {files : FileTree} (h : Attained config (backend, files))
      (later : FileTree) : Attained config (backend, later)

/-- A snapshot with ordered collections. -/
def OrderedSnapshot (held : Held) : Prop :=
  ∃ kept, held.1 = .snapshot kept ∧ kept.collections.Ordered

variable {kept : Snapshot} {files : FileTree}

lemma orderedSnapshot_commit {α : Type} {change : α × Collections} (h : change.2.Ordered) :
    OrderedSnapshot (ofSnapshot (kept.commit files change)).state := by
  refine ⟨(kept.commit files change).state.1, rfl, ?_⟩
  rw [Snapshot.state_commit]
  exact h

lemma OrderedSnapshot.carryOut {held : Held} (h : OrderedSnapshot held) (name : String)
    {request : Request} (hrequest : request.Ordered) :
    OrderedSnapshot (carryOut name request held).state := by
  refine carryOut_keeps ?_ ?_ ?_ hrequest h
  · rintro filter update upsert hfilter hupdate ⟨-, files⟩ ⟨kept, rfl, hordered⟩
    rw [Backend.updateOne, Snapshot.updateOne]
    cases update.requireAssignments with
    | error error => exact ⟨kept, rfl, hordered⟩
    | ok =>
      have hdocs := hordered.updateOne name hfilter hupdate upsert
      exact orderedSnapshot_commit (hordered.insert name hdocs)
  · rintro filter ⟨-, files⟩ ⟨kept, rfl, hordered⟩
    refine orderedSnapshot_commit (hordered.insert name fun doc hd => ?_)
    exact hordered.docs name doc (List.mem_of_mem_filter hd)
  · rintro filter update hfilter hupdate ⟨-, files⟩ ⟨kept, rfl, hordered⟩
    have hdocs := hordered.updateOne name hfilter hupdate true
    rw [← Collection.findOneAndUpdate_snd] at hdocs
    exact orderedSnapshot_commit (hordered.insert name hdocs)

lemma orderedSnapshot_of_attained {config : Config} (hconfig : config.backend = .snapshot)
    {held : Held} (h : Attained config held) : OrderedSnapshot held := by
  induction h with
  | opened files =>
    rw [restore, hconfig]
    exact ⟨_, rfl, Snapshot.ordered_stored files config.snapshotPath⟩
  | request h name hrequest ih => exact ih.carryOut name hrequest
  | @flushed held h ih =>
    obtain ⟨backend, files⟩ := held
    obtain ⟨kept, rfl, hordered⟩ := ih
    exact orderedSnapshot_commit hordered
  | meanwhile h later ih => exact ih

/-- Whatever a snapshot went through, the file that it writes, compact or indented, gives it back
when it is opened again: all collections with their names, in order, with the same documents in
order and null in place of infinities and NaN. When a single document is nested past the limit, the
file gives nothing. -/
theorem restore_persist {config : Config} (hconfig : config.backend = .snapshot) {held : Held}
    (h : Attained config held) :
    ∃ kept, held.1 = .snapshot kept ∧ ∀ (pretty again : Bool) (files : FileTree),
      ({ kept with pretty }.persist files).answer = .ok () →
        let reopened :=
          Snapshot.restore ({ kept with pretty }.persist files).state kept.path again
        (kept.collections.Shallow → kept.collections.FiniteReadBack →
          reopened.collections = kept.collections.legible) ∧
        (¬kept.collections.Shallow → reopened.collections = []) := by
  obtain ⟨kept, hkept, hordered⟩ := orderedSnapshot_of_attained hconfig h
  refine ⟨kept, hkept, fun pretty again files hwritten => ?_⟩
  have hordered' : ({ kept with pretty } : Snapshot).collections.Ordered := hordered
  exact Snapshot.restore_of_persist hordered' hwritten again

/-- An infinite setting is found again as null, and a collection without documents as it was. -/
theorem restore_persist_infinity :
    ∃ held kept, Attained .default held ∧ held.1 = .snapshot kept ∧
      (kept.persist held.2).answer = .ok () ∧
      (Snapshot.restore (kept.persist held.2).state kept.path false).collections =
        [("bare", []), ("settings", [[("least", .float (.zero true)), ("limit", .null)]])] := by
  have hdelete : (Request.deleteMany .empty).Ordered := trivial
  have hassign : (Request.findOneAndUpdate .empty
      ⟨[.assign "least" (.float (.zero true)), .assign "limit" (.float (.infinity false))]⟩).Ordered
      := by
    simp [Request.Ordered, Filter.Ordered, Filter.empty, Update.Ordered, UpdateOp.Ordered,
      Value.Ordered]
  have hopened : Attained .default (restore .default (.empty "/w")) := .opened _
  have hattained := (hopened.request "bare" hdelete).request "settings" hassign
  obtain ⟨kept, hkept, hrestore⟩ := restore_persist rfl hattained
  have hkept' : kept = ⟨".cache/localdb.json", true, [("bare", []), ("settings",
      [[("least", .float (.zero true)), ("limit", .float (.infinity false))]])]⟩ := by
    injection hkept with hkept
    rw [← hkept]
    rfl
  subst hkept'
  refine ⟨_, _, hattained, hkept, by decide +kernel, ?_⟩
  exact (hrestore true false _ (by decide +kernel)).1 (by decide +kernel) (by decide +kernel)

end Backend

end DocStore
