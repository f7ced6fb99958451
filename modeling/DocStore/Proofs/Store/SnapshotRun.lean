import DocStore.Proofs.Lists
import DocStore.Proofs.ReadBack
import DocStore.Proofs.Store.Collection
import DocStore.Proofs.Store.Requests

/-!
# Keys in a snapshot

In every state that a snapshot reaches from a missing file, all its collections are sound, and so is
what its file holds (`Snapshot.Sound`): reading the file back changes no string
(`Collections.sound_of_ofText?_text`), so no key. Hence no two documents of a conventional
collection have one key (`keys_of_reachable`).
-/

namespace DocStore

namespace Document

lemma keyOf?_of_reread? (schema : Schema) {doc after : Document} (h : doc.reread? = some after) :
    schema.keyOf? after = schema.keyOf? doc :=
  asString?_getAt?_of_reread? h (segments schema.key.path)

lemma ordered_of_reread? {doc after : Document} (hdoc : doc.Ordered)
    (h : doc.reread? = some after) : after.Ordered := by
  have hvalue : (Value.object doc).reread? = some (.object after) := by
    rw [Value.reread?, show Value.rereadFields? doc = some after from h]
    rfl
  rw [← Value.ofTree?_tree _ hdoc] at hvalue
  exact Value.ordered_of_ofTree? hvalue

end Document

/-- Documents and what they are read back as, one by one. -/
def Collection.RereadAs (docs after : Collection) : Prop :=
  List.Forall₂ (fun doc later => Document.reread? doc = some later) docs after

lemma Collection.Sound.rereadAs {name : String} {docs after : Collection} (h : Sound name docs)
    (hafter : RereadAs docs after) : Sound name after := by
  have hkeys : ∀ schema : Schema,
      after.filterMap schema.keyOf? = docs.filterMap schema.keyOf? := by
    intro schema
    clear h
    induction hafter with
    | nil => rfl
    | cons hdoc _ ih =>
      rw [List.filterMap_cons, List.filterMap_cons, Document.keyOf?_of_reread? schema hdoc, ih]
  refine ⟨fun later hlater => ?_, fun schema hname => hkeys schema ▸ h.keys schema hname⟩
  obtain ⟨doc, hdoc, hreread⟩ := exists_left_of_forall₂ hafter hlater
  exact Document.ordered_of_reread? (h.documents doc hdoc) hreread

namespace Collections

def Sound (collections : Collections) : Prop :=
  ∀ member ∈ collections, Collection.Sound member.1 member.2

lemma sound_nil : Sound [] := by
  simp [Sound]

lemma Sound.docs {collections : Collections} (h : collections.Sound) (name : String) :
    (collections.docs name).Sound name := by
  rw [Collections.docs]
  cases hget : Fields.get? name collections with
  | none => exact Collection.sound_nil name
  | some docs => exact h (name, docs) (Fields.mem_of_get? hget)

lemma Sound.insert {collections : Collections} (h : collections.Sound) {name : String}
    {docs : Collection} (hdocs : docs.Sound name) :
    Sound (Fields.insert name docs collections) := by
  intro member hm
  rcases Fields.mem_insert hm with rfl | hm
  · exact hdocs
  · exact h member hm

lemma eq_map_object_of_mapM {values : List Value} {docs : List Document}
    (h : values.mapM Value.asObject? = some docs) : values = docs.map .object := by
  induction values generalizing docs with
  | nil =>
    cases h
    rfl
  | cons value rest ih =>
    rw [List.mapM_cons] at h
    obtain ⟨doc, hdoc, h⟩ := Option.bind_eq_some_iff.mp h
    obtain ⟨more, hmore, h⟩ := Option.bind_eq_some_iff.mp h
    cases h
    cases value with
    | object fields =>
      cases hdoc
      rw [ih hmore, List.map_cons]
    | _ => cases hdoc

lemma rereadAs_of_rereadItems? {docs after : List Document}
    (h : Value.rereadItems? (docs.map .object) = some (after.map .object)) :
    Collection.RereadAs docs after := by
  induction docs generalizing after with
  | nil =>
    cases after with
    | nil => exact .nil
    | cons later more => cases h
  | cons doc rest ih =>
    rw [List.map_cons, Value.rereadItems?, Value.reread?] at h
    split at h
    · rename_i value values hvalue hvalues
      obtain ⟨members, hmembers, rfl⟩ := Option.map_eq_some_iff.mp hvalue
      cases after with
      | nil => cases h
      | cons later more =>
        simp only [List.map_cons, Option.some.injEq, List.cons.injEq, Value.object.injEq] at h
        obtain ⟨rfl, rfl⟩ := h
        exact .cons hmembers (ih hvalues)
    · cases h

lemma rereadAs_of_collectionOfTree? {docs after : Collection} (hdocs : ∀ doc ∈ docs, doc.Ordered)
    (h : collectionOfTree? (Value.array (docs.map .object)).tree = some after) :
    docs.RereadAs after := by
  have hitems : Value.OrderedItems (docs.map .object) := by
    refine (Value.orderedItems_iff _).mpr fun item hi => ?_
    obtain ⟨doc, hd, rfl⟩ := List.mem_map.mp hi
    exact hdocs doc hd
  rw [Value.tree, collectionOfTree?, Value.ofItems?_treeItems _ hitems] at h
  obtain ⟨values, hvalues, hmap⟩ := Option.bind_eq_some_iff.mp h
  rw [eq_map_object_of_mapM hmap] at hvalues
  exact rereadAs_of_rereadItems? hvalues

lemma sound_of_ofMembers? {collections : Collections} (hsound : collections.Sound)
    {members : List (String × Collection)}
    (h : ofMembers? (Value.treeMembers
      (collections.map fun member => (member.1, .array (member.2.map .object)))) = some members) :
    Sound members := by
  induction collections generalizing members with
  | nil =>
    cases h
    exact sound_nil
  | cons member rest ih =>
    obtain ⟨name, docs⟩ := member
    have hdocs : docs.Sound name := hsound (name, docs) (by simp)
    simp only [List.map_cons, Value.treeMembers, ofMembers?] at h
    split at h
    · rename_i hname hcollection hmembers
      cases h
      cases hname
      have hrest := ih (fun other ho => hsound other (List.mem_cons_of_mem _ ho)) hmembers
      refine List.forall_mem_cons.mpr ⟨?_, hrest⟩
      exact hdocs.rereadAs (rereadAs_of_collectionOfTree? hdocs.documents hcollection)
    · cases h

/-- What the text of sound collections is read back as is sound. -/
theorem sound_of_ofText?_text {collections stored : Collections} (hsound : collections.Sound)
    {layout : Value.Layout} (h : ofText? (collections.toValue.text layout) = some stored) :
    stored.Sound := by
  simp only [ofText?, bind, Option.bind_eq_some_iff, Value.ofText?_text_tree,
    Option.some.injEq, exists_eq_left'] at h
  obtain ⟨-, -, h⟩ := h
  rw [toValue, Value.tree, ofTree?] at h
  obtain ⟨members, hmembers, rfl⟩ := Option.map_eq_some_iff.mp h
  intro member hm
  exact sound_of_ofMembers? hsound hmembers member (Fields.mem_of_mem_ofMembers hm)

end Collections

/-- What a file may hold: no text that gives unsound collections. -/
def Content.SoundText (content : Content) : Prop :=
  ∀ s collections, content = .text s → Collections.ofText? s = some collections →
    collections.Sound

namespace Snapshot

open FileTree

/-- A snapshot of a path whose collections are sound, and so is what its file holds. -/
structure Sound (path : String) (kept : Snapshot) (files : FileTree) : Prop where
  place : kept.path = path
  collections : kept.collections.Sound
  file : HeldAt Content.SoundText (locationOf path) files

lemma sound_restore {path : String} {files : FileTree}
    (h : HeldAt Content.SoundText (locationOf path) files) (pretty : Bool) :
    Sound path (restore files path pretty) files := by
  refine ⟨rfl, ?_, h⟩
  change (stored files path).Sound
  unfold stored
  cases hread : files.readText path with
  | error fault => exact Collections.sound_nil
  | ok s =>
    cases hcollections : Collections.ofText? s with
    | none =>
      simp only [Except.toOption, Option.bind_some, hcollections]
      exact Collections.sound_nil
    | some collections =>
      simp only [Except.toOption, Option.bind_some, hcollections]
      exact h _ (entry?_of_readText hread) s collections rfl hcollections

variable {path : String} {kept : Snapshot} {files : FileTree}

lemma soundText_text (kept : Snapshot) (h : kept.collections.Sound) :
    Content.SoundText (.text kept.text) := by
  rintro s collections ⟨⟩ hcollections
  exact Collections.sound_of_ofText?_text h hcollections

lemma state_commit {α : Type} (kept : Snapshot) (files : FileTree) (change : α × Collections) :
    (kept.commit files change).state =
      ({ kept with collections := change.2 },
        (files.replace kept.path
          (.text { kept with collections := change.2 }.text)).state) := by
  simp only [commit, persist, Outcome.mapState, Outcome.mapError, Outcome.map]

lemma Sound.commit {α : Type} (h : Sound path kept files) {change : α × Collections}
    (hchange : change.2.Sound) {after : Snapshot × FileTree}
    (hafter : (kept.commit files change).state = after) : Sound path after.1 after.2 := by
  have hadds := addsOnly_replace files kept.path
    (soundText_text { kept with collections := change.2 } hchange)
  rw [state_commit] at hafter
  generalize (files.replace kept.path _).state = written at hadds hafter
  subst hafter
  exact ⟨h.place, hchange, hadds.heldAt h.file⟩

/-! ## Writes -/

lemma Sound.updateOne (h : Sound path kept files) {name : String} {filter : Filter}
    {update : Update} (hfilter : filter.Ordered) (hupdate : update.Ordered) (upsert : Bool) :
    Sound path (kept.updateOne files name filter update upsert).state.1
      (kept.updateOne files name filter update upsert).state.2 := by
  unfold Snapshot.updateOne
  cases update.requireAssignments with
  | error error => exact h
  | ok =>
    exact h.commit (h.collections.insert
      ((h.collections.docs name).updateOne hfilter hupdate upsert)) rfl

lemma Sound.deleteMany (h : Sound path kept files) (name : String) (filter : Filter) :
    Sound path (kept.deleteMany files name filter).state.1
      (kept.deleteMany files name filter).state.2 :=
  h.commit (h.collections.insert ((h.collections.docs name).deleteMany filter)) rfl

lemma Sound.findOneAndUpdate (h : Sound path kept files) {name : String} {filter : Filter}
    {update : Update} (hfilter : filter.Ordered) (hupdate : update.Ordered) :
    Sound path (kept.findOneAndUpdate files name filter update).state.1
      (kept.findOneAndUpdate files name filter update).state.2 :=
  h.commit (h.collections.insert
    ((h.collections.docs name).findOneAndUpdate hfilter hupdate)) rfl

lemma Sound.flush (h : Sound path kept files) :
    Sound path (kept.flush files).state.1 (kept.flush files).state.2 :=
  h.commit h.collections rfl

end Snapshot

namespace Backend

open Snapshot (Sound)

/-- A state of a backend that is a sound snapshot. -/
def SoundSnapshot (path : String) (held : Held) : Prop :=
  ∃ kept, held.1 = .snapshot kept ∧ Sound path kept held.2

variable {path : String}

lemma soundSnapshot_ofSnapshot {α : Type} {outcome : Outcome StoreError (Snapshot × FileTree) α}
    (h : Sound path outcome.state.1 outcome.state.2) :
    SoundSnapshot path (ofSnapshot outcome).state :=
  ⟨outcome.state.1, rfl, h⟩

lemma SoundSnapshot.carryOut {held : Held} (h : SoundSnapshot path held) (name : String)
    {request : Request} (hrequest : request.Ordered) :
    SoundSnapshot path (carryOut name request held).state := by
  refine carryOut_keeps ?_ ?_ ?_ hrequest h
  · rintro filter update upsert hfilter hupdate ⟨-, files⟩ ⟨kept, rfl, hsound⟩
    exact soundSnapshot_ofSnapshot (Sound.updateOne hsound hfilter hupdate upsert)
  · rintro filter ⟨-, files⟩ ⟨kept, rfl, hsound⟩
    exact soundSnapshot_ofSnapshot (Sound.deleteMany hsound name filter)
  · rintro filter update hfilter hupdate ⟨-, files⟩ ⟨kept, rfl, hsound⟩
    exact soundSnapshot_ofSnapshot (Sound.findOneAndUpdate hsound hfilter hupdate)

lemma SoundSnapshot.flush {held : Held} (h : SoundSnapshot path held) :
    SoundSnapshot path (flush held).state := by
  obtain ⟨backend, files⟩ := held
  obtain ⟨kept, rfl, hsound⟩ := h
  dsimp only at hsound
  exact soundSnapshot_ofSnapshot hsound.flush

lemma soundSnapshot_restore {config : Config} (hconfig : config.backend = .snapshot)
    {files : FileTree} (h : FileTree.HeldAt Content.SoundText
      (FileTree.locationOf config.snapshotPath) files) :
    SoundSnapshot config.snapshotPath (restore config files) := by
  rw [restore, hconfig]
  exact ⟨_, rfl, Snapshot.sound_restore h config.prettySnapshot⟩

lemma soundSnapshot_of_reachable {config : Config} (hconfig : config.backend = .snapshot)
    {held : Held} (h : Reachable config held) : SoundSnapshot config.snapshotPath held := by
  have hhome : config.home? = some (FileTree.locationOf config.snapshotPath) := by
    rw [Config.home?, hconfig]
  induction h with
  | opened habsent =>
    refine soundSnapshot_restore hconfig fun content hentry => ?_
    exact absurd hentry (habsent _ hhome content)
  | request h name hrequest ih => exact ih.carryOut name hrequest
  | flushed h ih => exact ih.flush
  | reopened h ih =>
    obtain ⟨kept, -, hsound⟩ := ih
    exact soundSnapshot_restore hconfig hsound.file
  | @meanwhile backend files later h hlater ih =>
    obtain ⟨kept, hkept, hsound⟩ := ih
    refine ⟨kept, hkept, hsound.place, hsound.collections, fun content hentry => ?_⟩
    rw [hlater _ hhome] at hentry
    exact hsound.file content hentry

/-- What a write of the first match does to a snapshot: it stores a document in the collection of a
schema and leaves the other collections alone. -/
def StoresIn (schema : Schema) (filter : Filter) (update : Update) (upsert : Bool)
    (kept after : Snapshot) : Prop :=
  Collection.Stores schema filter update upsert (kept.collections.docs schema.name)
      (after.collections.docs schema.name) ∧
    ∀ name, name ≠ schema.name → after.collections.docs name = kept.collections.docs name

/-- The writes of some entries of a batch, one after the other. -/
inductive StoresAll (schema : Schema) : List WriteModel → Snapshot → Snapshot → Prop where
  | nil (kept : Snapshot) : StoresAll schema [] kept kept
  | cons {model : WriteModel} {rest : List WriteModel} {kept next after : Snapshot}
      (hfirst : StoresIn schema model.filter model.update model.upsert kept next)
      (hrest : StoresAll schema rest next after) : StoresAll schema (model :: rest) kept after

variable {schema : Schema}

lemma storesIn_commit {α : Type} (hschema : schema ∈ Schema.all) (kept : Snapshot)
    (files : FileTree) {filter : Filter} {update : Update} {upsert : Bool}
    {change : Collection → α × Collection}
    (hchange : ∀ docs, (change docs).2 =
      (Collection.updateOne schema.name filter update upsert docs).2) :
    StoresIn schema filter update upsert kept
      (kept.commit files (kept.collections.modify schema.name change)).state.1 := by
  have hname := Schema.for?_name hschema
  rw [Snapshot.state_commit]
  refine ⟨?_, fun name hne => ?_⟩
  · simp only [Collections.modify, Collections.docs_insert_self, hchange]
    exact Collection.stores_updateOne hname filter update upsert _
  · simp only [Collections.modify, Collections.docs_insert_of_ne hne]

lemma storesIn_updateOne (hschema : schema ∈ Schema.all) (kept : Snapshot) (files : FileTree)
    (filter : Filter) {update : Update} (hupdate : update.hasIncrement = false) (upsert : Bool) :
    StoresIn schema filter update upsert kept
      (kept.updateOne files schema.name filter update upsert).state.1 := by
  have hallowed := update.requireAssignments_eq_ok_iff.mpr hupdate
  simp only [Snapshot.updateOne, hallowed]
  exact storesIn_commit hschema kept files fun _ => rfl

lemma storesIn_findOneAndUpdate (hschema : schema ∈ Schema.all) (kept : Snapshot)
    (files : FileTree) (filter : Filter) (update : Update) :
    StoresIn schema filter update true kept
      (kept.findOneAndUpdate files schema.name filter update).state.1 :=
  storesIn_commit hschema kept files fun docs =>
    Collection.findOneAndUpdate_snd schema.name filter update docs

lemma storesAll_bulkWrite (hschema : schema ∈ Schema.all) (models : List WriteModel)
    (kept : Snapshot) (files : FileTree) :
    ∃ done after, done <+: models ∧ StoresAll schema done kept after ∧
      (bulkWrite schema.name models (.snapshot kept, files)).state.1 = .snapshot after := by
  induction models generalizing kept files with
  | nil => exact ⟨[], kept, List.prefix_refl _, .nil kept, rfl⟩
  | cons model rest ih =>
    have hstate : (Backend.updateOne schema.name model.filter model.update model.upsert
        (.snapshot kept, files)) =
        ofSnapshot (kept.updateOne files schema.name model.filter model.update model.upsert) := rfl
    unfold bulkWrite at ih ⊢
    rw [Outcome.batch, hstate]
    cases hincrement : model.update.hasIncrement with
    | true =>
      have hrefused : model.update.requireAssignments =
          .error (.request (.update .incrementNotAllowed)) := by
        simp [Update.requireAssignments, hincrement]
      refine ⟨[], kept, List.nil_prefix, .nil kept, ?_⟩
      simp only [Snapshot.updateOne, hrefused]
      rfl
    | false =>
      have hstores := storesIn_updateOne hschema kept files model.filter hincrement model.upsert
      generalize kept.updateOne files schema.name model.filter model.update model.upsert = first
        at hstores ⊢
      obtain ⟨answer, next, later⟩ := first
      cases answer with
      | error error =>
        refine ⟨[model], next, ⟨rest, rfl⟩, .cons hstores (.nil next), rfl⟩
      | ok result =>
        obtain ⟨done, after, hdone, hall, heq⟩ := ih next later
        refine ⟨model :: done, after, ?_, .cons hstores hall, heq⟩
        exact (List.prefix_cons_inj model).mpr hdone

/-- In every state that a snapshot reaches from a missing file, no two documents of a conventional
collection have the same string at the key path. And from whatever state, each write stores its
document, drops just the other documents whose value at the key path equals its, and leaves the rest
of the collection and all other collections as they were; a batch is a sequence of such writes. -/
theorem keys_of_reachable {config : Config} (hconfig : config.backend = .snapshot) :
    (∀ held, Reachable config held → ∃ kept, held.1 = .snapshot kept ∧
      ∀ schema ∈ Schema.all, (kept.collections.docs schema.name).Pairwise fun doc other =>
        ∀ key, doc.get? schema.key.path = some (.string key) →
          other.get? schema.key.path ≠ some (.string key)) ∧
    ∀ (kept : Snapshot) (files : FileTree), ∀ schema ∈ Schema.all,
      (∀ filter update upsert, update.hasIncrement = false →
        StoresIn schema filter update upsert kept
          (kept.updateOne files schema.name filter update upsert).state.1) ∧
      (∀ filter update, StoresIn schema filter update true kept
        (kept.findOneAndUpdate files schema.name filter update).state.1) ∧
      ∀ models, ∃ done after, done <+: models ∧ StoresAll schema done kept after ∧
        (bulkWrite schema.name models (.snapshot kept, files)).state.1 = .snapshot after := by
  refine ⟨fun held h => ?_, fun kept files schema hschema => ⟨?_, ?_, ?_⟩⟩
  · obtain ⟨kept, hkept, hsound⟩ := soundSnapshot_of_reachable hconfig h
    refine ⟨kept, hkept, fun schema hschema => ?_⟩
    have hname := Schema.for?_name hschema
    have hkeys := (hsound.collections.docs schema.name).keys schema hname
    refine (List.pairwise_filterMap.mp hkeys).imp fun hdistinct key hkey hother => ?_
    exact hdistinct key ((Schema.keyOf?_eq_some_iff schema _ key).mpr hkey) key
      ((Schema.keyOf?_eq_some_iff schema _ key).mpr hother) rfl
  · exact fun filter update upsert hupdate =>
      storesIn_updateOne hschema kept files filter hupdate upsert
  · exact storesIn_findOneAndUpdate hschema kept files
  · exact fun models => storesAll_bulkWrite hschema models kept files

/-- Documents named `a` and `b` are made, then the second one takes the name of the first. -/
theorem keys_after_collision :
    ∃ held, Reachable .default held ∧ held.1.count "plugins" = 1 ∧
      ∃ kept, held.1 = .snapshot kept ∧ ∀ schema ∈ Schema.all,
        (kept.collections.docs schema.name).Pairwise fun doc other =>
          ∀ key, doc.get? schema.key.path = some (.string key) →
            other.get? schema.key.path ≠ some (.string key) := by
  have hordered : (Request.bulkWrite
      [⟨.push .empty "package.name" (.equals (.string "a")), .empty, true⟩,
        ⟨.push .empty "package.name" (.equals (.string "b")), .empty, true⟩,
        ⟨.push .empty "package.name" (.equals (.string "b")),
          ⟨[.assign "package.name" (.string "a")]⟩, false⟩]).Ordered := by
    simp [Request.Ordered, WriteModel.Ordered, Filter.Ordered, Filter.push, Filter.empty,
      Update.Ordered, Update.empty, Condition.Ordered, UpdateOp.Ordered, Value.Ordered]
  have hreached := (reachable_restore_empty .default "/w").request "plugins" hordered
  exact ⟨_, hreached, by decide +kernel, (keys_of_reachable rfl).1 _ hreached⟩

end Backend

end DocStore
