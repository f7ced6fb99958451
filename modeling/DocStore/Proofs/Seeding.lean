import DocStore.Proofs.Assignments
import DocStore.Proofs.Equality
import DocStore.Proofs.Keys
import DocStore.Proofs.Overwriting

/-!
# Documents made for a filter

A filter `Describes` a document when it asks for values at unrelated paths only. The document that
is made for it has these values, and what an update does at other paths leaves them alone, so it is
a match (`Filter.Describes.accepts_create`). A string that stands anywhere in it stands there still
after the same update once more (`Update.Avoids.get?_apply_create`).
-/

namespace DocStore

open Document (segments Incomparable)

/-- A filter that asks for values without NaN at unrelated paths, and for nothing else. -/
structure Filter.Describes (filter : Filter) : Prop where
  equals : ∀ field ∈ filter.conditions, ∃ value, field.condition = .equals value ∧
    ∀ x ∈ value.floats, x.isNaN = false
  apart : filter.conditions.Pairwise fun a b => Incomparable (segments a.path) (segments b.path)

/-- An update that writes only at paths unrelated to those of a filter. -/
def Update.Avoids (update : Update) (filter : Filter) : Prop :=
  ∀ op ∈ update.ops, ∀ field ∈ filter.conditions,
    Incomparable (segments op.path) (segments field.path)

namespace Document

lemma Incomparable.of_front {keys front behind : List String} (h : Incomparable keys front)
    (hfront : front <+: behind) : Incomparable keys behind := by
  constructor
  · intro hkeys
    rcases List.prefix_or_prefix_of_prefix hkeys hfront with hprefix | hprefix
    · exact h.1 hprefix
    · exact h.2 hprefix
  · exact fun hbehind => h.2 (hfront.trans hbehind)

/-- What is no mapping and stands in a document made by writes was written at its place or on the
way there. -/
lemma exists_front_of_get?_setAll {writes : List (String × Value)} {path : String} {value : Value}
    (hget : (setAll writes []).get? path = some value) (hvalue : value.asObject? = none) :
    ∃ write ∈ writes, segments write.1 <+: segments path := by
  induction writes using List.reverseRecOn with
  | nil => simp [setAll, get?, getAt?_nil] at hget
  | append_singleton writes write ih =>
    rw [setAll_append] at hget
    change ((setAll writes []).set write.1 write.2).get? path = some value at hget
    rw [get?_set] at hget
    split at hget
    · rename_i hfront
      exact ⟨write, by simp, hfront⟩
    · split at hget
      · cases hget
        cases hvalue
      · obtain ⟨earlier, hearlier, hfront⟩ := ih hget
        exact ⟨earlier, List.mem_append_left _ hearlier, hfront⟩

end Document

namespace Filter

variable {filter : Filter}

lemma seed_eq_setAll (filter : Filter) : filter.seed = Document.setAll filter.equalities [] :=
  rfl

lemma mem_equalities_iff {path : String} {value : Value} :
    (path, value) ∈ filter.equalities ↔ ⟨path, .equals value⟩ ∈ filter.conditions := by
  rw [equalities, List.mem_filterMap]
  constructor
  · rintro ⟨⟨other, condition⟩, hfield, heq⟩
    cases condition with
    | equals found =>
      cases heq
      exact hfield
    | _ => simp at heq
  · intro hfield
    exact ⟨_, hfield, rfl⟩

lemma Describes.equalities (h : filter.Describes) : filter.equalities.Pairwise fun a b =>
    Incomparable (segments a.1) (segments b.1) := by
  refine List.pairwise_filterMap.mpr (h.apart.imp ?_)
  rintro ⟨path, condition⟩ ⟨other, second⟩ hapart ⟨_, _⟩ hfirst ⟨_, _⟩ hsecond
  cases condition <;> cases second <;> simp_all

lemma Describes.get?_seed (h : filter.Describes) {path : String} {value : Value}
    (hfield : ⟨path, .equals value⟩ ∈ filter.conditions) : filter.seed.get? path = some value := by
  obtain ⟨before, after, hequalities⟩ := List.append_of_mem (mem_equalities_iff.mpr hfield)
  have hapart := h.equalities
  rw [hequalities] at hapart
  obtain ⟨-, hlast, -⟩ := List.pairwise_append.mp hapart
  have hafter : ∀ next ∈ after, Incomparable (segments next.1) (segments path) :=
    fun next hnext => ((List.pairwise_cons.mp hlast).1 next hnext).symm
  rw [seed_eq_setAll, hequalities, Document.setAll_append, Document.setAll_cons,
    Document.get?_setAll_of_incomparable hafter, Document.get?_set_self]

end Filter

namespace UpdateOp

lemma get?_apply_of_incomparable {op : UpdateOp} {path : String}
    (h : Incomparable (segments op.path) (segments path)) (doc : Document) :
    (op.apply doc).get? path = doc.get? path := by
  cases op with
  | assign => exact Document.get?_set_of_incomparable h _ doc
  | increment =>
    rw [apply]
    split
    · exact Document.get?_set_of_incomparable h _ doc
    · rfl

lemma get?_foldl_apply_of_incomparable {ops : List UpdateOp} {path : String}
    (h : ∀ op ∈ ops, Incomparable (segments op.path) (segments path)) (doc : Document) :
    (ops.foldl apply doc).get? path = doc.get? path := by
  induction ops generalizing doc with
  | nil => rfl
  | cons op rest ih =>
    obtain ⟨hop, hrest⟩ := List.forall_mem_cons.mp h
    rw [List.foldl_cons, ih hrest, get?_apply_of_incomparable hop]

/-- A string that a path leads to in the first document, the path leads to in the second one. -/
def KeepsString (path : String) (doc other : Document) : Prop :=
  ∀ s, doc.get? path = some (.string s) → other.get? path = some (.string s)

variable {path : String} {doc other : Document}

/-- Writes at one place keep the strings at another, unless they put different strings there. -/
lemma KeepsString.set (h : KeepsString path doc other) (place : String) {value second : Value}
    (hvalues : ∀ rest s, value.resolve rest = some (.string s) →
      second.resolve rest = some (.string s)) :
    KeepsString path (doc.set place value) (other.set place second) := by
  intro s hget
  rw [Document.get?_set] at hget ⊢
  split
  · rename_i hfront
    rw [if_pos hfront] at hget
    exact hvalues _ s hget
  · rename_i hfront
    rw [if_neg hfront] at hget
    split
    · rename_i hbehind
      rw [if_pos hbehind] at hget
      cases hget
    · rename_i hbehind
      rw [if_neg hbehind] at hget
      exact h s hget

lemma resolve_addNumbers_ne_string (base delta : Value) (rest : List String) (s : String) :
    (Value.addNumbers base delta).resolve rest ≠ some (.string s) := by
  obtain ⟨n, h⟩ | ⟨x, h⟩ | h := Value.addNumbers_cases base delta
  all_goals
    rw [h]
    cases rest <;> simp [Value.resolve]

lemma KeepsString.apply (h : KeepsString path doc other) (op : UpdateOp) :
    KeepsString path (op.apply doc) (op.apply other) := by
  cases op with
  | assign place value => exact h.set place fun _ _ hvalue => hvalue
  | increment place delta =>
    rw [UpdateOp.apply, UpdateOp.apply]
    split
    · exact h.set place fun rest s hstring =>
        absurd hstring (resolve_addNumbers_ne_string _ _ rest s)
    · exact h

lemma KeepsString.foldl (h : KeepsString path doc other) (ops : List UpdateOp) :
    KeepsString path (ops.foldl UpdateOp.apply doc) (ops.foldl UpdateOp.apply other) := by
  induction ops generalizing doc other with
  | nil => exact h
  | cons op rest ih => exact ih (h.apply op)

end UpdateOp

namespace Update

variable {update : Update} {filter : Filter}

lemma mem_phases_iff {op : UpdateOp} : op ∈ update.phases ↔ op ∈ update.ops := by
  simp only [phases, List.mem_append, List.mem_filter]
  cases op.isIncrement <;> simp

lemma get?_apply_of_incomparable {path : String}
    (h : ∀ op ∈ update.ops, Incomparable (segments op.path) (segments path)) (doc : Document) :
    (update.apply doc).get? path = doc.get? path :=
  UpdateOp.get?_foldl_apply_of_incomparable (fun op hop => h op (mem_phases_iff.mp hop)) doc

/-- An update that avoids the filter leaves the strings of the document made for it alone. -/
lemma Avoids.keepsString_seed (h : update.Avoids filter) (path : String) :
    UpdateOp.KeepsString path filter.seed (update.create filter) := by
  intro s hget
  rw [Filter.seed_eq_setAll] at hget
  obtain ⟨⟨front, value⟩, hwrite, hfront⟩ := Document.exists_front_of_get?_setAll hget rfl
  have hfield := Filter.mem_equalities_iff.mp hwrite
  rw [create, get?_apply_of_incomparable fun op hop => (h op hop _ hfield).of_front hfront]
  exact hget

theorem Avoids.get?_apply_create (h : update.Avoids filter) {path s : String}
    (hget : (update.create filter).get? path = some (.string s)) :
    (update.apply (update.create filter)).get? path = some (.string s) :=
  (h.keepsString_seed path).foldl update.phases s hget

end Update

namespace Filter

variable {update : Update} {filter : Filter}

/-- An update that avoids the filter leaves the values that the filter asks for. -/
theorem Describes.get?_create (h : filter.Describes) (hupdate : update.Avoids filter)
    {path : String} {value : Value} (hfield : ⟨path, .equals value⟩ ∈ filter.conditions) :
    (update.create filter).get? path = some value := by
  rw [Update.create, Update.get?_apply_of_incomparable fun op hop => hupdate op hop _ hfield]
  exact h.get?_seed hfield

/-- The document that is made for a filter is a match. -/
theorem Describes.accepts_create (h : filter.Describes) (hupdate : update.Avoids filter) :
    filter.accepts (update.create filter) = true := by
  refine List.all_eq_true.mpr fun field hfield => ?_
  obtain ⟨value, hvalue, hnumbers⟩ := h.equals field hfield
  have hasks : ⟨field.path, .equals value⟩ ∈ filter.conditions := by
    rw [← hvalue]
    exact hfield
  have hget := h.get?_create hupdate hasks
  rw [hvalue, Condition.holds, hget, Option.any_some]
  exact (Value.eqv_self_iff value).mpr hnumbers

end Filter

end DocStore
