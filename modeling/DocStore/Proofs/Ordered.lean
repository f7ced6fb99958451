import DocStore.Store.Collection
import DocStore.Value.Text
import Mathlib.Data.List.Induction
import Mathlib.Data.Option.Basic
import Mathlib.Data.String.Basic
import Mathlib.Tactic.Lemma

/-!
# Mappings with ascending keys

A mapping that is only ever changed by `Fields.insert` has its keys in ascending order. A value is
`Ordered` when this holds of every mapping inside it. What is read from a text is ordered
(`Value.ordered_of_ofText?`), and writing an ordered value at a path keeps a document ordered
(`Document.Ordered.set`).
-/

namespace DocStore

namespace Fields

variable {α : Type}

lemma mem_insert {key : String} {value : α} {fields : Fields α} {member : String × α}
    (h : member ∈ insert key value fields) : member = (key, value) ∨ member ∈ fields := by
  induction fields with
  | nil => simpa [insert] using h
  | cons first rest ih =>
    obtain ⟨name, old⟩ := first
    simp only [insert] at h
    split at h
    · simp only [List.mem_cons] at h ⊢
      tauto
    · split at h
      · simp only [List.mem_cons] at h ⊢
        tauto
      · simp only [List.mem_cons] at h ⊢
        rcases h with h | h
        · exact .inr (.inl h)
        · rcases ih h with h | h
          · exact .inl h
          · exact .inr (.inr h)

lemma mem_of_get? {key : String} {value : α} {fields : Fields α}
    (h : get? key fields = some value) : (key, value) ∈ fields := by
  induction fields with
  | nil => simp at h
  | cons first rest ih =>
    obtain ⟨name, old⟩ := first
    rw [get?_cons] at h
    split at h
    · rename_i heq
      simp_all
    · exact List.mem_cons_of_mem _ (ih h)

lemma Ascending.insert {fields : Fields α} (h : fields.Ascending) (key : String) (value : α) :
    (Fields.insert key value fields).Ascending := by
  induction fields with
  | nil => exact List.pairwise_singleton _ _
  | cons first rest ih =>
    obtain ⟨name, old⟩ := first
    obtain ⟨hfirst, hrest⟩ := List.pairwise_cons.mp h
    simp only [Fields.insert]
    split
    · rename_i heq
      subst heq
      exact List.pairwise_cons.mpr ⟨hfirst, hrest⟩
    · rename_i hne
      split
      · rename_i hlt
        refine List.pairwise_cons.mpr ⟨fun member hm => ?_, h⟩
        rcases List.mem_cons.mp hm with rfl | hm
        · exact hlt
        · exact lt_trans hlt (hfirst member hm)
      · rename_i hlt
        refine List.pairwise_cons.mpr ⟨fun member hm => ?_, ih hrest⟩
        rcases mem_insert hm with rfl | hm
        · exact lt_of_le_of_ne (not_lt.mp hlt) (Ne.symm hne)
        · exact hfirst member hm

lemma ofMembers_append (first second : List (String × α)) :
    ofMembers (first ++ second) =
      second.foldl (fun fields member => insert member.1 member.2 fields) (ofMembers first) := by
  simp [ofMembers]

lemma ofMembers_ascending (members : List (String × α)) : (ofMembers members).Ascending := by
  induction members using List.reverseRecOn with
  | nil => exact List.Pairwise.nil
  | append_singleton members member ih =>
    rw [ofMembers_append]
    exact ih.insert member.1 member.2

lemma mem_of_mem_ofMembers {members : List (String × α)} {member : String × α}
    (h : member ∈ ofMembers members) : member ∈ members := by
  induction members using List.reverseRecOn with
  | nil => exact h
  | append_singleton members last ih =>
    rw [ofMembers_append] at h
    rcases mem_insert h with h | h
    · simp [h]
    · exact List.mem_append_left _ (ih h)

lemma insert_of_forall_lt {key : String} (value : α) {fields : Fields α}
    (h : ∀ member ∈ fields, member.1 < key) :
    insert key value fields = fields ++ [(key, value)] := by
  induction fields with
  | nil => rfl
  | cons first rest ih =>
    obtain ⟨name, old⟩ := first
    have hlt : name < key := h (name, old) (by simp)
    simp only [insert, if_neg hlt.ne', if_neg (not_lt.mpr hlt.le), List.cons_append]
    rw [ih fun member hm => h member (List.mem_cons_of_mem _ hm)]

lemma ofMembers_of_ascending {fields : Fields α} (h : fields.Ascending) :
    ofMembers fields = fields := by
  induction fields using List.reverseRecOn with
  | nil => rfl
  | append_singleton fields member ih =>
    obtain ⟨hfields, -, hlt⟩ := List.pairwise_append.mp h
    rw [ofMembers_append, ih hfields]
    exact insert_of_forall_lt member.2 fun other ho => hlt other ho member (by simp)

end Fields

namespace Value

mutual

/-- Every mapping inside a value has its keys in ascending order, each once. -/
def Ordered : Value → Prop
  | .array items => OrderedItems items
  | .object fields => Fields.Ascending fields ∧ OrderedFields fields
  | _ => True

def OrderedItems : List Value → Prop
  | [] => True
  | item :: rest => Ordered item ∧ OrderedItems rest

def OrderedFields : List (String × Value) → Prop
  | [] => True
  | (_, value) :: rest => Ordered value ∧ OrderedFields rest

end

lemma orderedItems_iff (items : List Value) :
    OrderedItems items ↔ ∀ item ∈ items, item.Ordered := by
  induction items with
  | nil => simp [OrderedItems]
  | cons item rest ih => simp [OrderedItems, ih]

lemma orderedFields_iff (fields : List (String × Value)) :
    OrderedFields fields ↔ ∀ member ∈ fields, member.2.Ordered := by
  induction fields with
  | nil => simp [OrderedFields]
  | cons member rest ih => simp [OrderedFields, ih]

@[simp] lemma ordered_array_iff (items : List Value) :
    (Value.array items).Ordered ↔ ∀ item ∈ items, item.Ordered := by
  rw [Ordered, orderedItems_iff]

@[simp] lemma ordered_object_iff (fields : Document) :
    (Value.object fields).Ordered ↔
      Fields.Ascending fields ∧ ∀ member ∈ fields, member.2.Ordered := by
  rw [Ordered, orderedFields_iff]

mutual

lemma ordered_of_ofTree? {tree : Json.Tree} {value : Value} (h : ofTree? tree = some value) :
    value.Ordered := by
  cases tree with
  | null => simp only [ofTree?, Option.some.injEq] at h; subst h; trivial
  | bool b => simp only [ofTree?, Option.some.injEq] at h; subst h; trivial
  | number n =>
    simp only [ofTree?, ofNumber?] at h
    split at h
    · cases h; trivial
    · obtain ⟨x, -, rfl⟩ := Option.map_eq_some_iff.mp h
      trivial
  | string text =>
    obtain ⟨s, -, rfl⟩ := Option.map_eq_some_iff.mp h
    trivial
  | array items =>
    obtain ⟨values, hvalues, rfl⟩ := Option.map_eq_some_iff.mp h
    exact orderedItems_of_ofItems? hvalues
  | object members =>
    obtain ⟨fields, hfields, rfl⟩ := Option.map_eq_some_iff.mp h
    refine (ordered_object_iff _).mpr ⟨Fields.ofMembers_ascending _, fun member hm => ?_⟩
    exact (orderedFields_iff _).mp (orderedFields_of_ofMembers? hfields) member
      (Fields.mem_of_mem_ofMembers hm)

lemma orderedItems_of_ofItems? {trees : List Json.Tree} {values : List Value}
    (h : ofItems? trees = some values) : OrderedItems values := by
  cases trees with
  | nil => simp only [ofItems?, Option.some.injEq] at h; subst h; trivial
  | cons tree rest =>
    simp only [ofItems?] at h
    split at h
    · rename_i hvalue hvalues
      cases h
      exact ⟨ordered_of_ofTree? hvalue, orderedItems_of_ofItems? hvalues⟩
    · simp at h

lemma orderedFields_of_ofMembers? {members : List (Option String × Json.Tree)}
    {fields : List (String × Value)} (h : ofMembers? members = some fields) :
    OrderedFields fields := by
  cases members with
  | nil => simp only [ofMembers?, Option.some.injEq] at h; subst h; trivial
  | cons member rest =>
    obtain ⟨name, tree⟩ := member
    simp only [ofMembers?] at h
    split at h
    · rename_i hvalue hmembers
      cases h
      exact ⟨ordered_of_ofTree? hvalue, orderedFields_of_ofMembers? hmembers⟩
    · simp at h

end

theorem ordered_of_ofText? {s : String} {value : Value} (h : ofText? s = some value) :
    value.Ordered := by
  simp only [ofText?, bind, Option.bind_eq_some_iff] at h
  obtain ⟨tree, -, -, -, h⟩ := h
  exact ordered_of_ofTree? h

end Value

namespace Document

/-- Every mapping of a document, itself included, has ascending keys. -/
def Ordered (doc : Document) : Prop :=
  (Value.object doc).Ordered

lemma ordered_nil : Ordered [] :=
  (Value.ordered_object_iff _).mpr ⟨List.Pairwise.nil, by simp⟩

lemma Ordered.of_mem {doc : Document} (h : doc.Ordered) {member : String × Value}
    (hm : member ∈ doc) : member.2.Ordered :=
  ((Value.ordered_object_iff _).mp h).2 member hm

lemma Ordered.insert {doc : Document} (h : doc.Ordered) (key : String) {value : Value}
    (hv : value.Ordered) : Ordered (Fields.insert key value doc) := by
  refine (Value.ordered_object_iff _).mpr
    ⟨Fields.Ascending.insert ?_ key value, fun member hm => ?_⟩
  · exact ((Value.ordered_object_iff _).mp h).1
  · rcases Fields.mem_insert hm with rfl | hm
    · exact hv
    · exact h.of_mem hm

lemma Ordered.child {doc : Document} (h : doc.Ordered) (key : String) :
    Ordered (child key doc) := by
  unfold Document.child
  cases hget : Fields.get? key doc with
  | none => exact ordered_nil
  | some value =>
    cases value with
    | object inner => exact h.of_mem (Fields.mem_of_get? hget)
    | _ => exact ordered_nil

lemma Ordered.setAt {doc : Document} (h : doc.Ordered) (keys : List String) {value : Value}
    (hv : value.Ordered) : Ordered (setAt keys value doc) := by
  induction keys generalizing doc with
  | nil => exact h
  | cons key rest ih =>
    cases rest with
    | nil => exact h.insert key hv
    | cons next more => exact h.insert key (ih (h.child key))

theorem Ordered.set {doc : Document} (h : doc.Ordered) (path : String) {value : Value}
    (hv : value.Ordered) : Ordered (doc.set path value) :=
  h.setAt (segments path) hv

lemma ordered_of_ofText? {s : String} {doc : Document} (h : ofText? s = some doc) :
    doc.Ordered := by
  obtain ⟨value, hvalue, hdoc⟩ := Option.bind_eq_some_iff.mp h
  cases value with
  | object fields =>
    cases hdoc
    exact Value.ordered_of_ofText? hvalue
  | _ => simp [Value.asObject?] at hdoc

end Document

/-- The value that an operation writes is ordered. -/
def UpdateOp.Ordered : UpdateOp → Prop
  | .assign _ value => value.Ordered
  | .increment _ delta => delta.Ordered

def Update.Ordered (update : Update) : Prop :=
  ∀ op ∈ update.ops, op.Ordered

/-- All values that a condition compares with are ordered. -/
def Condition.Ordered : Condition → Prop
  | .equals value => value.Ordered
  | .present _ => True
  | .oneOf values => ∀ value ∈ values, value.Ordered

def Filter.Ordered (filter : Filter) : Prop :=
  ∀ field ∈ filter.conditions, field.condition.Ordered

def WriteModel.Ordered (model : WriteModel) : Prop :=
  model.filter.Ordered ∧ model.update.Ordered

lemma Value.ordered_addNumbers (a b : Value) : (addNumbers a b).Ordered := by
  obtain ⟨n, h⟩ | ⟨x, h⟩ | h := addNumbers_cases a b
  all_goals
    rw [h]
    trivial

lemma UpdateOp.Ordered.apply {op : UpdateOp} (h : op.Ordered) {doc : Document}
    (hd : doc.Ordered) : (op.apply doc).Ordered := by
  cases op with
  | assign path value => exact hd.set path h
  | increment path delta =>
    rw [UpdateOp.apply]
    split
    · exact hd.set path (Value.ordered_addNumbers _ _)
    · exact hd

theorem Update.Ordered.apply {update : Update} (h : update.Ordered) {doc : Document}
    (hd : doc.Ordered) : (update.apply doc).Ordered := by
  refine List.foldlRecOn update.phases _ hd fun doc hd op hop => ?_
  refine UpdateOp.Ordered.apply (h op ?_) hd
  simp only [Update.phases, List.mem_append, List.mem_filter] at hop
  tauto

lemma Filter.Ordered.seed {filter : Filter} (h : filter.Ordered) : filter.seed.Ordered := by
  have hall : ∀ equality ∈ filter.equalities, equality.2.Ordered := by
    intro equality he
    obtain ⟨field, hfield, heq⟩ := List.mem_filterMap.mp he
    have hcondition := h field hfield
    cases hc : field.condition with
    | equals value =>
      rw [hc] at hcondition heq
      cases heq
      exact hcondition
    | _ => simp [hc] at heq
  exact List.foldlRecOn _ _ Document.ordered_nil fun doc hd equality he =>
    hd.set equality.1 (hall equality he)

theorem Update.Ordered.create {update : Update} (h : update.Ordered) {filter : Filter}
    (hf : filter.Ordered) : (update.create filter).Ordered :=
  h.apply hf.seed

end DocStore
