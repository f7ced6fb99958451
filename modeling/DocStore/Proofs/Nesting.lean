import DocStore.Proofs.Ordered

/-!
# How deep updates nest

Writing a value at a path makes no document deeper than it was, or than the path and the value
together (`Document.nesting_setAt_le`). So a request whose paths and values stay within a bound
keeps documents within it (`Update.Within.nesting_apply_le`, `Update.Within.nesting_create_le`).
-/

namespace DocStore

namespace Value

lemma nestingItems_le_iff {items : List Value} {n : Nat} :
    nestingItems items ≤ n ↔ ∀ item ∈ items, item.nesting ≤ n := by
  induction items with
  | nil => simp [nestingItems]
  | cons item rest ih => simp [nestingItems, ih]

lemma nestingFields_le_iff {fields : List (String × Value)} {n : Nat} :
    nestingFields fields ≤ n ↔ ∀ member ∈ fields, member.2.nesting ≤ n := by
  induction fields with
  | nil => simp [nestingFields]
  | cons member rest ih => simp [nestingFields, ih]

@[simp] lemma nesting_addNumbers (a b : Value) : (addNumbers a b).nesting = 0 := by
  obtain ⟨n, h⟩ | ⟨x, h⟩ | h := addNumbers_cases a b
  all_goals
    rw [h]
    rfl

mutual

lemma nesting_le_of_ofTree? {tree : Json.Tree} {value : Value} (h : ofTree? tree = some value) :
    value.nesting ≤ tree.nesting := by
  cases tree with
  | null | bool =>
    cases h
    exact Nat.zero_le _
  | number n =>
    rw [ofTree?, ofNumber?] at h
    split at h
    · cases h
      exact Nat.zero_le _
    · obtain ⟨x, -, rfl⟩ := Option.map_eq_some_iff.mp h
      exact Nat.zero_le _
  | string text =>
    obtain ⟨s, -, rfl⟩ := Option.map_eq_some_iff.mp h
    exact Nat.zero_le _
  | array items =>
    obtain ⟨values, hvalues, rfl⟩ := Option.map_eq_some_iff.mp h
    exact Nat.succ_le_succ (nestingItems_le_iff.mpr (nesting_le_of_ofItems? hvalues))
  | object members =>
    obtain ⟨fields, hfields, rfl⟩ := Option.map_eq_some_iff.mp h
    refine Nat.succ_le_succ (nestingFields_le_iff.mpr fun member hm => ?_)
    exact nesting_le_of_ofMembers? hfields member (Fields.mem_of_mem_ofMembers hm)

lemma nesting_le_of_ofItems? {trees : List Json.Tree} {values : List Value}
    (h : ofItems? trees = some values) :
    ∀ value ∈ values, value.nesting ≤ Json.Tree.nestingItems trees := by
  cases trees with
  | nil =>
    cases h
    simp
  | cons tree rest =>
    simp only [ofItems?] at h
    split at h
    · rename_i hvalue hvalues
      cases h
      refine List.forall_mem_cons.mpr ⟨?_, fun other ho => ?_⟩
      · exact le_max_of_le_left (nesting_le_of_ofTree? hvalue)
      · exact le_max_of_le_right (nesting_le_of_ofItems? hvalues other ho)
    · cases h

lemma nesting_le_of_ofMembers? {members : List (Option String × Json.Tree)}
    {fields : List (String × Value)} (h : ofMembers? members = some fields) :
    ∀ field ∈ fields, field.2.nesting ≤ Json.Tree.nestingMembers members := by
  cases members with
  | nil =>
    cases h
    simp
  | cons member rest =>
    obtain ⟨name, tree⟩ := member
    simp only [ofMembers?] at h
    split at h
    · rename_i hvalue hmembers
      cases h
      refine List.forall_mem_cons.mpr ⟨?_, fun other ho => ?_⟩
      · exact le_max_of_le_left (nesting_le_of_ofTree? hvalue)
      · exact le_max_of_le_right (nesting_le_of_ofMembers? hmembers other ho)
    · cases h

end

/-- What a text denotes is within the limit of the reader. -/
theorem nesting_le_of_ofText? {s : String} {value : Value} (h : ofText? s = some value) :
    value.nesting ≤ nestingLimit := by
  simp only [ofText?, bind, Option.bind_eq_some_iff] at h
  obtain ⟨tree, -, _, hlimit, h⟩ := h
  have htree : tree.nesting ≤ nestingLimit := by
    by_contra hdeep
    simp [guard, hdeep] at hlimit
  exact (nesting_le_of_ofTree? h).trans htree

end Value

namespace Document

lemma nesting_le_of_ofText? {s : String} {doc : Document} (h : ofText? s = some doc) :
    doc.nesting ≤ Value.nestingLimit := by
  obtain ⟨value, hvalue, hdoc⟩ := Option.bind_eq_some_iff.mp h
  cases value with
  | object fields =>
    cases hdoc
    exact Value.nesting_le_of_ofText? hvalue
  | _ => cases hdoc

lemma nesting_le_succ_iff {doc : Document} {n : Nat} :
    doc.nesting ≤ n + 1 ↔ ∀ member ∈ doc, member.2.nesting ≤ n := by
  rw [nesting, Value.nesting, Nat.add_le_add_iff_right, Value.nestingFields_le_iff]

lemma nesting_pos (doc : Document) : 0 < doc.nesting :=
  Nat.succ_pos _

lemma nesting_insert_le (key : String) (value : Value) (doc : Document) :
    nesting (Fields.insert key value doc) ≤ max doc.nesting (value.nesting + 1) := by
  have hdoc := nesting_pos doc
  obtain ⟨n, hn⟩ : ∃ n, max doc.nesting (value.nesting + 1) = n + 1 :=
    Nat.exists_eq_succ_of_ne_zero (by omega)
  rw [hn, nesting_le_succ_iff]
  intro member hm
  rcases Fields.mem_insert hm with rfl | hm
  · change value.nesting ≤ n
    omega
  · exact nesting_le_succ_iff.mp (by omega) member hm

lemma nesting_child_le (key : String) (doc : Document) :
    (child key doc).nesting ≤ max 1 (doc.nesting - 1) := by
  have hempty : nesting [] = 1 := rfl
  unfold child
  cases hget : Fields.get? key doc with
  | none => simp [hempty]
  | some value =>
    cases value with
    | object inner =>
      have hpos := nesting_pos doc
      have hle : (Value.object inner).nesting ≤ doc.nesting - 1 :=
        nesting_le_succ_iff.mp (by omega) _ (Fields.mem_of_get? hget)
      exact le_max_of_le_right hle
    | _ => simp [Value.asObject?, hempty]

theorem nesting_setAt_le (keys : List String) (value : Value) (doc : Document) :
    (setAt keys value doc).nesting ≤ max doc.nesting (keys.length + value.nesting) := by
  induction keys generalizing doc with
  | nil => exact le_max_left _ _
  | cons key rest ih =>
    cases rest with
    | nil =>
      have hinsert := nesting_insert_le key value doc
      rw [setAt, List.length_singleton]
      omega
    | cons next more =>
      have hinner := ih (child key doc)
      have hchild := nesting_child_le key doc
      have hinsert :=
        nesting_insert_le key (.object (setAt (next :: more) value (child key doc))) doc
      -- The value that is inserted is the mapping that the rest of the path was written into.
      have hvalue : (Value.object (setAt (next :: more) value (child key doc))).nesting =
          (setAt (next :: more) value (child key doc)).nesting := rfl
      rw [setAt, List.length_cons]
      rw [List.length_cons] at hinner ⊢
      omega

lemma nesting_set_le (doc : Document) (path : String) (value : Value) :
    (doc.set path value).nesting ≤
      max doc.nesting ((segments path).length + value.nesting) :=
  nesting_setAt_le (segments path) value doc

end Document

/-- The path of an operation and the value that it writes there nest no deeper than a bound. -/
def UpdateOp.Within (bound : Nat) : UpdateOp → Prop
  | .assign path value => (Document.segments path).length + value.nesting ≤ bound
  | .increment path _ => (Document.segments path).length ≤ bound

def Update.Within (bound : Nat) (update : Update) : Prop :=
  ∀ op ∈ update.ops, op.Within bound

/-- The paths and values of the equalities of a filter nest no deeper than a bound. -/
def Filter.Within (bound : Nat) (filter : Filter) : Prop :=
  ∀ equality ∈ filter.equalities,
    (Document.segments equality.1).length + equality.2.nesting ≤ bound

variable {bound : Nat}

instance : DecidablePred (UpdateOp.Within bound)
  | .assign .. | .increment .. => inferInstanceAs (Decidable (_ ≤ _))

instance : DecidablePred (Update.Within bound) :=
  fun update => inferInstanceAs (Decidable (∀ op ∈ update.ops, op.Within bound))

instance : DecidablePred (Filter.Within bound) :=
  fun filter => inferInstanceAs (Decidable (∀ equality ∈ filter.equalities, _ ≤ bound))

lemma UpdateOp.Within.nesting_apply_le {op : UpdateOp} (h : op.Within bound) {doc : Document}
    (hdoc : doc.nesting ≤ bound) : (op.apply doc).nesting ≤ bound := by
  cases op with
  | assign path value =>
    exact (Document.nesting_set_le doc path value).trans (max_le hdoc h)
  | increment path delta =>
    rw [UpdateOp.apply]
    split
    · refine (Document.nesting_set_le doc path _).trans (max_le hdoc ?_)
      rw [Value.nesting_addNumbers]
      exact h
    · exact hdoc

theorem Update.Within.nesting_apply_le {update : Update} (h : update.Within bound)
    {doc : Document} (hdoc : doc.nesting ≤ bound) : (update.apply doc).nesting ≤ bound := by
  refine List.foldlRecOn (motive := fun doc : Document => doc.nesting ≤ bound) update.phases _ hdoc
    fun doc hdoc op hop => ?_
  refine UpdateOp.Within.nesting_apply_le (h op ?_) hdoc
  simp only [Update.phases, List.mem_append, List.mem_filter] at hop
  tauto

lemma Filter.Within.nesting_seed_le {filter : Filter} (h : filter.Within bound)
    (hbound : 1 ≤ bound) : filter.seed.nesting ≤ bound :=
  List.foldlRecOn (motive := fun doc : Document => doc.nesting ≤ bound) _ _ hbound
    fun doc hdoc equality he =>
      (Document.nesting_set_le doc equality.1 equality.2).trans (max_le hdoc (h equality he))

theorem Update.Within.nesting_create_le {update : Update} (h : update.Within bound)
    {filter : Filter} (hfilter : filter.Within bound) (hbound : 1 ≤ bound) :
    (update.create filter).nesting ≤ bound :=
  h.nesting_apply_le (hfilter.nesting_seed_le hbound)

/-- A write nests a document no deeper than it was, or than the path and the value together. So a
request whose paths and values stay within a bound makes a document within it, and keeps every
document that is within it there. -/
theorem Document.nesting_of_writes :
    (∀ (doc : Document) (path : String) (value : Value),
      (doc.set path value).nesting ≤
        max doc.nesting ((segments path).length + value.nesting)) ∧
    ∀ (filter : Filter) (update : Update) (bound : Nat), 1 ≤ bound → filter.Within bound →
      update.Within bound →
        (update.create filter).nesting ≤ bound ∧
        ∀ doc : Document, doc.nesting ≤ bound → (update.apply doc).nesting ≤ bound :=
  ⟨nesting_set_le, fun _ _ _ hbound hfilter hupdate =>
    ⟨hupdate.nesting_create_le hfilter hbound, fun _ hdoc => hupdate.nesting_apply_le hdoc⟩⟩

/-- The bound is met: two segments with a mapping behind them make three levels. -/
theorem Document.nesting_of_writes_at_bound :
    let filter : Filter := ⟨[⟨"a.b", .equals (.object [])⟩, ⟨"c", .present true⟩]⟩
    let update : Update := ⟨[.assign "a.c" (.array [.null]), .increment "a.b.n" (.int 1)]⟩
    let doc : Document := [("a", .array [.array []])]
    1 ≤ 3 ∧ filter.Within 3 ∧ update.Within 3 ∧ doc.nesting ≤ 3 ∧
      (update.create filter).nesting ≤ 3 ∧ (update.apply doc).nesting ≤ 3 := by
  intro filter update doc
  have hfilter : filter.Within 3 := by decide
  have hupdate : update.Within 3 := by decide
  have hdoc : doc.nesting ≤ 3 := by decide
  have hbound := Document.nesting_of_writes.2 filter update 3 (by decide) hfilter hupdate
  exact ⟨by decide, hfilter, hupdate, hdoc, hbound.1, hbound.2 doc hdoc⟩

/-- No smaller bound holds of this write. -/
example : (Document.set [] "a.b" (.object [])).nesting = 3 := by decide

end DocStore
