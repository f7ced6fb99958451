import DocStore.Proofs.Paths

/-!
# Overwritten writes

A write hides what was written before at its place or behind it (`Document.setAt_setAt_of_behind`).
Two documents agree but for a place when no write there tells them apart (`Document.AgreeBut`), and
every operation keeps such an agreement (`UpdateOp.agreeBut_apply`), whatever it does to the way
there. So an operation whose path is overwritten later may be left out
(`Update.apply_eq_of_reassigned`, `Update.apply_eq_of_hidden`), and to make the same assignments
twice is to make them once (`Update.overwritten_assignments`).
-/

namespace DocStore

namespace Value

lemma asObject?_addNumbers (base delta : Value) : (addNumbers base delta).asObject? = none := by
  obtain ⟨n, h⟩ | ⟨x, h⟩ | h := addNumbers_cases base delta
  all_goals
    rw [h]
    rfl

end Value

namespace Document

variable {keys behind front : List String} {doc other : Document}

lemma child_insert_eq (key : String) (value : Value) (doc : Document) :
    child key (Fields.insert key value doc) = value.asObject?.getD [] := by
  simp [child]

theorem setAt_setAt_of_behind (h : keys <+: behind) (hne : keys ≠ []) (second first : Value)
    (doc : Document) : setAt keys second (setAt behind first doc) = setAt keys second doc := by
  induction keys generalizing behind doc with
  | nil => exact absurd rfl hne
  | cons key rest ih =>
    obtain ⟨more, rfl⟩ := h
    rw [List.cons_append, setAt_cons, setAt_cons, setAt_cons, Fields.insert_insert_self]
    cases rest with
    | nil => rfl
    | cons next keys =>
      have hrest := ih (List.prefix_append (next :: keys) more) (List.cons_ne_nil next keys)
        (child key doc)
      rw [List.cons_append] at hrest
      simp only [List.cons_append, below, child_insert_self, hrest]

lemma setAt_setAt_of_asObject?_eq_none (h : front <+: keys) {first second : Value}
    (hfirst : first.asObject? = none) (hsecond : second.asObject? = none) (value : Value)
    (doc : Document) :
    setAt keys value (setAt front first doc) = setAt keys value (setAt front second doc) := by
  induction front generalizing keys doc with
  | nil => rfl
  | cons key rest ih =>
    obtain ⟨more, rfl⟩ := h
    simp only [List.cons_append, setAt_cons, Fields.insert_insert_self, child_insert_eq]
    cases rest with
    | nil =>
      -- Either value stands in the way and gives way to an empty mapping.
      simp only [below, hfirst, hsecond]
    | cons next front =>
      have hrest := ih (List.prefix_append (next :: front) more) (child key doc)
      rw [List.cons_append] at hrest
      simp only [List.cons_append, below, Value.asObject?, Option.getD_some, hrest]

/-- Two documents that no write at the place tells apart. -/
def AgreeBut (keys : List String) (doc other : Document) : Prop :=
  ∀ value, setAt keys value doc = setAt keys value other

lemma agreeBut_setAt (h : keys <+: behind) (hne : keys ≠ []) (value : Value) (doc : Document) :
    AgreeBut keys (setAt behind value doc) doc := by
  intro second
  exact setAt_setAt_of_behind h hne second value doc

/-- A write on the way to the place takes the difference away. -/
lemma AgreeBut.setAt_eq_of_front (h : AgreeBut keys doc other) (hfront : front <+: keys)
    (hne : front ≠ []) (value : Value) : setAt front value doc = setAt front value other := by
  calc setAt front value doc
      = setAt front value (setAt keys .null doc) :=
        (setAt_setAt_of_behind hfront hne value .null doc).symm
    _ = setAt front value (setAt keys .null other) := by rw [h]
    _ = setAt front value other := setAt_setAt_of_behind hfront hne value .null other

lemma AgreeBut.getAt?_eq_of_incomparable (h : AgreeBut keys doc other) {others : List String}
    (hapart : Incomparable keys others) : getAt? others doc = getAt? others other := by
  rw [← getAt?_setAt_of_incomparable hapart .null doc, h,
    getAt?_setAt_of_incomparable hapart .null other]

lemma AgreeBut.setAt (h : AgreeBut keys doc other) (hne : keys ≠ []) {others : List String}
    (hothers : others ≠ []) (value : Value) :
    AgreeBut keys (setAt others value doc) (setAt others value other) := by
  intro second
  -- In front of the place the write makes the documents equal, behind it is not seen, and beside
  -- it may as well come later.
  by_cases hfront : others <+: keys
  · rw [h.setAt_eq_of_front hfront hothers]
  by_cases hbehind : keys <+: others
  · rw [setAt_setAt_of_behind hbehind hne, setAt_setAt_of_behind hbehind hne, h]
  · have hapart : Incomparable keys others := ⟨hbehind, hfront⟩
    rw [setAt_comm hapart, h, setAt_comm hapart]

lemma AgreeBut.setAt_of_asObject?_eq_none (h : AgreeBut keys doc other) (hfront : front <+: keys)
    (hne : front ≠ []) {first second : Value} (hfirst : first.asObject? = none)
    (hsecond : second.asObject? = none) :
    AgreeBut keys (Document.setAt front first doc) (Document.setAt front second other) := by
  intro value
  rw [← h.setAt_eq_of_front hfront hne second]
  exact setAt_setAt_of_asObject?_eq_none hfront hfirst hsecond value doc

end Document

open Document (segments AgreeBut)

namespace UpdateOp

/-- Where an operation writes. -/
def path : UpdateOp → String
  | .assign path _ | .increment path _ => path

variable {keys : List String} {doc other : Document}

lemma agreeBut_apply_self (op : UpdateOp) (h : keys <+: segments op.path) (hne : keys ≠ [])
    (doc : Document) : AgreeBut keys (op.apply doc) doc := by
  cases op with
  | assign path value => exact Document.agreeBut_setAt h hne value doc
  | increment path delta =>
    rw [apply]
    split
    · exact Document.agreeBut_setAt h hne _ doc
    · intro value
      rfl

theorem agreeBut_apply (op : UpdateOp) (h : AgreeBut keys doc other) (hne : keys ≠ []) :
    AgreeBut keys (op.apply doc) (op.apply other) := by
  cases op with
  | assign path value => exact h.setAt hne (Document.segments_ne_nil path) value
  | increment path delta =>
    rw [apply, apply]
    split
    · by_cases hfront : segments path <+: keys
      · -- The two may find different numbers on the way, but both leave a number there, and a write
        -- at the place makes a mapping of either.
        exact h.setAt_of_asObject?_eq_none hfront (Document.segments_ne_nil path)
          (Value.asObject?_addNumbers _ _) (Value.asObject?_addNumbers _ _)
      by_cases hbehind : keys <+: segments path
      · intro value
        rw [Document.set, Document.set, Document.setAt_setAt_of_behind hbehind hne,
          Document.setAt_setAt_of_behind hbehind hne, h]
      · have hget : doc.get? path = other.get? path :=
          h.getAt?_eq_of_incomparable ⟨hbehind, hfront⟩
        rw [hget]
        exact h.setAt hne (Document.segments_ne_nil path) _
    · exact h

/-- Operations keep an agreement until an assignment at the place ends the difference. -/
theorem foldl_apply_eq_of_mem {path : String} {value : Value} {ops : List UpdateOp}
    (hm : .assign path value ∈ ops) (h : AgreeBut (segments path) doc other) :
    ops.foldl apply doc = ops.foldl apply other := by
  induction ops generalizing doc other with
  | nil => simp at hm
  | cons op rest ih =>
    rw [List.foldl_cons, List.foldl_cons]
    rcases List.mem_cons.mp hm with rfl | hm
    · have hsame : (UpdateOp.assign path value).apply doc =
          (UpdateOp.assign path value).apply other := h value
      rw [hsame]
    · exact ih hm (agreeBut_apply op h (Document.segments_ne_nil path))

lemma foldl_apply_eq_of_overwritten {path : String} {value : Value} {later : List UpdateOp}
    (hm : .assign path value ∈ later) (op : UpdateOp)
    (h : segments path <+: segments op.path) (earlier : List UpdateOp) (doc : Document) :
    (earlier ++ op :: later).foldl apply doc = (earlier ++ later).foldl apply doc := by
  rw [List.foldl_append, List.foldl_append, List.foldl_cons]
  exact foldl_apply_eq_of_mem hm
    (agreeBut_apply_self op h (Document.segments_ne_nil path) _)

end UpdateOp

namespace Update

variable {update : Update} {before after : List UpdateOp} {path later : String}
  {value second delta : Value}

/-- An assignment may be left out when a later one is made at its path or on the way there. -/
theorem apply_eq_of_reassigned (hm : .assign later second ∈ after)
    (h : segments later <+: segments path) (doc : Document) :
    apply ⟨before ++ .assign path value :: after⟩ doc = apply ⟨before ++ after⟩ doc := by
  have hlater : UpdateOp.assign later second ∈ after.filter fun op => !op.isIncrement :=
    List.mem_filter.mpr ⟨hm, rfl⟩
  simp only [apply, phases, List.filter_append, List.filter_cons, UpdateOp.isIncrement,
    Bool.false_eq_true, if_false, Bool.not_false, if_true, ← List.append_assoc]
  exact UpdateOp.foldl_apply_eq_of_overwritten hlater (.assign path value) h _ doc

/-- An increment may be left out when its path, or the way there, is assigned. -/
theorem apply_eq_of_hidden (hm : .assign later second ∈ before ++ after)
    (h : segments later <+: segments path) (doc : Document) :
    apply ⟨before ++ .increment path delta :: after⟩ doc = apply ⟨before ++ after⟩ doc := by
  -- All increments come first, so the assignment comes later wherever it stands.
  have hlater : UpdateOp.assign later second ∈
      after.filter UpdateOp.isIncrement ++ (before ++ after).filter fun op => !op.isIncrement :=
    List.mem_append_right _ (List.mem_filter.mpr ⟨hm, rfl⟩)
  simp only [List.filter_append] at hlater
  simp only [apply, phases, List.filter_append, List.filter_cons, UpdateOp.isIncrement,
    Bool.not_true, Bool.false_eq_true, if_false, if_true, List.append_assoc, List.cons_append]
  exact UpdateOp.foldl_apply_eq_of_overwritten hlater (.increment path delta) h _ doc

lemma phases_append {adds assigns : List UpdateOp} (hadds : ∀ op ∈ adds, op.isIncrement = true)
    (hassigns : ∀ op ∈ assigns, op.isIncrement = false) :
    phases ⟨adds ++ assigns⟩ = adds ++ assigns := by
  have hfirst : (adds ++ assigns).filter UpdateOp.isIncrement = adds := by
    rw [List.filter_append, List.filter_eq_self.mpr hadds,
      List.filter_eq_nil_iff.mpr (by simpa using hassigns), List.append_nil]
  have hsecond : (adds ++ assigns).filter (fun op => !op.isIncrement) = assigns := by
    rw [List.filter_append, List.filter_eq_nil_iff.mpr (by simpa using hadds),
      List.filter_eq_self.mpr (by simpa using hassigns), List.nil_append]
  rw [phases, hfirst, hsecond]

lemma foldl_apply_of_subset {first ops : List UpdateOp}
    (hassign : ∀ op ∈ first, op.isIncrement = false) (hsub : first ⊆ ops) (doc : Document) :
    (first ++ ops).foldl UpdateOp.apply doc = ops.foldl UpdateOp.apply doc := by
  induction first with
  | nil => rfl
  | cons op rest ih =>
    obtain ⟨hop, hrest⟩ := List.forall_mem_cons.mp hassign
    obtain ⟨hm, hmore⟩ := List.cons_subset.mp hsub
    rw [← ih hrest hmore]
    cases op with
    | assign path value =>
      exact UpdateOp.foldl_apply_eq_of_overwritten (List.mem_append_right rest hm)
        (.assign path value) List.prefix_rfl [] doc
    | increment path delta => simp [UpdateOp.isIncrement] at hop

lemma apply_apply (hassign : update.hasIncrement = false) (doc : Document) :
    update.apply (update.apply doc) = update.apply doc := by
  have hall : ∀ op ∈ update.ops, op.isIncrement = false := by
    simpa [hasIncrement] using hassign
  have hphases : update.phases = update.ops := by
    simpa using phases_append (List.forall_mem_nil _) hall
  rw [apply, apply, hphases, ← List.foldl_append]
  exact foldl_apply_of_subset hall (List.Subset.refl _) doc

/-- Of assignments in any order, at any paths, each may be left out that is followed by one at the
same path or at a path that leads there. So making them twice is making them once. -/
theorem overwritten_assignments (hassign : update.hasIncrement = false) (doc : Document) :
    (∀ before after path value, update.ops = before ++ .assign path value :: after →
      (∃ later second, .assign later second ∈ after ∧ segments later <+: segments path) →
      apply ⟨before ++ after⟩ doc = update.apply doc) ∧
    update.apply (update.apply doc) = update.apply doc := by
  constructor
  · intro before after path value hops hlater
    obtain ⟨later, second, hm, hprefix⟩ := hlater
    have hupdate : update = ⟨before ++ .assign path value :: after⟩ := by
      rw [← hops]
    rw [hupdate]
    exact (apply_eq_of_reassigned hm hprefix doc).symm
  · exact apply_apply hassign doc

/-- A write into a string, then a write behind it, then one that replaces both. -/
theorem overwritten_assignments_of_subtree :
    let update : Update :=
      ⟨[.assign "a.b" (.int 1), .assign "a.b.c" .null, .assign "a" (.object [("d", .null)])]⟩
    let doc : Document := [("a", .string "s")]
    update.hasIncrement = false ∧
      apply ⟨[.assign "a.b.c" .null, .assign "a" (.object [("d", .null)])]⟩ doc =
        update.apply doc ∧
      update.apply (update.apply doc) = update.apply doc := by
  intro update doc
  have hassign : update.hasIncrement = false := rfl
  obtain ⟨hleftOut, htwice⟩ := overwritten_assignments hassign doc
  refine ⟨hassign, hleftOut [] _ "a.b" (.int 1) rfl ?_, htwice⟩
  exact ⟨"a", .object [("d", .null)], by simp, by decide +kernel⟩

end Update

end DocStore
