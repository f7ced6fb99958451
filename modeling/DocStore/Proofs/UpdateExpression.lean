import DocStore.Proofs.Assignments
import DocStore.Proofs.Json.Reordering
import DocStore.Proofs.Overwriting
import DocStore.Proofs.ReadBack

/-!
# Update expressions

An update expression that is accepted has the members `$inc` and `$set` at most, each a mapping;
its operations are the increments of the one and the assignments of the other
(`Update.ops_of_ofValue?`). Since names ascend, a path comes before the paths behind it, and no
assignment is lost to another one (`Update.assignments_of_expression`).
-/

namespace DocStore

open Document (segments child setAll)

namespace Update

def assigned (fields : Document) : Document :=
  child "$set" fields

def added (fields : Document) : Document :=
  child "$inc" fields

/-- Adds every top-level field of a document. -/
def incrementOps (fields : Document) : List UpdateOp :=
  fields.map fun member => .increment member.1 member.2

variable {fields : Document} {update : Update} {ops : List UpdateOp}

lemma ofDeltas?_eq_ok (h : ofDeltas? fields = .ok ops) : ops = incrementOps fields := by
  induction fields generalizing ops with
  | nil =>
    cases h
    rfl
  | cons member rest ih =>
    obtain ⟨path, delta⟩ := member
    rw [ofDeltas?] at h
    split at h
    · cases hrest : ofDeltas? rest with
      | error fault => simp [hrest, Except.map] at h
      | ok more =>
        rw [hrest] at h
        cases h
        rw [ih hrest]
        rfl
    · cases h

lemma ofMember?_eq_ok {operator : String} {operand : Value}
    (h : ofMember? operator operand = .ok ops) :
    ∃ inner, operand = .object inner ∧
      (operator = "$set" ∧ ops = (assignDocument inner).ops ∨
        operator = "$inc" ∧ ops = incrementOps inner) := by
  cases operand with
  | object inner =>
    refine ⟨inner, rfl, ?_⟩
    simp only [ofMember?] at h
    split at h
    · rename_i hset
      cases h
      exact .inl ⟨hset, rfl⟩
    · split at h
      · rename_i hinc
        exact .inr ⟨hinc, ofDeltas?_eq_ok h⟩
      · cases h
  | _ => cases h

lemma ofMembers?_cons_eq_ok {operator : String} {operand : Value} {rest : Document}
    (h : ofMembers? ((operator, operand) :: rest) = .ok ops) :
    ∃ first more, ofMember? operator operand = .ok first ∧ ofMembers? rest = .ok more ∧
      ops = first ++ more := by
  simp only [ofMembers?, bind_eq_ok_iff] at h
  obtain ⟨first, hfirst, more, hmore, hops⟩ := h
  cases hops
  exact ⟨first, more, hfirst, hmore, rfl⟩

lemma eq_nil_of_ofMembers? (hkeys : ∀ member ∈ fields, "$set" < member.1)
    (h : ofMembers? fields = .ok ops) : fields = [] := by
  cases fields with
  | nil => rfl
  | cons member rest =>
    obtain ⟨operator, operand⟩ := member
    obtain ⟨first, more, hfirst, -, -⟩ := ofMembers?_cons_eq_ok h
    have hkey : "$set" < operator := hkeys (operator, operand) (by simp)
    obtain ⟨inner, -, ⟨rfl, -⟩ | ⟨rfl, -⟩⟩ := ofMember?_eq_ok hfirst
    · exact absurd hkey (by decide +kernel)
    · exact absurd hkey (by decide +kernel)

lemma ofMembers?_of_forall_lt (hordered : fields.Ascending)
    (hkeys : ∀ member ∈ fields, "$inc" < member.1) (h : ofMembers? fields = .ok ops) :
    ops = (assignDocument (assigned fields)).ops := by
  cases fields with
  | nil =>
    cases h
    rfl
  | cons member rest =>
    obtain ⟨operator, operand⟩ := member
    obtain ⟨first, more, hfirst, hmore, rfl⟩ := ofMembers?_cons_eq_ok h
    have hkey : "$inc" < operator := hkeys (operator, operand) (by simp)
    obtain ⟨inner, rfl, ⟨rfl, rfl⟩ | ⟨rfl, -⟩⟩ := ofMember?_eq_ok hfirst
    · have hrest := eq_nil_of_ofMembers? (List.pairwise_cons.mp hordered).1 hmore
      subst hrest
      cases hmore
      simp [assigned, child, Value.asObject?]
    · exact absurd hkey (by decide +kernel)

/-- The operations of an accepted expression: an increment for each member of `$inc`, then an
assignment for each member of `$set`, as they come. -/
theorem ops_of_ofValue? (hordered : fields.Ascending)
    (h : ofValue? (.object fields) = .ok update) :
    update.ops = incrementOps (added fields) ++ (assignDocument (assigned fields)).ops := by
  simp only [ofValue?] at h
  cases hmembers : ofMembers? fields with
  | error fault => simp [hmembers, Except.map] at h
  | ok ops =>
    rw [hmembers] at h
    cases h
    cases fields with
    | nil =>
      cases hmembers
      rfl
    | cons member rest =>
      obtain ⟨operator, operand⟩ := member
      obtain ⟨hfirstKey, hrestOrdered⟩ := List.pairwise_cons.mp hordered
      obtain ⟨first, more, hfirst, hmore, rfl⟩ := ofMembers?_cons_eq_ok hmembers
      obtain ⟨inner, rfl, ⟨rfl, rfl⟩ | ⟨rfl, rfl⟩⟩ := ofMember?_eq_ok hfirst
      · have hrest := eq_nil_of_ofMembers? hfirstKey hmore
        subst hrest
        cases hmore
        simp [added, assigned, incrementOps, child, Value.asObject?]
      · have hsets := ofMembers?_of_forall_lt hrestOrdered hfirstKey hmore
        simp [added, assigned, child, Value.asObject?, hsets]

/-- An accepted expression adds first and then assigns, in the order of the paths. -/
lemma apply_of_ofValue? (hordered : fields.Ascending)
    (h : ofValue? (.object fields) = .ok update) (doc : Document) :
    update.apply doc =
      setAll (assigned fields) ((incrementOps (added fields)).foldl UpdateOp.apply doc) := by
  have hadds : ∀ op ∈ incrementOps (added fields), op.isIncrement = true := by
    intro op hop
    obtain ⟨member, -, rfl⟩ := List.mem_map.mp hop
    rfl
  have hassigns : ∀ op ∈ (assignDocument (assigned fields)).ops, op.isIncrement = false := by
    intro op hop
    obtain ⟨member, -, rfl⟩ := List.mem_map.mp hop
    rfl
  have hphases : update.phases =
      incrementOps (added fields) ++ (assignDocument (assigned fields)).ops := by
    rw [← phases_append hadds hassigns, ← ops_of_ofValue? hordered h]
  rw [apply, hphases, List.foldl_append, assignDocument, List.foldl_map]
  rfl

/-- What an accepted expression does to a document. The path of an assignment leads to its value,
with the values that are assigned behind it set inside, in the order of their paths. An increment at an
assigned path or behind it might be left out. The order of names in the text of the expression does
not matter. -/
structure KeepsAssignments (fields : Document) (update : Update) (doc : Document) : Prop where
  overlaid : ∀ write ∈ assigned fields, (update.apply doc).get? write.1 =
    some (write.2.overlay write.1 (assigned fields))
  readBack : ∀ write ∈ assigned fields, (∀ other ∈ assigned fields,
      segments write.1 <+: segments other.1 → other.1 = write.1) →
    (update.apply doc).get? write.1 = some write.2
  hidden : ∀ before after path delta, update.ops = before ++ .increment path delta :: after →
    (∃ write ∈ assigned fields, segments write.1 <+: segments path) →
    apply ⟨before ++ after⟩ doc = update.apply doc
  reordered : ∀ text other tree reordered, Json.Tree.ofText? text = some tree →
    Json.Tree.ofText? other = some reordered → tree.Reordered reordered →
    (Json.Data.ofText? text).map Json.Data.toValue = some (.object fields) →
    (Json.Data.ofText? other).map Json.Data.toValue = some (.object fields)

lemma get?_apply_of_ofValue? (hordered : fields.Ordered)
    (haccepted : ofValue? (.object fields) = .ok update) (doc : Document) {write : String × Value}
    (hwrite : write ∈ assigned fields) :
    (update.apply doc).get? write.1 = some (write.2.overlay write.1 (assigned fields)) := by
  have hassigned : Fields.Ascending (assigned fields) :=
    ((Value.ordered_object_iff _).mp (hordered.child "$set")).1
  rw [apply_of_ofValue? ((Value.ordered_object_iff fields).mp hordered).1 haccepted]
  exact Document.get?_setAll_of_ascending hassigned hwrite _

/-- No assignment of an accepted expression is lost. -/
theorem assignments_of_expression (hordered : fields.Ordered)
    (haccepted : ofValue? (.object fields) = .ok update) (doc : Document) :
    KeepsAssignments fields update doc where
  overlaid := fun _ hwrite => get?_apply_of_ofValue? hordered haccepted doc hwrite
  readBack := by
    intro write hwrite hlast
    have hnone : (assigned fields).filter (fun other => other.1 ≠ write.1 ∧
        segments write.1 <+: segments other.1) = [] := by
      rw [List.filter_eq_nil_iff]
      intro other hother
      simpa using fun hne hbehind => hne (hlast other hother hbehind)
    rw [get?_apply_of_ofValue? hordered haccepted doc hwrite, Value.overlay, hnone]
    rfl
  hidden := by
    rintro before after path delta hops ⟨write, hwrite, hprefix⟩
    have hfields : Fields.Ascending fields := ((Value.ordered_object_iff fields).mp hordered).1
    have hupdate : update = ⟨before ++ .increment path delta :: after⟩ := by
      rw [← hops]
    have hop : UpdateOp.assign write.1 write.2 ∈ update.ops := by
      rw [ops_of_ofValue? hfields haccepted]
      exact List.mem_append_right _ (List.mem_map.mpr ⟨write, hwrite, rfl⟩)
    have hrest : UpdateOp.assign write.1 write.2 ∈ before ++ after := by
      rw [hops] at hop
      simpa using hop
    rw [hupdate]
    exact (apply_eq_of_hidden hrest hprefix doc).symm
  reordered := by
    intro text other tree reordered htext hother hreordered hvalue
    rw [Json.Data.ofText?_eq_of_reordered htext hother hreordered]
    exact hvalue

/-- A name that stands between a path and one behind it, an increment that an assignment hides, and
the text of the same expression with the operators and two of the paths in another order. -/
theorem assignments_of_nested_expression :
    let fields : Document := [("$inc", .object [("a.c", .int 1)]),
      ("$set", .object [("a", .null), ("a-b", .string "x"), ("a.b", .bool true)])]
    let update : Update := ⟨[.increment "a.c" (.int 1), .assign "a" .null,
      .assign "a-b" (.string "x"), .assign "a.b" (.bool true)]⟩
    let doc : Document := [("a", .object [("c", .int 5)])]
    let other : Value := .object
      [("$set", .object [("a-b", .string "x"), ("a", .null), ("a.b", .bool true)]),
        ("$inc", .object [("a.c", .int 1)])]
    fields.Ordered ∧ ofValue? (.object fields) = .ok update ∧
      (update.apply doc).get? "a" = some (.object [("b", .bool true)]) ∧
      (update.apply doc).get? "a-b" = some (.string "x") ∧
      apply ⟨update.ops.tail⟩ doc = update.apply doc ∧
      (Json.Data.ofText? (other.text .compact)).map Json.Data.toValue = some (.object fields) := by
  intro fields update doc other
  have hordered : fields.Ordered := by
    have hkeys : ["$inc", "$set"].Pairwise (· < ·) ∧
        ["a", "a-b", "a.b"].Pairwise (· < ·) := by decide +kernel
    simpa [fields, Document.Ordered, Value.Ordered, Value.OrderedFields, Fields.Ascending]
      using hkeys
  have haccepted : ofValue? (.object fields) = .ok update := rfl
  have hkeeps := assignments_of_expression hordered haccepted doc
  refine ⟨hordered, haccepted, ?_, ?_, ?_, ?_⟩
  · exact hkeeps.overlaid ("a", .null) (List.mem_cons_self ..)
  · refine hkeeps.readBack ("a-b", .string "x") (List.mem_cons_of_mem _ (List.mem_cons_self ..)) ?_
    have hnone : ∀ path ∈ ["a", "a-b", "a.b"],
        segments "a-b" <+: segments path → path = "a-b" := by
      decide +kernel
    simpa [assigned, fields, child, Value.asObject?] using hnone
  · exact hkeeps.hidden [] _ "a.c" (.int 1) rfl
      ⟨("a", .null), List.mem_cons_self .., by decide +kernel⟩
  · have htext := Value.ofText?_text_tree (.object fields) .compact
    have hother := Value.ofText?_text_tree other .compact
    have hvalue : (Json.Data.ofText? ((Value.object fields).text .compact)).map
        Json.Data.toValue = some (.object fields) := by
      rw [Json.Data.ofText?, htext]
      rfl
    refine hkeeps.reordered _ _ _ _ htext hother ?_ hvalue
    have hpaths : Json.Tree.Exchanged
        (Value.object [("a", .null), ("a-b", .string "x"), ("a.b", .bool true)]).tree
        (Value.object [("a-b", .string "x"), ("a", .null), ("a.b", .bool true)]).tree :=
      .here [] [_] (by decide)
    refine .trans (.single (.member [_] [] (some "$set") hpaths)) ?_
    exact Json.Tree.reordered_of_perm (.swap _ _ []) (by decide) []

end Update

end DocStore
