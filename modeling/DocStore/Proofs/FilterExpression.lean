import DocStore.Filter.Expression
import DocStore.Outcome
import DocStore.Proofs.Equality

/-!
# The meaning of filter expressions

A filter expression gives an operand for each path: the operators `$exists` and `$in`, or a literal,
in which no name is reserved for operators (`IsFilterExpression`). Filters are read from these
values and from no others, and a document is accepted by what was read when it meets every operand
(`Filter.expression_grammar_and_meaning`).
-/

namespace DocStore

/-- The condition that an operator stands for, with an operand of the kind that it takes. -/
inductive Condition.IsOperator : String × Value → Condition → Prop
  | present (expected : Bool) : IsOperator ("$exists", .bool expected) (.present expected)
  | oneOf (values : List Value) : IsOperator ("$in", .array values) (.oneOf values)

namespace Value

/-- The members of an object that has a name reserved for operators. -/
def operators? : Value → Option Document
  | .object fields =>
    if fields.any fun member => isOperatorName member.1 then some fields else none
  | _ => none

/-- When there is an operator in a value, there is nothing else. -/
def IsFilterOperand (value : Value) : Prop :=
  ∀ operators, value.operators? = some operators →
    ∀ operator ∈ operators, ∃ condition, Condition.IsOperator operator condition

/-- What a path resolves to is present and equals a value. -/
def IsFoundIn (value : Value) (resolved : Option Value) : Prop :=
  ∃ found, resolved = some found ∧ found.eqv value = true

/-- What a path resolves to meets an operand: each operator in it, or else it equals the literal. -/
def IsMetBy (operand : Value) (resolved : Option Value) : Prop :=
  match operand.operators? with
  | none => operand.IsFoundIn resolved
  | some operators =>
    (∀ expected, ("$exists", .bool expected) ∈ operators → resolved.isSome = expected) ∧
      ∀ values, ("$in", .array values) ∈ operators → ∃ value ∈ values, value.IsFoundIn resolved

end Value

/-- Null, or an object with an operand for each path, none of which is an operator's name. -/
inductive IsFilterExpression : Value → Prop
  | null : IsFilterExpression .null
  | object {members : Document}
      (h : ∀ member ∈ members, isOperatorName member.1 = false ∧ member.2.IsFilterOperand) :
      IsFilterExpression (.object members)

namespace Condition

lemma holds_equals_iff (value : Value) (resolved : Option Value) :
    (equals value).holds resolved = true ↔ value.IsFoundIn resolved := by
  simp [holds, Value.IsFoundIn, Option.any_eq_true]

lemma holds_present_iff (expected : Bool) (resolved : Option Value) :
    (present expected).holds resolved = true ↔ resolved.isSome = expected := by
  simp [holds]

lemma holds_oneOf_iff (values : List Value) (resolved : Option Value) :
    (oneOf values).holds resolved = true ↔ ∃ value ∈ values, value.IsFoundIn resolved := by
  cases resolved with
  | none => simp [holds, Value.IsFoundIn]
  | some found =>
    simp only [holds, Option.any_some, List.any_eq_true, Value.IsFoundIn, Option.some.injEq,
      exists_eq_left', Value.eqv_comm found]

def AllHold (conditions : List FieldCondition) (doc : Document) : Prop :=
  ∀ field ∈ conditions, field.condition.holds (doc.get? field.path) = true

lemma allHold_append (conditions others : List FieldCondition) (doc : Document) :
    AllHold (conditions ++ others) doc ↔ AllHold conditions doc ∧ AllHold others doc :=
  List.forall_mem_append

lemma allHold_cons (path : String) (condition : Condition) (others : List FieldCondition)
    (doc : Document) :
    AllHold (⟨path, condition⟩ :: others) doc ↔
      condition.holds (doc.get? path) = true ∧ AllHold others doc :=
  List.forall_mem_cons

variable {path : String} {operators : Document} {conditions : List FieldCondition} {value : Value}

lemma ofOperator?_eq_ok_iff (path : String) {operator : String × Value} {condition : Condition} :
    ofOperator? path operator.1 operator.2 = .ok condition ↔ IsOperator operator condition := by
  constructor
  · intro h
    obtain ⟨name, operand⟩ := operator
    simp only [ofOperator?] at h
    split at h
    · rename_i hname
      subst hname
      cases operand with
      | bool expected =>
        cases h
        exact .present expected
      | _ => cases h
    · split at h
      · rename_i hname
        subst hname
        cases operand with
        | array values =>
          cases h
          exact .oneOf values
        | _ => cases h
      · cases h
  · rintro (_ | _) <;> rfl

lemma IsOperator.eq {operator : String × Value} {condition other : Condition}
    (h : IsOperator operator condition) (hother : IsOperator operator other) :
    condition = other := by
  have hread := (ofOperator?_eq_ok_iff "").mpr h
  rw [(ofOperator?_eq_ok_iff "").mpr hother] at hread
  exact (Except.ok.inj hread).symm

lemma IsOperator.isOperatorName {operator : String × Value} {condition : Condition}
    (h : IsOperator operator condition) : isOperatorName operator.1 = true := by
  cases h with
  | present expected => exact (by decide : DocStore.isOperatorName "$exists" = true)
  | oneOf values => exact (by decide : DocStore.isOperatorName "$in" = true)

lemma exists_ofOperators?_iff (path : String) (operators : Document) :
    (∃ conditions, ofOperators? path operators = .ok conditions) ↔
      ∀ operator ∈ operators, ∃ condition, IsOperator operator condition := by
  induction operators with
  | nil => simp [ofOperators?]
  | cons operator rest ih =>
    rw [List.forall_mem_cons, ← ih]
    simp only [ofOperators?, exists_bind_eq_ok_iff, ofOperator?_eq_ok_iff]

lemma allHold_of_ofOperators? (h : ofOperators? path operators = .ok conditions)
    (doc : Document) :
    AllHold conditions doc ↔ ∀ operator ∈ operators, ∀ condition, IsOperator operator condition →
      condition.holds (doc.get? path) = true := by
  induction operators generalizing conditions with
  | nil =>
    cases h
    simp [AllHold]
  | cons operator rest ih =>
    simp only [ofOperators?, bind_eq_ok_iff, ofOperator?_eq_ok_iff] at h
    obtain ⟨condition, hfirst, more, hmore, hconditions⟩ := h
    cases hconditions
    have hunique : (∀ other, IsOperator operator other → other.holds (doc.get? path) = true) ↔
        condition.holds (doc.get? path) = true :=
      ⟨fun h => h condition hfirst, fun h other hother => hfirst.eq hother ▸ h⟩
    rw [allHold_cons, List.forall_mem_cons, ih hmore, hunique]

lemma forall_isOperator_iff (operators : Document) (resolved : Option Value) :
    (∀ operator ∈ operators, ∀ condition, IsOperator operator condition →
      condition.holds resolved = true) ↔
    (∀ expected, ("$exists", .bool expected) ∈ operators → resolved.isSome = expected) ∧
      ∀ values, ("$in", .array values) ∈ operators →
        ∃ value ∈ values, value.IsFoundIn resolved := by
  simp only [← holds_present_iff, ← holds_oneOf_iff]
  constructor
  · intro h
    exact ⟨fun expected hm => h _ hm _ (.present expected),
      fun values hm => h _ hm _ (.oneOf values)⟩
  · rintro ⟨hpresent, honeOf⟩ operator hm condition hoperator
    cases hoperator with
    | present expected => exact hpresent expected hm
    | oneOf values => exact honeOf values hm

lemma ofMember?_of_operators?_eq_none (h : value.operators? = none) :
    ofMember? path value = .ok [⟨path, .equals value⟩] := by
  cases value with
  | object fields =>
    have hnone : (fields.any fun member => isOperatorName member.1) = false := by
      simpa [Value.operators?] using h
    have hall : ¬(fields ≠ [] ∧ (fields.all fun member => isOperatorName member.1) = true) := by
      rintro ⟨hne, hall⟩
      obtain ⟨member, hm⟩ := List.exists_mem_of_ne_nil fields hne
      exact List.any_eq_false.mp hnone member hm (List.all_eq_true.mp hall member hm)
    rw [ofMember?, if_neg hall, if_neg (by simp [hnone])]
  | _ => rfl

lemma ofMember?_of_operators? (h : value.operators? = some operators) :
    ofMember? path value =
      if operators.all fun member => isOperatorName member.1 then ofOperators? path operators
      else .error (.mixedNames path) := by
  cases value with
  | object fields =>
    obtain ⟨hany, rfl⟩ : (fields.any fun member => isOperatorName member.1) = true ∧
        fields = operators := by
      simpa [Value.operators?] using h
    have hne : fields ≠ [] := by
      rintro rfl
      cases hany
    simp only [ofMember?, hany, hne, ne_eq, not_false_eq_true, true_and, if_true]
  | _ => cases h

lemma exists_ofMember?_iff (path : String) (value : Value) :
    (∃ conditions, ofMember? path value = .ok conditions) ↔ value.IsFilterOperand := by
  cases hoperators : value.operators? with
  | none => simp [ofMember?_of_operators?_eq_none hoperators, Value.IsFilterOperand, hoperators]
  | some operators =>
    have hoperand : value.IsFilterOperand ↔
        ∀ operator ∈ operators, ∃ condition, IsOperator operator condition := by
      simp [Value.IsFilterOperand, hoperators]
    rw [ofMember?_of_operators? hoperators, hoperand]
    split
    · exact exists_ofOperators?_iff path operators
    · rename_i hmixed
      constructor
      · rintro ⟨conditions, h⟩
        cases h
      · intro h
        refine absurd (List.all_eq_true.mpr fun operator hm => ?_) hmixed
        obtain ⟨condition, hoperator⟩ := h operator hm
        exact hoperator.isOperatorName

lemma allHold_of_ofMember? (h : ofMember? path value = .ok conditions) (doc : Document) :
    AllHold conditions doc ↔ value.IsMetBy (doc.get? path) := by
  unfold Value.IsMetBy
  cases hoperators : value.operators? with
  | none =>
    rw [ofMember?_of_operators?_eq_none hoperators] at h
    cases h
    simp [AllHold, holds_equals_iff]
  | some operators =>
    rw [ofMember?_of_operators? hoperators] at h
    split at h
    · rw [allHold_of_ofOperators? h, forall_isOperator_iff]
    · cases h

end Condition

namespace Filter

open Condition (AllHold)

lemma exists_ofMembers?_iff (members : Document) :
    (∃ conditions, ofMembers? members = .ok conditions) ↔
      ∀ member ∈ members, isOperatorName member.1 = false ∧ member.2.IsFilterOperand := by
  induction members with
  | nil => simp [ofMembers?]
  | cons member rest ih =>
    obtain ⟨path, value⟩ := member
    rw [List.forall_mem_cons, ← ih, ← Condition.exists_ofMember?_iff path]
    cases hname : isOperatorName path with
    | true => simp [ofMembers?, hname]
    | false =>
      simp only [ofMembers?, hname, Bool.false_eq_true, if_false, exists_bind_eq_ok_iff, true_and]

lemma allHold_of_ofMembers? {members : Document} {conditions : List FieldCondition}
    (h : ofMembers? members = .ok conditions) (doc : Document) :
    AllHold conditions doc ↔ ∀ member ∈ members, member.2.IsMetBy (doc.get? member.1) := by
  induction members generalizing conditions with
  | nil =>
    cases h
    simp [AllHold]
  | cons member rest ih =>
    obtain ⟨path, value⟩ := member
    rw [ofMembers?] at h
    split at h
    · cases h
    · simp only [bind_eq_ok_iff] at h
      obtain ⟨first, hfirst, more, hmore, hconditions⟩ := h
      cases hconditions
      rw [Condition.allHold_append, List.forall_mem_cons, ih hmore,
        Condition.allHold_of_ofMember? hfirst]

lemma accepts_iff_allHold (filter : Filter) (doc : Document) :
    filter.accepts doc = true ↔ AllHold filter.conditions doc :=
  List.all_eq_true

lemma ofValue?_object_eq_ok_iff {members : Document} {filter : Filter} :
    ofValue? (.object members) = .ok filter ↔ ofMembers? members = .ok filter.conditions := by
  cases filter
  cases h : ofMembers? members <;> simp [ofValue?, h, Except.map]

lemma exists_ofValue?_iff (value : Value) :
    (∃ filter, ofValue? value = .ok filter) ↔ IsFilterExpression value := by
  cases value with
  | null => exact ⟨fun _ => .null, fun _ => ⟨empty, rfl⟩⟩
  | object members =>
    constructor
    · rintro ⟨filter, h⟩
      exact .object ((exists_ofMembers?_iff members).mp ⟨_, ofValue?_object_eq_ok_iff.mp h⟩)
    · rintro (_ | hmembers)
      obtain ⟨conditions, h⟩ := (exists_ofMembers?_iff members).mpr hmembers
      exact ⟨⟨conditions⟩, ofValue?_object_eq_ok_iff.mpr h⟩
  | _ =>
    constructor
    · rintro ⟨filter, h⟩
      cases h
    · intro h
      cases h

lemma accepts_iff_of_ofValue? {value : Value} {filter : Filter} (h : ofValue? value = .ok filter)
    (doc : Document) :
    filter.accepts doc = true ↔
      ∀ member ∈ Document.ofValue value, member.2.IsMetBy (doc.get? member.1) := by
  rw [accepts_iff_allHold]
  cases value with
  | null =>
    cases h
    simp [AllHold, empty, Document.ofValue, Value.asObject?]
  | object members => exact allHold_of_ofMembers? (ofValue?_object_eq_ok_iff.mp h) doc
  | _ => cases h

/-- Filters are read from filter expressions and from nothing else. What is read from one accepts
the documents that meet its operands. -/
theorem expression_grammar_and_meaning (value : Value) :
    ((∃ filter, ofValue? value = .ok filter) ↔ IsFilterExpression value) ∧
    ((∃ fault, ofValue? value = .error fault) ↔ ¬IsFilterExpression value) ∧
    ∀ filter, ofValue? value = .ok filter → ∀ doc, filter.accepts doc = true ↔
      ∀ member ∈ Document.ofValue value, member.2.IsMetBy (doc.get? member.1) := by
  refine ⟨exists_ofValue?_iff value, ?_, fun filter h => accepts_iff_of_ofValue? h⟩
  rw [← exists_ofValue?_iff value]
  cases ofValue? value <;> simp

/-- An object without names is a literal, and so is one with an operator further inside. -/
example : ofValue? (.object [("a", .object []), ("b", .object [("c", .object [("$in", .null)])])]) =
    .ok ⟨[⟨"a", .equals (.object [])⟩,
      ⟨"b", .equals (.object [("c", .object [("$in", .null)])])⟩]⟩ := rfl

end Filter

end DocStore
