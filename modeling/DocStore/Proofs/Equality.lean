import DocStore.Proofs.ReadBack

/-!
# Equality of values

Equality of values does not depend on which of the two comes first (`Value.eqv_comm`), since the
numeric equality of doubles does not. NaN alone keeps a value from being equal to itself
(`Value.eqv_self_iff`), and without doubles equal values are the same (`Value.eq_of_eqv`).
-/

namespace DocStore.Value

mutual

theorem eqv_comm (a b : Value) : a.eqv b = b.eqv a := by
  cases a with
  | null => cases b <;> rfl
  | bool x =>
    cases b with
    | bool y => exact BEq.comm
    | _ => rfl
  | int n =>
    cases b with
    | int m => exact BEq.comm
    | float y => exact Binary64.numEq_comm _ _
    | _ => rfl
  | float x =>
    cases b with
    | int m => exact Binary64.numEq_comm _ _
    | float y => exact Binary64.numEq_comm x y
    | _ => rfl
  | string s =>
    cases b with
    | string t => exact BEq.comm
    | _ => rfl
  | array items =>
    cases b with
    | array others => exact eqvItems_comm items others
    | _ => rfl
  | object fields =>
    cases b with
    | object others => exact eqvFields_comm fields others
    | _ => rfl

lemma eqvItems_comm (items others : List Value) :
    eqvItems items others = eqvItems others items := by
  cases items with
  | nil => cases others <;> rfl
  | cons item rest =>
    cases others with
    | nil => rfl
    | cons other more => rw [eqvItems, eqvItems, eqv_comm item other, eqvItems_comm rest more]

lemma eqvFields_comm (fields others : List (String × Value)) :
    eqvFields fields others = eqvFields others fields := by
  cases fields with
  | nil => cases others <;> rfl
  | cons member rest =>
    cases others with
    | nil => rfl
    | cons other more =>
      obtain ⟨name, value⟩ := member
      obtain ⟨otherName, otherValue⟩ := other
      rw [eqvFields, eqvFields, BEq.comm, eqv_comm value otherValue, eqvFields_comm rest more]

end

mutual

theorem eqv_self_iff (value : Value) :
    value.eqv value = true ↔ ∀ x ∈ value.floats, x.isNaN = false := by
  match value with
  | .null | .bool _ | .int _ | .string _ => simp [eqv, floats]
  | .float x => simp [eqv, floats, Binary64.numEq_self_iff]
  | .array items => simp [eqv, floats, eqvItems_self_iff items]
  | .object fields => simp [eqv, floats, eqvFields_self_iff fields]

lemma eqvItems_self_iff (items : List Value) :
    eqvItems items items = true ↔ ∀ x ∈ floatsOfItems items, x.isNaN = false := by
  match items with
  | [] => simp [eqvItems, floatsOfItems]
  | item :: rest =>
    simp [eqvItems, floatsOfItems, eqv_self_iff item, eqvItems_self_iff rest, or_imp,
      forall_and]

lemma eqvFields_self_iff (fields : List (String × Value)) :
    eqvFields fields fields = true ↔ ∀ x ∈ floatsOfFields fields, x.isNaN = false := by
  match fields with
  | [] => simp [eqvFields, floatsOfFields]
  | (name, inner) :: rest =>
    simp [eqvFields, floatsOfFields, eqv_self_iff inner, eqvFields_self_iff rest, or_imp,
      forall_and]

end

mutual

lemma eq_of_eqv {a b : Value} (ha : a.floats = []) (hb : b.floats = []) (h : a.eqv b = true) :
    a = b := by
  cases a with
  | float => cases ha
  | array items =>
    cases b with
    | array others => rw [eq_of_eqvItems ha hb h]
    | _ => cases h
  | object fields =>
    cases b with
    | object others => rw [eq_of_eqvFields ha hb h]
    | _ => cases h
  | _ =>
    cases b with
    | float => cases hb
    | _ => simp_all [eqv]

lemma eq_of_eqvItems {items others : List Value} (hi : floatsOfItems items = [])
    (ho : floatsOfItems others = []) (h : eqvItems items others = true) : items = others := by
  cases items with
  | nil => cases others <;> trivial
  | cons item rest =>
    cases others with
    | nil => cases h
    | cons other more =>
      obtain ⟨hitem, hrest⟩ := List.append_eq_nil_iff.mp hi
      obtain ⟨hother, hmore⟩ := List.append_eq_nil_iff.mp ho
      obtain ⟨hfirst, hothers⟩ := Bool.and_eq_true_iff.mp h
      rw [eq_of_eqv hitem hother hfirst, eq_of_eqvItems hrest hmore hothers]

lemma eq_of_eqvFields {fields others : List (String × Value)} (hf : floatsOfFields fields = [])
    (ho : floatsOfFields others = []) (h : eqvFields fields others = true) : fields = others := by
  cases fields with
  | nil => cases others <;> trivial
  | cons member rest =>
    cases others with
    | nil => cases h
    | cons other more =>
      obtain ⟨name, value⟩ := member
      obtain ⟨otherName, otherValue⟩ := other
      obtain ⟨hvalue, hrest⟩ := List.append_eq_nil_iff.mp hf
      obtain ⟨hother, hmore⟩ := List.append_eq_nil_iff.mp ho
      obtain ⟨hmember, hothers⟩ := Bool.and_eq_true_iff.mp h
      obtain ⟨hname, hfirst⟩ := Bool.and_eq_true_iff.mp hmember
      rw [eq_of_beq hname, eq_of_eqv hvalue hother hfirst, eq_of_eqvFields hrest hmore hothers]

end

/-- Equality of values is symmetric, and reflexive but for NaN at any depth. Among values that hold
no double it is identity, hence an equivalence. -/
theorem eqv_symmetric_reflexive_structural :
    (∀ a b : Value, a.eqv b = b.eqv a) ∧
    (∀ a : Value, a.eqv a = true ↔ ∀ x ∈ a.floats, x.isNaN = false) ∧
    (∀ a b : Value, a.floats = [] → b.floats = [] → (a.eqv b = true ↔ a = b)) ∧
    Equivalence fun a b : { value : Value // value.floats = [] } => a.1.eqv b.1 = true := by
  have hself : ∀ a : Value, a.floats = [] → a.eqv a = true := by
    intro a ha
    rw [eqv_self_iff, ha]
    exact List.forall_mem_nil _
  have hiff : ∀ a b : Value, a.floats = [] → b.floats = [] → (a.eqv b = true ↔ a = b) := by
    refine fun a b ha hb => ⟨eq_of_eqv ha hb, ?_⟩
    rintro rfl
    exact hself a ha
  refine ⟨eqv_comm, eqv_self_iff, hiff, ?_⟩
  constructor
  · exact fun a => hself a.1 a.2
  · intro a b h
    rwa [eqv_comm]
  · intro a b c hab hbc
    rw [(hiff a b a.2 b.2).mp hab]
    exact hbc

/-- One integer deep inside tells two values apart. -/
theorem eqv_structural_of_nested :
    let a : Value := .array [.object [("n", .array [.int 1, .null])], .string "s"]
    let b : Value := .array [.object [("n", .array [.int 2, .null])], .string "s"]
    a.floats = [] ∧ b.floats = [] ∧ a.eqv b = false ∧ a ≠ b :=
  ⟨rfl, rfl, rfl, fun h => absurd
    ((eqv_symmetric_reflexive_structural.2.2.1 _ _ rfl rfl).mpr h) Bool.false_ne_true⟩

/-- With doubles it is no equivalence: two integers are rounded to one double. -/
example :
    let x := Binary64.ofInt 9007199254740992
    (int 9007199254740992).eqv (float x) = true ∧ (float x).eqv (int 9007199254740993) = true ∧
      (int 9007199254740992).eqv (int 9007199254740993) = false := by
  decide +kernel

end DocStore.Value
