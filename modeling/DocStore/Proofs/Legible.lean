import DocStore.Proofs.ReadBack

/-!
# Values without infinities and NaN

Infinities and NaN are written as null. `Value.legible` is a value with null in their place. An
ordered value whose finite doubles read back is read back as that (`Value.reread?_eq_legible`), and
no other way: a value is its own legible form exactly when all its doubles are finite
(`Value.legible_eq_self_iff`).
-/

namespace DocStore

namespace Value

mutual

/-- The value with null in place of each infinity and NaN. -/
def legible : Value → Value
  | .float x => if x.isFinite then .float x else .null
  | .array items => .array (legibleItems items)
  | .object fields => .object (legibleFields fields)
  | value => value

def legibleItems : List Value → List Value
  | [] => []
  | item :: rest => legible item :: legibleItems rest

def legibleFields : List (String × Value) → List (String × Value)
  | [] => []
  | (name, inner) :: rest => (name, legible inner) :: legibleFields rest

end

/-- The finite doubles inside a value are read back from their text unchanged. -/
def FiniteReadBack (value : Value) : Prop :=
  ∀ x ∈ value.floats, x.isFinite = true → x.ReadsBack

instance : DecidablePred FiniteReadBack :=
  fun value => inferInstanceAs (Decidable (∀ x ∈ value.floats, _))

lemma rereadFloat?_eq_legible {x : Binary64} (h : x.isFinite = true → x.ReadsBack) :
    rereadFloat? x = some (Value.float x).legible := by
  by_cases hfinite : x.isFinite = true
  · rw [legible, if_pos hfinite, ← ofText?_text_float x .compact]
    exact h hfinite
  · rw [legible, if_neg hfinite, rereadFloat?, Binary64.literal?_of_not_isFinite hfinite]

mutual

lemma reread?_eq_legible (value : Value) (h : value.FiniteReadBack) :
    value.reread? = some value.legible := by
  match value, h with
  | .null, _ | .bool _, _ | .int _, _ | .string _, _ => rfl
  | .float x, h => exact rereadFloat?_eq_legible (h x (List.mem_singleton_self x))
  | .array items, h => rw [reread?, legible, rereadItems?_eq_legibleItems items h, Option.map_some]
  | .object fields, h =>
    rw [reread?, legible, rereadFields?_eq_legibleFields fields h, Option.map_some]

lemma rereadItems?_eq_legibleItems (items : List Value)
    (h : ∀ x ∈ floatsOfItems items, x.isFinite = true → x.ReadsBack) :
    rereadItems? items = some (legibleItems items) := by
  match items, h with
  | [], _ => rfl
  | item :: rest, h =>
    rw [floatsOfItems, List.forall_mem_append] at h
    rw [rereadItems?, reread?_eq_legible item h.1, rereadItems?_eq_legibleItems rest h.2]
    rfl

lemma rereadFields?_eq_legibleFields (fields : List (String × Value))
    (h : ∀ x ∈ floatsOfFields fields, x.isFinite = true → x.ReadsBack) :
    rereadFields? fields = some (legibleFields fields) := by
  match fields, h with
  | [], _ => rfl
  | (name, inner) :: rest, h =>
    rw [floatsOfFields, List.forall_mem_append] at h
    rw [rereadFields?, reread?_eq_legible inner h.1, rereadFields?_eq_legibleFields rest h.2]
    rfl

end

mutual

lemma legible_eq_self_iff (value : Value) :
    value.legible = value ↔ ∀ x ∈ value.floats, x.isFinite = true := by
  match value with
  | .null | .bool _ | .int _ | .string _ => simp [legible, floats]
  | .float x => by_cases h : x.isFinite = true <;> simp [legible, floats, h]
  | .array items => simp [legible, floats, legibleItems_eq_self_iff items]
  | .object fields => simp [legible, floats, legibleFields_eq_self_iff fields]

lemma legibleItems_eq_self_iff (items : List Value) :
    legibleItems items = items ↔ ∀ x ∈ floatsOfItems items, x.isFinite = true := by
  match items with
  | [] => simp [legibleItems, floatsOfItems]
  | item :: rest =>
    simp only [legibleItems, floatsOfItems, List.cons.injEq, List.forall_mem_append,
      legible_eq_self_iff item, legibleItems_eq_self_iff rest]

lemma legibleFields_eq_self_iff (fields : List (String × Value)) :
    legibleFields fields = fields ↔ ∀ x ∈ floatsOfFields fields, x.isFinite = true := by
  match fields with
  | [] => simp [legibleFields, floatsOfFields]
  | (name, inner) :: rest =>
    simp only [legibleFields, floatsOfFields, List.cons.injEq, List.forall_mem_append,
      Prod.mk.injEq, true_and, legible_eq_self_iff inner, legibleFields_eq_self_iff rest]

end

end Value

namespace Document

/-- The document with null in place of each infinity and NaN. -/
def legible (doc : Document) : Document :=
  Value.legibleFields doc

lemma reread?_eq_legible {doc : Document} (h : (Value.object doc).FiniteReadBack) :
    doc.reread? = some doc.legible :=
  Value.rereadFields?_eq_legibleFields doc h

end Document

end DocStore
