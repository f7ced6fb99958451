import DocStore.Store.Collection
import Mathlib.Tactic.Lemma

/-!
# Strings and keys

Only a string equals a string, so two documents with string keys share their key exactly when the
strings are the same (`Schema.sharesKey_eq_true_iff`).
-/

namespace DocStore

namespace Value

lemma eqv_string_iff (found : Value) (s : String) :
    found.eqv (.string s) = true ↔ found = .string s := by
  cases found <;> simp [eqv]

lemma string_eqv_iff (s : String) (found : Value) :
    (Value.string s).eqv found = true ↔ found = .string s := by
  cases found with
  | string t => simpa [eqv] using eq_comm
  | _ => simp [eqv]

lemma asString?_eq_some_iff (value : Value) (s : String) :
    value.asString? = some s ↔ value = .string s := by
  cases value <;> simp [asString?]

lemma bind_asString?_eq_some_iff (value? : Option Value) (s : String) :
    value?.bind asString? = some s ↔ value? = some (.string s) := by
  cases value? <;> simp [asString?_eq_some_iff]

end Value

namespace Schema

lemma keyOf?_eq_some_iff (schema : Schema) (doc : Document) (key : String) :
    schema.keyOf? doc = some key ↔ doc.get? schema.key.path = some (.string key) :=
  Value.bind_asString?_eq_some_iff _ key

lemma sharesKey_eq_true_iff {schema : Schema} {doc : Document} {key : String}
    (h : schema.keyOf? doc = some key) (other : Document) :
    schema.sharesKey doc other = true ↔ schema.keyOf? other = some key := by
  rw [sharesKey, (keyOf?_eq_some_iff schema doc key).mp h, keyOf?_eq_some_iff]
  simp only [Option.any_eq_true, Value.eqv_string_iff]
  exact ⟨fun ⟨found, hfound, heq⟩ => heq ▸ hfound, fun hfound => ⟨_, hfound, rfl⟩⟩

end Schema

end DocStore
