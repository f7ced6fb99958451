import DocStore.Update
import Mathlib.Data.List.Infix
import Mathlib.Data.String.Basic
import Mathlib.Order.Basic
import Mathlib.Tactic.Lemma

/-!
# Unrelated paths

Two paths are `Incomparable` when neither leads on from the other. A write at one of them is not
seen at the other (`Document.getAt?_setAt_of_incomparable`), and it does not matter which of two
such writes comes first (`Document.setAt_comm`).
-/

namespace DocStore

namespace Fields

variable {α : Type}

theorem insert_comm {key other : String} (h : key ≠ other) (value second : α)
    (fields : Fields α) :
    insert key value (insert other second fields) =
      insert other second (insert key value fields) := by
  induction fields with
  | nil =>
    rcases lt_or_gt_of_ne h with hlt | hlt <;>
      simp [insert, h, h.symm, hlt, hlt.not_gt]
  | cons member rest ih =>
    obtain ⟨name, old⟩ := member
    by_cases hkey : key = name
    · subst hkey
      by_cases hother : other < key
      · simp [insert, h, h.symm, hother, hother.not_gt]
      · simp [insert, h.symm, hother]
    · by_cases hname : other = name
      · subst hname
        by_cases hlt : key < other
        · simp [insert, h, h.symm, hlt, hlt.not_gt]
        · simp [insert, h, hlt]
      · by_cases hlt : key < name <;> by_cases hlt' : other < name
        · rcases lt_or_gt_of_ne h with hbefore | hbefore <;>
            simp [insert, hkey, hname, h, h.symm, hlt, hlt', hbefore, hbefore.not_gt]
        · have hbefore : key < other := lt_of_lt_of_le hlt (not_lt.mp hlt')
          simp [insert, hkey, hname, h.symm, hlt, hlt', hbefore.not_gt]
        · have hbefore : other < key := lt_of_lt_of_le hlt' (not_lt.mp hlt)
          simp [insert, hkey, hname, h, hlt, hlt', hbefore.not_gt]
        · simp [insert, hkey, hname, hlt, hlt', ih]

end Fields

namespace Document

/-- Neither of two lists of segments is a prefix of the other. -/
def Incomparable (keys others : List String) : Prop :=
  ¬keys <+: others ∧ ¬others <+: keys

instance : DecidableRel Incomparable := fun _ _ => inferInstanceAs (Decidable (_ ∧ _))

lemma Incomparable.symm {keys others : List String} (h : Incomparable keys others) :
    Incomparable others keys :=
  ⟨h.2, h.1⟩

lemma incomparable_cons_iff {key other : String} {keys others : List String} :
    Incomparable (key :: keys) (other :: others) ↔ key ≠ other ∨ Incomparable keys others := by
  rw [Incomparable, Incomparable, List.cons_prefix_cons, List.cons_prefix_cons]
  by_cases h : key = other
  · simp [h]
  · simp [h, Ne.symm h]

lemma not_incomparable_nil_left (others : List String) : ¬Incomparable [] others :=
  fun h => h.1 (List.nil_prefix)

lemma not_incomparable_nil_right (keys : List String) : ¬Incomparable keys [] :=
  fun h => h.2 (List.nil_prefix)

/-- What stands at a segment once a value is set behind it, in the mapping that was there. -/
def below : List String → Value → Document → Value
  | [], value, _ => value
  | key :: rest, value, inner => .object (setAt (key :: rest) value inner)

lemma setAt_cons (key : String) (rest : List String) (value : Value) (doc : Document) :
    setAt (key :: rest) value doc =
      Fields.insert key (below rest value (child key doc)) doc := by
  cases rest <;> rfl

lemma getAt?_nil (keys : List String) : getAt? keys [] = none := by
  match keys with
  | [] | [_] | _ :: _ :: _ => rfl

lemma getAt?_cons_of_ne_nil (key : String) {rest : List String} (h : rest ≠ [])
    (doc : Document) : getAt? (key :: rest) doc = getAt? rest (child key doc) := by
  cases rest with
  | nil => exact absurd rfl h
  | cons next more =>
    rw [getAt?, child]
    cases Fields.get? key doc with
    | none => simp [getAt?_nil]
    | some value => cases value <;> simp [Value.asObject?, getAt?_nil]

lemma getAt?_cons_congr {key : String} (rest : List String) {doc other : Document}
    (h : Fields.get? key doc = Fields.get? key other) :
    getAt? (key :: rest) doc = getAt? (key :: rest) other := by
  cases rest with
  | nil => exact h
  | cons next more => rw [getAt?, getAt?, h]

@[simp] lemma child_insert_self (key : String) (inner doc : Document) :
    child key (Fields.insert key (.object inner) doc) = inner := by
  simp [child, Value.asObject?]

lemma child_insert_of_ne {key other : String} (h : key ≠ other) (value : Value)
    (doc : Document) : child key (Fields.insert other value doc) = child key doc := by
  rw [child, child, Fields.get?_insert_of_ne h]

theorem getAt?_setAt_of_incomparable {keys others : List String} (h : Incomparable keys others)
    (value : Value) (doc : Document) :
    getAt? others (setAt keys value doc) = getAt? others doc := by
  induction keys generalizing others doc with
  | nil => exact absurd h (not_incomparable_nil_left others)
  | cons key rest ih =>
    cases others with
    | nil => exact absurd h (not_incomparable_nil_right _)
    | cons other more =>
      rw [setAt_cons]
      by_cases hkey : key = other
      · subst hkey
        have hrest : Incomparable rest more := by simpa [incomparable_cons_iff] using h
        have hnext : rest ≠ [] := by
          rintro rfl
          exact not_incomparable_nil_left more hrest
        have hmore : more ≠ [] := by
          rintro rfl
          exact not_incomparable_nil_right rest hrest
        obtain ⟨next, keys, rfl⟩ := List.exists_cons_of_ne_nil hnext
        rw [getAt?_cons_of_ne_nil key hmore, getAt?_cons_of_ne_nil key hmore, below,
          child_insert_self, ih hrest]
      · exact getAt?_cons_congr more (Fields.get?_insert_of_ne (Ne.symm hkey) _ doc)

lemma get?_set_of_incomparable {path other : String}
    (h : Incomparable (segments path) (segments other)) (value : Value) (doc : Document) :
    (doc.set path value).get? other = doc.get? other :=
  getAt?_setAt_of_incomparable h value doc

theorem setAt_comm {keys others : List String} (h : Incomparable keys others)
    (value second : Value) (doc : Document) :
    setAt keys value (setAt others second doc) =
      setAt others second (setAt keys value doc) := by
  induction keys generalizing others doc with
  | nil => exact absurd h (not_incomparable_nil_left others)
  | cons key rest ih =>
    cases others with
    | nil => exact absurd h (not_incomparable_nil_right _)
    | cons other more =>
      simp only [setAt_cons]
      by_cases hkey : key = other
      · subst hkey
        have hrest : Incomparable rest more := by simpa [incomparable_cons_iff] using h
        cases rest with
        | nil => exact absurd hrest (not_incomparable_nil_left more)
        | cons next keys =>
          cases more with
          | nil => exact absurd hrest (not_incomparable_nil_right _)
          | cons second others =>
            simp only [below, child_insert_self, Fields.insert_insert_self, ih hrest]
      · rw [child_insert_of_ne hkey, child_insert_of_ne (Ne.symm hkey),
          Fields.insert_comm hkey]

end Document

end DocStore
