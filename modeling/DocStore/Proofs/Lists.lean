import Mathlib.Data.List.Forall2
import Mathlib.Tactic.Lemma

/-!
# Lists

What tables and collections need of lists: elements that are related one by one, and permutations of
lists.
-/

namespace DocStore

variable {α β : Type} {R : α → β → Prop}

lemma exists_right_of_forall₂ {first : List α} {second : List β} (h : List.Forall₂ R first second)
    {a : α} (ha : a ∈ first) : ∃ b ∈ second, R a b := by
  induction h with
  | nil => simp at ha
  | @cons a' b' first second hab _ ih =>
    rcases List.mem_cons.mp ha with rfl | ha
    · exact ⟨b', by simp, hab⟩
    · obtain ⟨b, hb, hab⟩ := ih ha
      exact ⟨b, List.mem_cons_of_mem b' hb, hab⟩

lemma exists_left_of_forall₂ {first : List α} {second : List β} (h : List.Forall₂ R first second)
    {b : β} (hb : b ∈ second) : ∃ a ∈ first, R a b :=
  exists_right_of_forall₂ h.flip hb

lemma exists_forall₂ {l : List α} (h : ∀ a ∈ l, ∃ b, R a b) :
    ∃ others, List.Forall₂ R l others := by
  induction l with
  | nil => exact ⟨[], .nil⟩
  | cons a rest ih =>
    obtain ⟨⟨b, hab⟩, hrest⟩ := List.forall_mem_cons.mp h
    obtain ⟨others, hothers⟩ := ih hrest
    exact ⟨b :: others, .cons hab hothers⟩

lemma forall₂_mem {first : List α} {second : List β} (h : List.Forall₂ R first second) :
    List.Forall₂ (fun a b => R a b ∧ b ∈ second) first second := by
  have hflip := (List.forall₂_and_left _ _).mpr ⟨fun b (hb : b ∈ second) => hb, h.flip⟩
  exact hflip.flip.imp fun a b ⟨hb, hab⟩ => ⟨hab, hb⟩

lemma exists_append_of_forall₂ {l : List α} {first second : List β}
    (h : List.Forall₂ R l (first ++ second)) :
    ∃ before after, l = before ++ after ∧ List.Forall₂ R before first ∧
      List.Forall₂ R after second :=
  ⟨l.take first.length, l.drop first.length, (List.take_append_drop _ _).symm,
    List.forall₂_take_append l first second h, List.forall₂_drop_append l first second h⟩

lemma eq_of_perm_of_length_le_one {first second : List α} (h : first.Perm second)
    (hlength : second.length ≤ 1) : first = second := by
  match second, hlength with
  | [], _ => exact h.eq_nil
  | [a], _ => exact List.perm_singleton.mp h

lemma find?_eq_of_perm {first second : List α} (h : first.Perm second) {p : α → Bool}
    (hone : ∀ a ∈ second, ∀ b ∈ second, p a = true → p b = true → a = b) :
    first.find? p = second.find? p := by
  cases hfound : second.find? p with
  | none =>
    rw [List.find?_eq_none] at hfound ⊢
    exact fun a ha => hfound a (h.mem_iff.mp ha)
  | some a =>
    have ha := List.mem_of_find?_eq_some hfound
    have hp : p a = true := List.find?_some hfound
    obtain ⟨b, hb⟩ := Option.isSome_iff_exists.mp
      (List.find?_isSome.mpr ⟨a, h.mem_iff.mpr ha, hp⟩)
    rw [hb, hone b (h.mem_iff.mp (List.mem_of_find?_eq_some hb)) a ha (List.find?_some hb) hp]

end DocStore
