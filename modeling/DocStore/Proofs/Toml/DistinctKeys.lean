import DocStore.Toml.Table
import DocStore.Toml.Value
import Mathlib.Data.List.Nodup
import Mathlib.Tactic.Lemma

/-!
# Distinct keys

A table that is read from a text names each of its keys once (`Toml.Table.distinct_of_ofText?`), and
so it does when its date-times are made texts. Every step that builds the table keeps that: it puts
a member in its old place or behind the others.
-/

namespace DocStore

namespace Fields

variable {α : Type}

def Distinct (fields : Fields α) : Prop :=
  (fields.map (·.1)).Nodup

lemma distinct_nil : Distinct ([] : Fields α) :=
  List.nodup_nil

lemma get?_eq_none_of_notMem {key : String} {fields : Fields α} (h : key ∉ fields.map (·.1)) :
    get? key fields = none := by
  induction fields with
  | nil => rfl
  | cons member rest ih =>
    obtain ⟨name, value⟩ := member
    rw [get?_cons, if_neg (List.ne_of_not_mem_cons h)]
    exact ih (List.not_mem_of_not_mem_cons h)

lemma mem_map_fst_put {key name : String} {value : α} {fields : Fields α}
    (h : name ∈ (put key value fields).map (·.1)) : name = key ∨ name ∈ fields.map (·.1) := by
  induction fields with
  | nil => exact .inl (by simpa [put] using h)
  | cons member rest ih =>
    obtain ⟨other, old⟩ := member
    rw [put] at h
    split at h
    · rcases List.mem_cons.mp h with rfl | h
      · exact .inl rfl
      · exact .inr (List.mem_cons_of_mem _ h)
    · rcases List.mem_cons.mp h with rfl | h
      · exact .inr List.mem_cons_self
      · exact (ih h).imp_right (List.mem_cons_of_mem _)

lemma Distinct.put {fields : Fields α} (h : fields.Distinct) (key : String) (value : α) :
    Distinct (Fields.put key value fields) := by
  induction fields with
  | nil => exact List.nodup_singleton key
  | cons member rest ih =>
    obtain ⟨name, old⟩ := member
    obtain ⟨hname, hrest⟩ := List.nodup_cons.mp h
    rw [Fields.put]
    split
    · rename_i heq
      subst heq
      exact h
    · rename_i hne
      refine List.nodup_cons.mpr ⟨fun hmem => ?_, ih hrest⟩
      rcases mem_map_fst_put hmem with heq | hmem
      · exact hne heq.symm
      · exact hname hmem

lemma erase_sublist (key : String) (fields : Fields α) : (erase key fields).Sublist fields := by
  induction fields with
  | nil => exact List.Sublist.slnil
  | cons member rest ih =>
    obtain ⟨name, value⟩ := member
    rw [erase]
    split
    · exact List.sublist_cons_self _ _
    · exact ih.cons_cons _

lemma Distinct.erase {fields : Fields α} (h : fields.Distinct) (key : String) :
    Distinct (Fields.erase key fields) :=
  h.sublist ((erase_sublist key fields).map _)

end Fields

namespace Toml

open Fields (Distinct)

lemma foldlM_keeps {α β : Type} {P : β → Prop} {step : β → α → Option β}
    (hstep : ∀ {b a c}, P b → step b a = some c → P c) {l : List α} {b c : β} (hb : P b)
    (h : l.foldlM step b = some c) : P c := by
  induction l generalizing b with
  | nil =>
    cases h
    exact hb
  | cons a rest ih =>
    rw [List.foldlM_cons] at h
    obtain ⟨next, hnext, hrest⟩ := Option.bind_eq_some_iff.mp h
    exact ih (hstep hb hnext) hrest

namespace Node

variable {members result : List (String × Node)}

lemma distinct_of_assign {name : String} {node : Node} {path : List String}
    (hm : Distinct members) (h : assign name node path members = some result) :
    Distinct result := by
  cases path with
  | nil =>
    rw [assign] at h
    split at h
    · cases h
      exact hm.put _ _
    · cases h
  | cons part more =>
    rw [assign] at h
    split at h
    · obtain ⟨inner, -, rfl⟩ := Option.map_eq_some_iff.mp h
      exact hm.put _ _
    · split at h
      · cases h
      · obtain ⟨inner, -, rfl⟩ := Option.map_eq_some_iff.mp h
        exact hm.put _ _
    · split at h
      · cases h
      · obtain ⟨last, -, rfl⟩ := Option.map_eq_some_iff.mp h
        exact hm.put _ _
    · cases h

lemma distinct_of_modify {change : List (String × Node) → Option (List (String × Node))}
    (hchange : ∀ {members result}, Distinct members → change members = some result →
      Distinct result) {path : List String} (hm : Distinct members)
    (h : modify change path members = some result) : Distinct result := by
  cases path with
  | nil => exact hchange hm h
  | cons part more =>
    rw [modify] at h
    split at h
    · obtain ⟨inner, -, rfl⟩ := Option.map_eq_some_iff.mp h
      exact hm.put _ _
    · obtain ⟨inner, -, rfl⟩ := Option.map_eq_some_iff.mp h
      exact hm.put _ _
    · obtain ⟨last, -, rfl⟩ := Option.map_eq_some_iff.mp h
      exact hm.put _ _
    · cases h

lemma distinct_of_assignAll {assignments : List (Key × Value)} (hm : Distinct members)
    (h : assignAll assignments members = some result) : Distinct result :=
  foldlM_keeps (fun hb hstep => distinct_of_assign hb hstep) hm h

lemma map_fst_toMembers (members : List (String × Node)) :
    (toMembers members).map (·.1) = members.map (·.1) := by
  induction members with
  | nil => rfl
  | cons member rest ih =>
    obtain ⟨name, node⟩ := member
    rw [toMembers, List.map_cons, List.map_cons, ih]

end Node

lemma Section.distinct_of_open? {entry : Section} {parent result : List (String × Node)}
    (hp : Distinct parent) (h : entry.open? parent = some result) : Distinct result := by
  unfold Section.open? at h
  dsimp only at h
  split at h
  · obtain ⟨members, -, rfl⟩ := Option.map_eq_some_iff.mp h
    exact hp.put _ _
  · obtain ⟨members, -, rfl⟩ := Option.map_eq_some_iff.mp h
    exact (hp.erase _).put _ _
  · obtain ⟨members, -, rfl⟩ := Option.map_eq_some_iff.mp h
    exact hp.put _ _
  · obtain ⟨members, -, rfl⟩ := Option.map_eq_some_iff.mp h
    exact hp.put _ _
  · cases h

namespace Table

theorem distinct_of_ofText? {s : String} {table : Table} (h : ofText? s = some table) :
    Distinct table := by
  obtain ⟨statements, -, h⟩ := Option.bind_eq_some_iff.mp h
  simp only [ofStatements?, bind, Option.bind_eq_some_iff] at h
  obtain ⟨⟨assignments, sections⟩, -, root, hassign, final, hsections, heq⟩ := h
  cases heq
  have hroot := Node.distinct_of_assignAll Fields.distinct_nil hassign
  have hfinal : Distinct final := foldlM_keeps
    (fun hb hstep => Node.distinct_of_modify Section.distinct_of_open? hb hstep) hroot hsections
  rw [Distinct, Node.map_fst_toMembers]
  exact hfinal

lemma map_fst_of_textual? {table texts : Table} (h : table.textual? = some texts) :
    texts.map (·.1) = table.map (·.1) := by
  rw [textual?] at h
  induction table generalizing texts with
  | nil =>
    cases h
    rfl
  | cons member rest ih =>
    obtain ⟨name, value⟩ := member
    rw [Value.textualMembers?] at h
    split at h
    · rename_i hrest
      cases h
      rw [List.map_cons, List.map_cons, ih hrest]
    · cases h

lemma distinct_of_textual? {table texts : Table} (hd : Distinct table)
    (h : table.textual? = some texts) : Distinct texts := by
  rw [Distinct, map_fst_of_textual? h]
  exact hd

end Table

end Toml

end DocStore
