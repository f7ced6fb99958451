import DocStore.Proofs.Sql.Prefilter
import DocStore.Sql.Statement

/-!
# Statements within the limits

A prefilter `Fits` when it has no more parameters than a statement may have, and makes no higher
expression than one may be. Exactly then nothing is too much in its clauses
(`Prefilter.excess?_eq_none_iff`). Up to 998 conditions are never too high
(`Prefilter.Fits.of_few`); of conditions that ask for one key, 999 are not and 1000 are
(`Prefilter.fits_replicate_iff`).
-/

namespace DocStore.Sql

/-- The height of a conjunction with more clauses. From the first one on that no row satisfies, they
make no expression. -/
def conjunctionHeight (height : Nat) (clauses : List Clause) : Nat :=
  (clauses.takeWhile (· ≠ .never)).foldl joinedHeight height

/-- A prefilter within the limits of a statement. -/
structure Prefilter.Fits (prefilter : Prefilter) : Prop where
  parameters : (prefilter.clauses.map Clause.placeholders).sum ≤ parameterLimit
  height : conjunctionHeight 0 prefilter.clauses ≤ heightLimit

lemma conjunctionHeight_cons {clause : Clause} (h : clause ≠ .never) (height : Nat)
    (rest : List Clause) :
    conjunctionHeight height (clause :: rest) =
      conjunctionHeight (joinedHeight height clause) rest := by
  simp [conjunctionHeight, h]

lemma conjunctionHeight_never (height : Nat) (rest : List Clause) :
    conjunctionHeight height (.never :: rest) = height := by
  simp [conjunctionHeight]

lemma le_conjunctionHeight (height : Nat) (clauses : List Clause) :
    height ≤ conjunctionHeight height clauses := by
  induction clauses generalizing height with
  | nil => exact Nat.le_refl _
  | cons clause rest ih =>
    by_cases h : clause = .never
    · simp only [h, conjunctionHeight_never, Nat.le_refl]
    · rw [conjunctionHeight_cons h]
      refine Nat.le_trans ?_ (ih _)
      unfold joinedHeight
      split <;> omega

/-- One clause is not too much when the parameters and the conjunction with it are within their
limits, and what is behind it is not too much. -/
lemma clauseExcess?_cons_eq_none_iff (start taken : Nat) (height? : Option Nat) (clause : Clause)
    (rest : List Clause) :
    clauseExcess? start taken height? (clause :: rest) = none ↔
      taken + clause.placeholders ≤ parameterLimit ∧
        (∀ height ∈ joinedHeight? height? clause, height ≤ heightLimit) ∧
        clauseExcess? (start + clause.text.utf8ByteSize + " AND ".utf8ByteSize)
          (taken + clause.placeholders) (joinedHeight? height? clause) rest = none := by
  rw [clauseExcess?]
  by_cases hparams : parameterLimit < taken + clause.placeholders
  · simp [hparams, Nat.not_le.mpr hparams]
  rw [if_neg hparams]
  have hfew := Nat.not_lt.mp hparams
  cases joinedHeight? height? clause with
  | none => simp [hfew]
  | some height =>
    by_cases hhigh : heightLimit < height
    · simp [hhigh, Nat.not_le.mpr hhigh]
    · simp [hhigh, hfew, Nat.not_lt.mp hhigh]

lemma clauseExcess?_eq_none_iff {taken : Nat} (htaken : taken ≤ parameterLimit)
    {height? : Option Nat} (hheight : ∀ height ∈ height?, height ≤ heightLimit) (start : Nat)
    (clauses : List Clause) :
    clauseExcess? start taken height? clauses = none ↔
      taken + (clauses.map Clause.placeholders).sum ≤ parameterLimit ∧
        ∀ height ∈ height?, conjunctionHeight height clauses ≤ heightLimit := by
  induction clauses generalizing taken height? start with
  | nil => simpa [clauseExcess?, conjunctionHeight, htaken] using hheight
  | cons clause rest ih =>
    rw [clauseExcess?_cons_eq_none_iff, List.map_cons, List.sum_cons, ← Nat.add_assoc]
    have hheights : (∀ height ∈ height?, conjunctionHeight height (clause :: rest) ≤ heightLimit) ↔
        ∀ height ∈ joinedHeight? height? clause, conjunctionHeight height rest ≤ heightLimit := by
      by_cases hnever : clause = .never
      · simpa [joinedHeight?, hnever, conjunctionHeight_never] using hheight
      · simp [joinedHeight?, hnever, conjunctionHeight_cons]
    rw [hheights]
    constructor
    · rintro ⟨hparams, hjoined, hrest⟩
      exact (ih hparams hjoined _).mp hrest
    · rintro ⟨hsum, hjoined⟩
      have hparams : taken + clause.placeholders ≤ parameterLimit := by omega
      have hbelow : ∀ height ∈ joinedHeight? height? clause, height ≤ heightLimit :=
        fun height hmem => Nat.le_trans (le_conjunctionHeight height rest) (hjoined height hmem)
      exact ⟨hparams, hbelow, (ih hparams hbelow _).mpr ⟨hsum, hjoined⟩⟩

theorem Prefilter.excess?_eq_none_iff (start : Nat) (prefilter : Prefilter) :
    prefilter.excess? start = none ↔ prefilter.Fits := by
  rw [excess?, clauseExcess?_eq_none_iff (Nat.zero_le _) (by simp)]
  simp only [Nat.zero_add, Option.mem_some_iff, forall_eq']
  exact ⟨fun h => ⟨h.1, h.2⟩, fun h => ⟨h.parameters, h.height⟩⟩

lemma Clause.height_le (clause : Clause) : clause.height ≤ 3 := by
  unfold height
  split <;> omega

lemma conjunctionHeight_le {height bound : Nat} (h : height ≤ bound) (hbound : 3 ≤ bound)
    (clauses : List Clause) : conjunctionHeight height clauses ≤ bound + clauses.length := by
  induction clauses generalizing height bound with
  | nil => exact h
  | cons clause rest ih =>
    by_cases hnever : clause = .never
    · rw [hnever, conjunctionHeight_never]
      omega
    · have hjoined : joinedHeight height clause ≤ bound + 1 := by
        have := clause.height_le
        unfold joinedHeight
        split <;> omega
      rw [conjunctionHeight_cons hnever, List.length_cons]
      have := ih hjoined (by omega)
      omega

lemma conjunctionHeight_replicate {clause : Clause} (h : clause ≠ .never) {height : Nat}
    (hheight : clause.height ≤ height) (hpos : height ≠ 0) (n : Nat) :
    conjunctionHeight height (List.replicate n clause) = height + n := by
  induction n generalizing height with
  | zero => simp [conjunctionHeight]
  | succ n ih =>
    have hjoined : joinedHeight height clause = height + 1 := by
      rw [joinedHeight, if_neg hpos, Nat.max_eq_left hheight]
    rw [List.replicate_succ, conjunctionHeight_cons h, hjoined, ih (by omega) (by omega)]
    omega

namespace Prefilter

lemma Fits.of_few {prefilter : Prefilter} (hclauses : prefilter.clauses.length ≤ 998)
    (hparams : (prefilter.clauses.map Clause.placeholders).sum ≤ parameterLimit) :
    prefilter.Fits := by
  refine ⟨hparams, ?_⟩
  unfold heightLimit
  cases hlist : prefilter.clauses with
  | nil => simp [conjunctionHeight]
  | cons clause rest =>
    by_cases hnever : clause = .never
    · simp [hnever, conjunctionHeight_never]
    · have hfirst : joinedHeight 0 clause ≤ 3 := clause.height_le
      have hheight := conjunctionHeight_le hfirst (Nat.le_refl 3) rest
      rw [hlist, List.length_cons] at hclauses
      rw [conjunctionHeight_cons hnever]
      omega

lemma fits_empty (schema : Schema) : (ofFilter schema .empty).Fits :=
  .of_few (Nat.zero_le _) (Nat.zero_le _)

lemma clauses_replicate (schema : Schema) (key : String) (n : Nat) :
    (ofFilter schema ⟨List.replicate n ⟨schema.key.path, .equals (.string key)⟩⟩).clauses =
      List.replicate n (.equals schema.key.column) := by
  unfold ofFilter
  induction n with
  | zero => rfl
  | succ n ih =>
    simp [List.replicate_succ, ofConditions, Clause.ofField?, Schema.columnFor?,
      Clause.ofCondition?, ih]

/-- The first of the clauses is as high as two conditions, and each further one adds a step. -/
theorem fits_replicate_iff (schema : Schema) (key : String) (n : Nat) :
    (ofFilter schema ⟨List.replicate n ⟨schema.key.path, .equals (.string key)⟩⟩).Fits ↔
      n < heightLimit := by
  have hclauses := clauses_replicate schema key n
  have hheight : conjunctionHeight 0 (List.replicate n (.equals schema.key.column)) ≤ heightLimit ↔
      n < heightLimit := by
    cases n with
    | zero => simp [conjunctionHeight, heightLimit]
    | succ n =>
      have hfirst : joinedHeight 0 (.equals schema.key.column) = 2 := rfl
      rw [List.replicate_succ, conjunctionHeight_cons (by simp), hfirst,
        conjunctionHeight_replicate (by simp) (Nat.le_refl 2) (by decide)]
      omega
  rw [← hheight, ← hclauses]
  refine ⟨Fits.height, fun h => ⟨?_, h⟩⟩
  have hfew : n < heightLimit := hheight.mp (hclauses ▸ h)
  simp only [heightLimit] at hfew
  simp only [hclauses, List.map_replicate, List.sum_replicate_nat, Clause.placeholders,
    parameterLimit]
  omega

end Prefilter

end DocStore.Sql
