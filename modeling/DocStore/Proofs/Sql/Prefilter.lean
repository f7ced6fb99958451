import DocStore.Proofs.Keys
import DocStore.Sql.Statement
import Mathlib.Algebra.GroupWithZero.Nat
import Mathlib.Data.List.Basic
import Mathlib.Tactic.Lemma

/-!
# What a prefilter says

A row `Mirrors` a document when its key column holds the string key and each denormalized column the
string at its path, or NULL. On such a row a prefilter is true exactly when the conditions that have
a clause hold of the document (`Prefilter.evalAll_ofConditions_iff`), so it drops no match, and it
is the filter itself when it is exact.
-/

namespace DocStore.Sql

/-- A row that has in the columns of a schema what they are for. -/
structure Mirrors (schema : Schema) (row : String → Option String) (doc : Document) : Prop where
  key : row schema.key.column = schema.keyOf? doc
  keyed : (schema.keyOf? doc).isSome = true
  columns : ∀ mapping ∈ schema.columns,
    row mapping.column = (doc.get? mapping.path).bind Value.asString?

lemma both_eq_some_true_iff (a b : Option Bool) :
    both a b = some true ↔ a = some true ∧ b = some true := by
  rcases a with _ | _ | _ <;> rcases b with _ | _ | _ <;> simp [both]

/-- A conjunction takes the parameters of its first clause first. -/
lemma evalAll_cons_eq_some_true_iff (row : String → Option String) (clause : Clause)
    (rest : List Clause) {params : List String} (more : List String)
    (h : clause.placeholders = params.length) :
    evalAll row (clause :: rest) (params ++ more) = some true ↔
      clause.eval row params = some true ∧ evalAll row rest more = some true := by
  rw [evalAll, both_eq_some_true_iff, h, List.take_left, List.drop_left]

lemma count_intercalate {c : Char} {separator : List Char} (h : separator.count c = 0)
    (pieces : List (List Char)) :
    (separator.intercalate pieces).count c = (pieces.map (·.count c)).sum := by
  induction pieces with
  | nil => rfl
  | cons first rest ih =>
    cases rest with
    | nil => simp [List.intercalate]
    | cons second more =>
      rw [List.intercalate_cons_cons, List.count_append, List.count_append, h, ih]
      simp

namespace Clause

lemma eval_equals_eq_some_true_iff (row : String → Option String) (column s : String) :
    (Clause.equals column).eval row [s] = some true ↔ row column = some s := by
  cases h : row column with
  | none => simp [eval, h]
  | some cell =>
    simp only [eval, h, Option.map_some, List.any_cons, List.any_nil, Bool.or_false,
      Option.some.injEq, beq_iff_eq]
    exact ⟨Eq.symm, Eq.symm⟩

lemma eval_isIn_eq_some_true_iff (row : String → Option String) (column : String) (count : Nat)
    (strings : List String) :
    (Clause.isIn column count).eval row strings = some true ↔
      ∃ s ∈ strings, row column = some s := by
  cases h : row column with
  | none => simp [eval, h]
  | some cell => simp [eval, h]

lemma mem_strings_iff (values : List Value) (s : String) :
    s ∈ values.filterMap Value.asString? ↔ Value.string s ∈ values := by
  simp [List.mem_filterMap, Value.asString?_eq_some_iff]

lemma exists_string_of_length_eq {values : List Value}
    (h : (values.filterMap Value.asString?).length = values.length) {value : Value}
    (hv : value ∈ values) : ∃ s, value = .string s := by
  have hsome := List.filterMap_length_eq_length.mp h value hv
  obtain ⟨s, hs⟩ := Option.isSome_iff_exists.mp hsome
  exact ⟨s, (Value.asString?_eq_some_iff value s).mp hs⟩

/-- A value is among candidates by being equal to a string, when each candidate is a string or the
value is one. -/
lemma holds_oneOf_iff {values : List Value} {found : Option Value}
    (h : ∀ value ∈ values, (∃ s, value = .string s) ∨ ∃ s, found = some (.string s)) :
    (Condition.oneOf values).holds found = true ↔
      ∃ s, .string s ∈ values ∧ found = some (.string s) := by
  constructor
  · intro hholds
    simp only [Condition.holds, Option.any_eq_true, List.any_eq_true] at hholds
    obtain ⟨inner, rfl, value, hv, heqv⟩ := hholds
    rcases h value hv with ⟨s, rfl⟩ | ⟨s, hs⟩
    · exact ⟨s, hv, by rw [(Value.string_eqv_iff s inner).mp heqv]⟩
    · cases hs
      rw [(Value.eqv_string_iff value s).mp heqv] at hv
      exact ⟨s, hv, rfl⟩
  · rintro ⟨s, hs, rfl⟩
    simp only [Condition.holds, Option.any_some, List.any_eq_true]
    exact ⟨.string s, hs, (Value.string_eqv_iff s _).mpr rfl⟩

/-- How a condition on a column comes to its clause and parameters. -/
inductive Compiles (isKey : Bool) (column : String) :
    Condition → Clause → List String → Prop where
  | equals (s : String) : Compiles isKey column (.equals (.string s)) (.equals column) [s]
  | unequal {value : Value} (hkey : isKey = true) (hvalue : ∀ s, value ≠ .string s) :
    Compiles isKey column (.equals value) .never []
  | present (hkey : isKey = true) (expected : Bool) :
    Compiles isKey column (.present expected) (if expected then .always else .never) []
  | oneOfNone {values : List Value}
      (hvalues : isKey = true ∨ ∀ value ∈ values, ∃ s, value = .string s)
      (hnone : values.filterMap Value.asString? = []) :
    Compiles isKey column (.oneOf values) .never []
  | oneOf {values : List Value}
      (hvalues : isKey = true ∨ ∀ value ∈ values, ∃ s, value = .string s) :
    Compiles isKey column (.oneOf values)
      (.isIn column (values.filterMap Value.asString?).length) (values.filterMap Value.asString?)

theorem compiles_of_ofCondition? {isKey : Bool} {column : String} {condition : Condition}
    {clause : Clause} {params : List String}
    (h : ofCondition? isKey column condition = some (clause, params)) :
    Compiles isKey column condition clause params := by
  cases condition with
  | equals value =>
    cases value with
    | string s =>
      cases h
      exact .equals s
    | _ =>
      simp only [ofCondition?, Option.ite_none_right_eq_some, Option.some.injEq,
        Prod.mk.injEq] at h
      obtain ⟨hkey, rfl, rfl⟩ := h
      exact .unequal hkey (by simp)
  | present expected =>
    simp only [ofCondition?, Option.ite_none_right_eq_some, Option.some.injEq,
      Prod.mk.injEq] at h
    obtain ⟨hkey, rfl, rfl⟩ := h
    exact .present hkey expected
  | oneOf values =>
    simp only [ofCondition?] at h
    split at h
    · cases h
    · rename_i hall
      have hvalues : isKey = true ∨ ∀ value ∈ values, ∃ s, value = .string s := by
        cases isKey with
        | true => exact .inl rfl
        | false =>
          simp only [Bool.not_false, Bool.true_and, bne_iff_ne, ne_eq, not_not] at hall
          exact .inr fun value hv => exists_string_of_length_eq hall hv
      split at h
      · rename_i hempty
        cases h
        exact .oneOfNone hvalues (List.isEmpty_iff.mp hempty)
      · cases h
        exact .oneOf hvalues

variable {isKey : Bool} {column : String} {condition : Condition} {clause : Clause}
  {params : List String}

lemma Compiles.placeholders_eq (h : Compiles isKey column condition clause params) :
    clause.placeholders = params.length := by
  cases h with
  | present hkey expected => cases expected <;> rfl
  | _ => rfl

/-- A clause on a column that holds the string at a path says what its condition says there. In the
key column there is a string. -/
theorem Compiles.eval_iff (h : Compiles isKey column condition clause params)
    {row : String → Option String} {found : Option Value}
    (hcell : row column = found.bind Value.asString?)
    (hkeyed : isKey = true → (found.bind Value.asString?).isSome = true) :
    clause.eval row params = some true ↔ condition.holds found = true := by
  have hcell_iff : ∀ s, row column = some s ↔ found = some (.string s) := by
    intro s
    cases found <;> simp [hcell, Value.asString?_eq_some_iff]
  have hstring : isKey = true → ∃ s, found = some (.string s) := by
    intro hkey
    obtain ⟨s, hs⟩ := Option.isSome_iff_exists.mp (hkeyed hkey)
    exact ⟨s, (hcell_iff s).mp (hcell.trans hs)⟩
  have honeOf : ∀ values : List Value,
      (isKey = true ∨ ∀ value ∈ values, ∃ s, value = .string s) →
      ((Condition.oneOf values).holds found = true ↔
        ∃ s ∈ values.filterMap Value.asString?, row column = some s) := by
    intro values hvalues
    simp only [mem_strings_iff, hcell_iff]
    refine holds_oneOf_iff fun value hv => ?_
    exact hvalues.symm.imp (fun hall => hall value hv) hstring
  cases h with
  | equals s =>
    rw [eval_equals_eq_some_true_iff, hcell_iff]
    cases found <;> simp [Condition.holds, Value.eqv_string_iff]
  | unequal hkey hvalue =>
    obtain ⟨s, rfl⟩ := hstring hkey
    simp only [eval, Condition.holds, Option.any_some, Option.some.injEq, Bool.false_eq_true,
      false_iff]
    exact fun heqv => hvalue s ((Value.string_eqv_iff s _).mp heqv)
  | present hkey expected =>
    obtain ⟨s, rfl⟩ := hstring hkey
    cases expected <;> simp [eval, Condition.holds]
  | oneOfNone hvalues hnone =>
    rw [honeOf _ hvalues, hnone]
    simp [eval]
  | oneOf hvalues => rw [eval_isIn_eq_some_true_iff, honeOf _ hvalues]

lemma Compiles.column_eq (h : Compiles isKey column condition clause params) {name : String}
    (hname : clause.column? = some name) : name = column := by
  cases h with
  | present hkey expected => cases expected <;> cases hname
  | unequal hkey hvalue => cases hname
  | oneOfNone hvalues hnone => cases hname
  | equals s =>
    cases hname
    rfl
  | oneOf hvalues =>
    cases hname
    rfl

lemma Compiles.exists_oneOf {name : String} {count : Nat}
    (h : Compiles isKey column condition (.isIn name count) params) :
    ∃ values, condition = .oneOf values := by
  generalize hclause : Clause.isIn name count = clause at h
  cases h with
  | @oneOf values hvalues => exact ⟨values, rfl⟩
  | present hkey expected => cases expected <;> cases hclause
  | _ => cases hclause

lemma count_text {clause : Clause}
    (h : ∀ column, clause.column? = some column → '?' ∉ column.toList) :
    clause.text.toList.count '?' = clause.placeholders := by
  cases clause with
  | never => rfl
  | always => rfl
  | equals column =>
    have hcolumn := List.count_eq_zero.mpr (h column rfl)
    rw [text, String.toList_append, List.count_append, hcolumn]
    rfl
  | isIn column count =>
    have hcolumn := List.count_eq_zero.mpr (h column rfl)
    simp only [text, String.toList_append, List.count_append, hcolumn, String.toList_intercalate]
    rw [count_intercalate (by decide), List.map_map, List.map_replicate]
    simp [placeholders]

variable {schema : Schema} {field : FieldCondition}

lemma exists_compiles_of_ofField? (h : ofField? schema field = some (clause, params)) :
    ∃ mapping, mapping.path = field.path ∧
      Compiles (schema.isKey mapping) mapping.column field.condition clause params ∧
      (mapping = schema.key ∨ mapping ∈ schema.columns ∧ schema.key.path ≠ field.path) := by
  obtain ⟨mapping, hmapping, hclause⟩ := Option.bind_eq_some_iff.mp h
  have hcompiles := compiles_of_ofCondition? hclause
  unfold Schema.columnFor? at hmapping
  split at hmapping
  · rename_i hpath
    cases hmapping
    exact ⟨schema.key, hpath, hcompiles, .inl rfl⟩
  · rename_i hpath
    have hmem := List.mem_of_find?_eq_some hmapping
    have hfound : mapping.path = field.path := by simpa using List.find?_some hmapping
    exact ⟨mapping, hfound, hcompiles, .inr ⟨hmem, hpath⟩⟩

lemma placeholders_of_ofField? (h : ofField? schema field = some (clause, params)) :
    clause.placeholders = params.length := by
  obtain ⟨mapping, -, hcompiles, -⟩ := exists_compiles_of_ofField? h
  exact hcompiles.placeholders_eq

lemma eval_ofField?_iff (h : ofField? schema field = some (clause, params))
    {row : String → Option String} {doc : Document} (hrow : Mirrors schema row doc) :
    clause.eval row params = some true ↔
      field.condition.holds (doc.get? field.path) = true := by
  obtain ⟨mapping, hpath, hcompiles, hplace⟩ := exists_compiles_of_ofField? h
  rw [← hpath] at hplace ⊢
  rcases hplace with rfl | ⟨hmem, hother⟩
  · exact hcompiles.eval_iff hrow.key fun _ => hrow.keyed
  · refine hcompiles.eval_iff (hrow.columns mapping hmem) fun hkey => ?_
    -- A mapping of another path than the key's is not the key.
    have heq : schema.key = mapping := by simpa [Schema.isKey] using hkey
    exact absurd (by rw [heq]) hother

end Clause

namespace Prefilter

/-! ## Conjunctions -/

lemma placeholders_ofConditions (schema : Schema) (fields : List FieldCondition) :
    ((ofConditions schema fields).clauses.map Clause.placeholders).sum =
      (ofConditions schema fields).params.length := by
  induction fields with
  | nil => rfl
  | cons field rest ih =>
    cases h : Clause.ofField? schema field with
    | none => simpa [ofConditions, h] using ih
    | some compiled =>
      obtain ⟨clause, params⟩ := compiled
      have hcount := Clause.placeholders_of_ofField? h
      by_cases halways : clause = .always
      · subst halways
        simp [ofConditions, h, ih, ← hcount, Clause.placeholders]
      · simp [ofConditions, h, halways, ih, hcount]

lemma exact_ofConditions_iff (schema : Schema) (fields : List FieldCondition) :
    (ofConditions schema fields).exact = true ↔
      ∀ field ∈ fields, (Clause.ofField? schema field).isSome = true := by
  induction fields with
  | nil => simp [ofConditions]
  | cons field rest ih =>
    cases h : Clause.ofField? schema field with
    | none => simp [ofConditions, h]
    | some compiled => simp [ofConditions, h, ih]

/-- On a row that mirrors a document a prefilter is true exactly when all conditions that have a
clause hold of the document. -/
theorem evalAll_ofConditions_iff {schema : Schema} {row : String → Option String}
    {doc : Document} (hrow : Mirrors schema row doc) (fields : List FieldCondition) :
    evalAll row (ofConditions schema fields).clauses (ofConditions schema fields).params =
        some true ↔
      ∀ field ∈ fields, (Clause.ofField? schema field).isSome = true →
        field.condition.holds (doc.get? field.path) = true := by
  induction fields with
  | nil => simp [ofConditions, evalAll]
  | cons field rest ih =>
    rw [List.forall_mem_cons, ← ih]
    cases h : Clause.ofField? schema field with
    | none => simp [ofConditions, h]
    | some compiled =>
      obtain ⟨clause, params⟩ := compiled
      have hcount := Clause.placeholders_of_ofField? h
      have hclause := Clause.eval_ofField?_iff h hrow
      by_cases halways : clause = .always
      · -- The clause is left out, and it has no parameter.
        subst halways
        have hparams : params = [] := List.eq_nil_of_length_eq_zero hcount.symm
        have hholds := hclause.mp rfl
        simp [ofConditions, h, hparams, hholds]
      · simp only [ofConditions, h, if_neg halways]
        rw [evalAll_cons_eq_some_true_iff row clause _ _ hcount, hclause]
        simp

theorem accepts_of_accepts {schema : Schema} {row : String → Option String} {doc : Document}
    (hrow : Mirrors schema row doc) {filter : Filter} (h : filter.accepts doc = true) :
    (ofFilter schema filter).accepts row = true := by
  have hall : ∀ field ∈ filter.conditions,
      field.condition.holds (doc.get? field.path) = true := by simpa [Filter.accepts] using h
  rw [accepts, beq_iff_eq]
  exact (evalAll_ofConditions_iff hrow filter.conditions).mpr fun field hf _ => hall field hf

theorem accepts_eq_of_exact {schema : Schema} {row : String → Option String} {doc : Document}
    (hrow : Mirrors schema row doc) {filter : Filter}
    (hexact : (ofFilter schema filter).exact = true) :
    (ofFilter schema filter).accepts row = filter.accepts doc := by
  have hsome := (exact_ofConditions_iff schema filter.conditions).mp hexact
  rw [Bool.eq_iff_iff, accepts, beq_iff_eq]
  refine (evalAll_ofConditions_iff hrow filter.conditions).trans ?_
  rw [Filter.accepts, List.all_eq_true]
  exact ⟨fun h field hf => h field hf (hsome field hf), fun h field hf _ => h field hf⟩

lemma mem_clauses_ofConditions {schema : Schema} {fields : List FieldCondition} {clause : Clause}
    (h : clause ∈ (ofConditions schema fields).clauses) :
    ∃ field ∈ fields, ∃ params, Clause.ofField? schema field = some (clause, params) := by
  induction fields with
  | nil => simp [ofConditions] at h
  | cons field rest ih =>
    have hrest : clause ∈ (ofConditions schema rest).clauses →
        ∃ other ∈ field :: rest, ∃ params,
          Clause.ofField? schema other = some (clause, params) := by
      intro hmem
      obtain ⟨other, hother, hsome⟩ := ih hmem
      exact ⟨other, List.mem_cons_of_mem field hother, hsome⟩
    cases hfield : Clause.ofField? schema field with
    | none => exact hrest (by simpa [ofConditions, hfield] using h)
    | some compiled =>
      obtain ⟨first, params⟩ := compiled
      simp only [ofConditions, hfield] at h
      split at h
      · exact hrest h
      · rcases List.mem_cons.mp h with rfl | h
        · exact ⟨field, by simp, params, hfield⟩
        · exact hrest h

lemma column_mem_columnList {schema : Schema} {fields : List FieldCondition} {clause : Clause}
    (h : clause ∈ (ofConditions schema fields).clauses) {column : String}
    (hcolumn : clause.column? = some column) : column ∈ schema.columnList := by
  obtain ⟨field, -, params, hfield⟩ := mem_clauses_ofConditions h
  obtain ⟨mapping, -, hcompiles, hplace⟩ := Clause.exists_compiles_of_ofField? hfield
  rw [hcompiles.column_eq hcolumn, Schema.columnList]
  rcases hplace with rfl | ⟨hmem, -⟩
  · simp
  · exact List.mem_append_left _ (List.mem_cons_of_mem _ (List.mem_map_of_mem hmem))

/-- The placeholders that one reads in the `WHERE` clause are those of its clauses. -/
theorem count_whereText {prefilter : Prefilter}
    (h : ∀ clause ∈ prefilter.clauses, ∀ column, clause.column? = some column →
      '?' ∉ column.toList) :
    prefilter.whereText.toList.count '?' =
      (prefilter.clauses.map Clause.placeholders).sum := by
  have hcounts : prefilter.clauses.map (fun clause => clause.text.toList.count '?') =
      prefilter.clauses.map Clause.placeholders :=
    List.map_congr_left fun clause hclause => Clause.count_text (h clause hclause)
  unfold whereText
  split
  · rename_i hempty
    rw [List.isEmpty_iff.mp hempty]
    rfl
  · rw [String.toList_append, List.count_append, String.toList_intercalate,
      count_intercalate (by decide), List.map_map, List.map_map, ← hcounts]
    rw [show "WHERE ".toList.count '?' = 0 by decide, Nat.zero_add]
    rfl

end Prefilter

end DocStore.Sql
