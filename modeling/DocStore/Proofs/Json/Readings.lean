import DocStore.Json.Data
import DocStore.Proofs.Json.Magnitude

/-!
# The two readings of a text

A text is read as a value at once, or as data that are then turned into a value. A literal that is
an integer and too large for a value is the same double both ways, since the double of its digits
is the one nearest to the integer (`NumberLiteral.toFinite?_of_toInt?`). So the readings agree on
every literal, on every tree (`Data.map_toValue_ofTree?`) and on every text
(`Data.map_toValue_ofText?`).
-/

namespace DocStore

namespace Fields

variable {α β : Type}

lemma insert_map (f : α → β) (key : String) (value : α) (fields : Fields α) :
    insert key (f value) (fields.map fun member => (member.1, f member.2)) =
      (insert key value fields).map fun member => (member.1, f member.2) := by
  induction fields with
  | nil => rfl
  | cons member rest ih =>
    obtain ⟨name, old⟩ := member
    simp only [List.map_cons, insert, ih]
    split
    · rfl
    · split <;> rfl

lemma ofMembers_map (f : α → β) (members : List (String × α)) :
    ofMembers (members.map fun member => (member.1, f member.2)) =
      (ofMembers members).map fun member => (member.1, f member.2) := by
  induction members using List.reverseRecOn with
  | nil => rfl
  | append_singleton members member ih =>
    rw [List.map_append, ofMembers_append, ofMembers_append, ih]
    exact insert_map f member.1 member.2 (ofMembers members)

end Fields

namespace Json

namespace NumberLiteral

variable {n : NumberLiteral} {whole : Int}

lemma toInt?_eq_some_iff : n.toInt? = some whole ↔
    n.fraction = none ∧ n.exponent = none ∧ (appendDigits 0 n.whole).2 = 0 ∧
      ¬(n.negative = true ∧ (appendDigits 0 n.whole).1 = 0) ∧
      Binary64.signed n.negative (appendDigits 0 n.whole).1 = whole := by
  unfold toInt?
  obtain ⟨magnitude, omitted⟩ := appendDigits 0 n.whole
  cases n.fraction with
  | some digits => simp
  | none =>
    cases n.exponent with
    | some power => simp
    | none =>
      cases omitted with
      | succ => simp
      | zero =>
        dsimp only
        split <;> simp_all

lemma natAbs_signed (negative : Bool) (magnitude : Nat) :
    (Binary64.signed negative magnitude).natAbs = magnitude := by
  cases negative <;> simp [Binary64.signed]

lemma natAbs_lt_of_toInt? (h : n.toInt? = some whole) : whole.natAbs < significandBound := by
  obtain ⟨-, -, -, -, rfl⟩ := toInt?_eq_some_iff.mp h
  rw [natAbs_signed]
  exact (appendDigits_le n.whole (Nat.pow_pos (by decide))).1

theorem toFinite?_of_toInt? (h : n.toInt? = some whole) :
    n.toFinite? = some (.ofInt whole) := by
  have hbits := natAbs_lt_of_toInt? h
  obtain ⟨hfraction, hexponent, homitted, hsign, rfl⟩ := toInt?_eq_some_iff.mp h
  rw [natAbs_signed] at hbits
  have hnegative : decide (Binary64.signed n.negative (appendDigits 0 n.whole).1 < 0) =
      n.negative := by
    cases hn : n.negative with
    | false => simp [Binary64.signed]
    | true =>
      have hpos : (appendDigits 0 n.whole).1 ≠ 0 := fun hzero => hsign ⟨hn, hzero⟩
      simp only [Binary64.signed, if_true, decide_eq_true_eq]
      omega
  have hfinite := (Binary64.magnitude_ofQuotient_one_le n.negative hbits).1
  have hfloat : n.toFloat = .ofInt (Binary64.signed n.negative (appendDigits 0 n.whole).1) := by
    rw [Binary64.ofInt, hnegative, natAbs_signed, ← Binary64.scaleByTens_zero hfinite]
    simp [toFloat, hfraction, hexponent, homitted, appendDigits]
  rw [toFinite?, hfloat, if_pos]
  rwa [Binary64.ofInt, hnegative, natAbs_signed]

end NumberLiteral

end Json

open Json

lemma Value.ofNumber?_of_toInt? {n : NumberLiteral} {whole : Int} (h : n.toInt? = some whole) :
    ofNumber? n = some (if intRange.1 ≤ whole ∧ whole ≤ intRange.2 then .int (Int64.ofInt whole)
      else .float (.ofInt whole)) := by
  rw [ofNumber?, h, Option.filter_some, NumberLiteral.toFinite?_of_toInt? h]
  by_cases hmem : intRange.1 ≤ whole ∧ whole ≤ intRange.2 <;> simp [hmem]

namespace Json

namespace DataNumber

lemma map_toValue_of_toInt? {n : NumberLiteral} {whole : Int} (h : n.toInt? = some whole) :
    (ofLiteral? n).map toValue =
      some (if Value.intRange.1 ≤ whole ∧ whole ≤ Value.intRange.2 then .int (Int64.ofInt whole)
        else .float (.ofInt whole)) := by
  have hbits := NumberLiteral.natAbs_lt_of_toInt? h
  have hdouble := NumberLiteral.toFinite?_of_toInt? h
  have hrange : Value.intRange = (-(2 ^ 63 : Int), 2 ^ 63 - 1) := by decide
  have hpow : Nat.pow 2 63 = 2 ^ 63 := rfl
  rw [hrange]
  unfold ofLiteral?
  cases whole with
  | ofNat magnitude =>
    have hnat : (UInt64.ofNat magnitude).toNat = magnitude := UInt64.toNat_ofNat_of_lt hbits
    have hiff : magnitude < Nat.pow 2 63 ↔
        -(2 ^ 63 : Int) ≤ magnitude ∧ (magnitude : Int) ≤ 2 ^ 63 - 1 := by omega
    simp only [h, Option.map_some, toValue, hnat, hiff, Int.ofNat_eq_natCast]
  | negSucc rest =>
    have hiff : rest < Nat.pow 2 63 ↔
        -(2 ^ 63 : Int) ≤ .negSucc rest ∧ Int.negSucc rest ≤ 2 ^ 63 - 1 := by omega
    simp only [h, hdouble, hiff]
    split <;> rfl

/-- Both readings choose the same kind for a number, and the same number. -/
theorem map_toValue_ofLiteral? (n : NumberLiteral) :
    (ofLiteral? n).map toValue = Value.ofNumber? n := by
  cases h : n.toInt? with
  | none => simp [ofLiteral?, Value.ofNumber?, h, Function.comp_def, toValue]
  | some whole => rw [map_toValue_of_toInt? h, Value.ofNumber?_of_toInt? h]

end DataNumber

namespace Data

lemma toMembers_eq_map (fields : List (String × Data)) :
    toMembers fields = fields.map fun member => (member.1, member.2.toValue) := by
  induction fields with
  | nil => rfl
  | cons member rest ih => rw [toMembers, ih, List.map_cons]

/-- Of two members with one name the later one counts, whether it is a value or data. -/
lemma ofMembers_toMembers_ofMembers (fields : List (String × Data)) :
    Fields.ofMembers (toMembers (Fields.ofMembers fields)) =
      Fields.ofMembers (toMembers fields) := by
  rw [toMembers_eq_map, toMembers_eq_map, ← Fields.ofMembers_map toValue fields]
  exact Fields.ofMembers_of_ascending (Fields.ofMembers_ascending _)

mutual

theorem map_toValue_ofTree? (tree : Tree) : (ofTree? tree).map toValue = Value.ofTree? tree := by
  cases tree with
  | null | bool => rfl
  | number n =>
    rw [ofTree?, Option.map_map, Value.ofTree?, ← DataNumber.map_toValue_ofLiteral?]
    rfl
  | string text => rw [ofTree?, Option.map_map, Value.ofTree?]; rfl
  | array items =>
    rw [ofTree?, Option.map_map, Value.ofTree?, ← map_toItems_ofItems? items, Option.map_map]
    rfl
  | object members =>
    rw [ofTree?, Option.map_map, Value.ofTree?, ← map_toMembers_ofMembers? members,
      Option.map_map]
    congr 1
    funext fields
    simp only [Function.comp_apply, toValue, ofMembers_toMembers_ofMembers]

lemma map_toItems_ofItems? (trees : List Tree) :
    (ofItems? trees).map toItems = Value.ofItems? trees := by
  cases trees with
  | nil => rfl
  | cons tree rest =>
    rw [ofItems?, Value.ofItems?, ← map_toValue_ofTree? tree, ← map_toItems_ofItems? rest]
    cases ofTree? tree <;> cases ofItems? rest <;> rfl

lemma map_toMembers_ofMembers? (members : List (Option String × Tree)) :
    (ofMembers? members).map toMembers = Value.ofMembers? members := by
  cases members with
  | nil => rfl
  | cons member rest =>
    obtain ⟨name, tree⟩ := member
    simp only [ofMembers?, Value.ofMembers?, ← map_toValue_ofTree? tree,
      ← map_toMembers_ofMembers? rest]
    cases name <;> cases ofTree? tree <;> cases ofMembers? rest <;> rfl

end

/-- Both readings of a text give the same value, or none. -/
theorem map_toValue_ofText? (s : String) : (ofText? s).map toValue = Value.ofText? s := by
  simp only [ofText?, Value.ofText?, bind, Option.map_bind, Function.comp_def,
    map_toValue_ofTree?]

end Data

end Json

end DocStore
