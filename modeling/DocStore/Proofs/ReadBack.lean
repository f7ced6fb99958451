import DocStore.Proofs.Json.Token
import DocStore.Proofs.Ordered

/-!
# Reading back what was written

An ordered value that is nested within the limit of a reader is read back from its text, in either
layout, as what its doubles are read back as (`Value.ofText?_text`). A value that is nested deeper
is not read at all. The text spells the tokens of the value (`Value.spells_textOnto`), and these
tokens make its tree (`Value.value_tokensOnto`).
-/

namespace DocStore

open Json

/-- The literal that the text of a double is. Infinities and NaN have none. -/
def Binary64.literal? (x : Binary64) : Option NumberLiteral :=
  (splitNumber (floatText x)).map (·.1)

lemma Binary64.literal?_of_isFinite {x : Binary64} (h : x.isFinite = true) :
    ∃ n : NumberLiteral, x.literal? = some n ∧ n.WellFormed ∧ n.toInt? = none ∧
      floatText x = n.spelling := by
  obtain ⟨n, hn, hint, htext⟩ := exists_floatText_eq_spelling h
  refine ⟨n, ?_, hn, hint, htext⟩
  have hsplit := splitNumber_spelling hn endsNumber_nil
  rw [List.append_nil] at hsplit
  rw [Binary64.literal?, htext, hsplit]
  rfl

lemma Binary64.floatText_of_not_isFinite {x : Binary64} (h : ¬x.isFinite = true) :
    floatText x = "null".toList := by
  cases x with
  | finite => simp [isFinite] at h
  | _ => rfl

lemma Binary64.literal?_of_not_isFinite {x : Binary64} (h : ¬x.isFinite = true) :
    x.literal? = none := by
  rw [Binary64.literal?, floatText_of_not_isFinite h]
  rfl

namespace Value

def floatToken (x : Binary64) : Token :=
  match x.literal? with
  | some n => .number n
  | none => .null

def floatTree (x : Binary64) : Tree :=
  match x.literal? with
  | some n => .number n
  | none => .null

mutual

/-- The tokens of a value in front of `rest`. -/
def tokensOnto : Value → List Token → List Token
  | .null, rest => .null :: rest
  | .bool b, rest => .bool b :: rest
  | .int n, rest => .number (intLiteral n.toInt) :: rest
  | .float x, rest => floatToken x :: rest
  | .string s, rest => .string (some s) :: rest
  | .array [], rest => .openBracket :: .closeBracket :: rest
  | .array (item :: more), rest =>
    .openBracket :: tokensOnto item (itemTokensOnto more (.closeBracket :: rest))
  | .object [], rest => .openBrace :: .closeBrace :: rest
  | .object ((name, value) :: more), rest =>
    .openBrace :: .string (some name) :: .colon ::
      tokensOnto value (memberTokensOnto more (.closeBrace :: rest))

/-- The tokens of the items after the first one of an array. -/
def itemTokensOnto : List Value → List Token → List Token
  | [], rest => rest
  | item :: more, rest => .comma :: tokensOnto item (itemTokensOnto more rest)

/-- The tokens of the members after the first one of an object. -/
def memberTokensOnto : List (String × Value) → List Token → List Token
  | [], rest => rest
  | (name, value) :: more, rest =>
    .comma :: .string (some name) :: .colon :: tokensOnto value (memberTokensOnto more rest)

end

mutual

/-- The tree of a value. -/
def tree : Value → Tree
  | .null => .null
  | .bool b => .bool b
  | .int n => .number (intLiteral n.toInt)
  | .float x => floatTree x
  | .string s => .string (some s)
  | .array items => .array (treeItems items)
  | .object fields => .object (treeMembers fields)

def treeItems : List Value → List Tree
  | [] => []
  | item :: rest => tree item :: treeItems rest

def treeMembers : List (String × Value) → List (Option String × Tree)
  | [] => []
  | (name, value) :: rest => (some name, tree value) :: treeMembers rest

end

lemma isBlank_of_mem_lineBreak {layout : Layout} {depth : Nat} {c : Char}
    (h : c ∈ layout.lineBreak depth) : isBlank c = true := by
  cases layout with
  | compact => simp [Layout.lineBreak] at h
  | pretty =>
    rcases List.mem_cons.mp h with rfl | h
    · rfl
    · rw [List.eq_of_mem_replicate h]
      rfl

lemma endsNumber_lineBreak (layout : Layout) (depth : Nat) {rest : List Char}
    (h : EndsNumber rest) : EndsNumber (layout.lineBreak depth ++ rest) := by
  cases layout with
  | compact => exact h
  | pretty => exact endsNumber_cons _ (by decide)

lemma endsNumber_itemsOnto (layout : Layout) (depth : Nat) (items : List Value)
    {rest : List Char} (h : EndsNumber rest) :
    EndsNumber (itemsOnto layout depth items rest) := by
  cases items with
  | nil => exact h
  | cons item more => exact endsNumber_cons _ (by decide)

lemma endsNumber_membersOnto (layout : Layout) (depth : Nat) (members : List (String × Value))
    {rest : List Char} (h : EndsNumber rest) :
    EndsNumber (membersOnto layout depth members rest) := by
  cases members with
  | nil => exact h
  | cons member more => exact endsNumber_cons _ (by decide)

lemma spells_lineBreak (layout : Layout) (depth : Nat) {rest : List Char} {tokens : List Token}
    (h : Spells rest tokens) : Spells (layout.lineBreak depth ++ rest) tokens :=
  h.append_blanks fun _ hc => isBlank_of_mem_lineBreak hc

lemma spells_name (layout : Layout) (name : String) {rest : List Char} {tokens : List Token}
    (h : Spells rest tokens) :
    Spells (quote name ++ (layout.colon ++ rest)) (.string (some name) :: .colon :: tokens) := by
  refine spells_quote name ?_
  cases layout with
  | compact => exact spells_cons (by decide) rfl h
  | pretty =>
    refine spells_cons (by decide) rfl ?_
    have hblanks : ∀ c ∈ [' '], isBlank c = true := List.forall_mem_singleton.mpr rfl
    exact h.append_blanks hblanks

lemma spells_floatText (x : Binary64) {rest : List Char} {tokens : List Token}
    (hr : EndsNumber rest) (h : Spells rest tokens) :
    Spells (floatText x ++ rest) (floatToken x :: tokens) := by
  by_cases hfinite : x.isFinite = true
  · obtain ⟨n, hliteral, hn, -, htext⟩ := Binary64.literal?_of_isFinite hfinite
    rw [htext, floatToken, hliteral]
    exact spells_spelling hn hr h
  · rw [Binary64.floatText_of_not_isFinite hfinite, floatToken,
      Binary64.literal?_of_not_isFinite hfinite]
    exact .token rfl h

mutual

lemma spells_textOnto (layout : Layout) (depth : Nat) (value : Value) {rest : List Char}
    {tokens : List Token} (hr : EndsNumber rest) (h : Spells rest tokens) :
    Spells (textOnto layout depth value rest) (tokensOnto value tokens) := by
  match value with
  | .null => exact .token rfl h
  | .bool true => exact .token rfl h
  | .bool false => exact .token rfl h
  | .int n =>
    rw [textOnto, tokensOnto, intText_eq_spelling]
    exact spells_spelling (intLiteral_wellFormed _) hr h
  | .float x => exact spells_floatText x hr h
  | .string s => exact spells_quote s h
  | .array [] => exact spells_cons (by decide) rfl (spells_cons (by decide) rfl h)
  | .array (item :: more) =>
    rw [textOnto, tokensOnto, List.cons_append]
    refine spells_cons (by decide) rfl (spells_lineBreak layout _ ?_)
    have hclose := spells_lineBreak layout depth (spells_cons (c := ']') (by decide) rfl h)
    have hend := endsNumber_lineBreak layout depth (endsNumber_cons (c := ']') rest (by decide))
    exact spells_textOnto layout (depth + 1) item (endsNumber_itemsOnto layout _ more hend)
      (spells_itemsOnto layout (depth + 1) more hend hclose)
  | .object [] => exact spells_cons (by decide) rfl (spells_cons (by decide) rfl h)
  | .object ((name, inner) :: more) =>
    rw [textOnto, tokensOnto]
    simp only [List.cons_append, List.append_assoc]
    refine spells_cons (by decide) rfl (spells_lineBreak layout _ (spells_name layout name ?_))
    have hclose := spells_lineBreak layout depth (spells_cons (c := '}') (by decide) rfl h)
    have hend := endsNumber_lineBreak layout depth (endsNumber_cons (c := '}') rest (by decide))
    exact spells_textOnto layout (depth + 1) inner (endsNumber_membersOnto layout _ more hend)
      (spells_membersOnto layout (depth + 1) more hend hclose)

lemma spells_itemsOnto (layout : Layout) (depth : Nat) (items : List Value) {rest : List Char}
    {tokens : List Token} (hr : EndsNumber rest) (h : Spells rest tokens) :
    Spells (itemsOnto layout depth items rest) (itemTokensOnto items tokens) := by
  match items with
  | [] => exact h
  | item :: more =>
    rw [itemsOnto, itemTokensOnto, List.cons_append]
    refine spells_cons (by decide) rfl (spells_lineBreak layout _ ?_)
    exact spells_textOnto layout depth item (endsNumber_itemsOnto layout depth more hr)
      (spells_itemsOnto layout depth more hr h)

lemma spells_membersOnto (layout : Layout) (depth : Nat) (members : List (String × Value))
    {rest : List Char} {tokens : List Token} (hr : EndsNumber rest) (h : Spells rest tokens) :
    Spells (membersOnto layout depth members rest) (memberTokensOnto members tokens) := by
  match members with
  | [] => exact h
  | (name, inner) :: more =>
    rw [membersOnto, memberTokensOnto]
    simp only [List.cons_append, List.append_assoc]
    refine spells_cons (by decide) rfl (spells_lineBreak layout _ (spells_name layout name ?_))
    exact spells_textOnto layout depth inner (endsNumber_membersOnto layout depth more hr)
      (spells_membersOnto layout depth more hr h)

end

lemma tokensOnto_eq_cons (value : Value) (rest : List Token) :
    ∃ token more, tokensOnto value rest = token :: more ∧ token ≠ .closeBracket := by
  match value with
  | .null | .bool _ | .int _ | .string _ => exact ⟨_, _, rfl, by simp⟩
  | .array [] | .array (_ :: _) | .object [] | .object (_ :: _) => exact ⟨_, _, rfl, by simp⟩
  | .float x =>
    refine ⟨floatToken x, rest, rfl, ?_⟩
    unfold floatToken
    split <;> simp

mutual

lemma value_tokensOnto (stack : List Open) (value : Value) (rest : List Token) :
    Tree.value stack (tokensOnto value rest) = Tree.close value.tree stack rest := by
  match value with
  | .null | .bool _ | .int _ | .string _ => rw [tokensOnto, tree, Tree.value]
  | .float x =>
    rw [tokensOnto, tree, floatToken, floatTree]
    split <;> rw [Tree.value]
  | .array [] => rw [tokensOnto, tree, treeItems, Tree.value]
  | .array (item :: more) =>
    obtain ⟨token, others, heq, hne⟩ :=
      tokensOnto_eq_cons item (itemTokensOnto more (.closeBracket :: rest))
    have hopen : Tree.value stack (.openBracket :: token :: others) =
        Tree.value (.array [] :: stack) (token :: others) := by
      rw [Tree.value]
      rintro more ⟨⟩
      exact hne rfl
    rw [tokensOnto, heq, hopen, ← heq, value_tokensOnto, close_itemTokensOnto, tree, treeItems]
    rfl
  | .object [] => rw [tokensOnto, tree, treeMembers, Tree.value]
  | .object ((name, inner) :: more) =>
    rw [tokensOnto, Tree.value, value_tokensOnto, close_memberTokensOnto, tree, treeMembers]
    rfl

lemma close_itemTokensOnto (stack : List Open) (last : Tree) (done : List Tree)
    (items : List Value) (rest : List Token) :
    Tree.close last (.array done :: stack) (itemTokensOnto items (.closeBracket :: rest)) =
      Tree.close (.array (done.reverse ++ last :: treeItems items)) stack rest := by
  match items with
  | [] => rw [itemTokensOnto, treeItems, Tree.close, List.reverse_cons]
  | item :: more =>
    rw [itemTokensOnto, Tree.close, value_tokensOnto, close_itemTokensOnto, treeItems]
    simp

lemma close_memberTokensOnto (stack : List Open) (last : Tree)
    (done : List (Option String × Tree)) (name : Option String) (members : List (String × Value))
    (rest : List Token) :
    Tree.close last (.object done name :: stack)
        (memberTokensOnto members (.closeBrace :: rest)) =
      Tree.close (.object (done.reverse ++ (name, last) :: treeMembers members)) stack rest := by
  match members with
  | [] => rw [memberTokensOnto, treeMembers, Tree.close, List.reverse_cons]
  | (next, inner) :: more =>
    rw [memberTokensOnto, Tree.close, value_tokensOnto, close_memberTokensOnto, treeMembers]
    simp

end

/-- The text of a value is JSON, and its tree is that of the value. -/
theorem ofText?_text_tree (value : Value) (layout : Layout) :
    Tree.ofText? (value.text layout) = some value.tree := by
  have hspells := spells_textOnto layout 0 value endsNumber_nil (.blank rfl)
  rw [Tree.ofText?, text, String.toList_ofList, hspells.scan_eq, Option.bind_some,
    value_tokensOnto]
  rfl

mutual

lemma nesting_tree (value : Value) : value.tree.nesting = value.nesting := by
  match value with
  | .null | .bool _ | .int _ | .string _ => rfl
  | .float x =>
    rw [tree, floatTree]
    split <;> rfl
  | .array items => rw [tree, Tree.nesting, nesting, nestingItems_treeItems]
  | .object fields => rw [tree, Tree.nesting, nesting, nestingMembers_treeMembers]

lemma nestingItems_treeItems (items : List Value) :
    Tree.nestingItems (treeItems items) = nestingItems items := by
  match items with
  | [] => rfl
  | item :: rest =>
    rw [treeItems, Tree.nestingItems, nestingItems, nesting_tree, nestingItems_treeItems]

lemma nestingMembers_treeMembers (members : List (String × Value)) :
    Tree.nestingMembers (treeMembers members) = nestingFields members := by
  match members with
  | [] => rfl
  | (name, value) :: rest =>
    rw [treeMembers, Tree.nestingMembers, nestingFields, nesting_tree, nestingMembers_treeMembers]

end

/-- What the text of a double is read back as: a double, or null when it has no text. A double whose
text overflows is not read. -/
def rereadFloat? (x : Binary64) : Option Value :=
  match x.literal? with
  | some n => n.toFinite?.map .float
  | none => some .null

mutual

/-- What the text of a value is read back as. -/
def reread? : Value → Option Value
  | .float x => rereadFloat? x
  | .array items => (rereadItems? items).map .array
  | .object fields => (rereadFields? fields).map .object
  | value => some value

def rereadItems? : List Value → Option (List Value)
  | [] => some []
  | item :: rest =>
    match reread? item, rereadItems? rest with
    | some value, some values => some (value :: values)
    | _, _ => none

def rereadFields? : List (String × Value) → Option (List (String × Value))
  | [] => some []
  | (name, inner) :: rest =>
    match reread? inner, rereadFields? rest with
    | some value, some members => some ((name, value) :: members)
    | _, _ => none

end

lemma map_fst_of_rereadFields? {fields members : List (String × Value)}
    (h : rereadFields? fields = some members) : members.map (·.1) = fields.map (·.1) := by
  induction fields generalizing members with
  | nil =>
    cases h
    rfl
  | cons field rest ih =>
    obtain ⟨name, inner⟩ := field
    rw [rereadFields?] at h
    split at h
    · rename_i hrest
      cases h
      simp [ih hrest]
    · simp at h

lemma ascending_of_map_fst_eq {α β : Type} {first : Fields α} {second : Fields β}
    (h : first.map (·.1) = second.map (·.1)) (hs : second.Ascending) : first.Ascending := by
  have hkeys : (second.map (·.1)).Pairwise (· < ·) := List.pairwise_map.mpr hs
  rw [← h] at hkeys
  exact List.pairwise_map.mp hkeys

lemma ofNumber?_intLiteral (n : Int64) : ofNumber? (intLiteral n.toInt) = some (.int n) := by
  have hlo : Int64.minValue.toInt ≤ n.toInt := n.minValue_le_toInt
  have hhi : n.toInt ≤ Int64.maxValue.toInt := n.toInt_le
  have hbound : n.toInt.natAbs < significandBound := by
    have hmin : Int64.minValue.toInt = -9223372036854775808 := by decide
    have hmax : Int64.maxValue.toInt = 9223372036854775807 := by decide
    have hlimit : significandBound = 18446744073709551616 := by decide
    omega
  have hrange : (some n.toInt).filter
      (fun whole => decide (intRange.1 ≤ whole ∧ whole ≤ intRange.2)) = some n.toInt :=
    Option.filter_some_pos (by simpa [intRange] using ⟨hlo, hhi⟩)
  rw [ofNumber?, toInt?_intLiteral hbound, hrange]
  simp

lemma ofTree?_floatTree (x : Binary64) : ofTree? (floatTree x) = rereadFloat? x := by
  rw [floatTree, rereadFloat?]
  by_cases hfinite : x.isFinite = true
  · obtain ⟨n, hliteral, -, hint, -⟩ := Binary64.literal?_of_isFinite hfinite
    simp [hliteral, ofTree?, ofNumber?, hint]
  · rw [Binary64.literal?_of_not_isFinite hfinite]
    rfl

mutual

lemma ofTree?_tree (value : Value) (h : value.Ordered) : ofTree? value.tree = value.reread? := by
  match value, h with
  | .null, _ | .bool _, _ | .string _, _ => rfl
  | .int n, _ => simp only [tree, ofTree?, ofNumber?_intLiteral, reread?]
  | .float x, _ => rw [tree, ofTree?_floatTree, reread?]
  | .array items, h => rw [tree, ofTree?, ofItems?_treeItems items h, reread?]
  | .object fields, h =>
    rw [tree, ofTree?, ofMembers?_treeMembers fields h.2, reread?]
    cases hfields : rereadFields? fields with
    | none => rfl
    | some members =>
      have hascending := ascending_of_map_fst_eq (map_fst_of_rereadFields? hfields) h.1
      simp [Fields.ofMembers_of_ascending hascending]

lemma ofItems?_treeItems (items : List Value) (h : OrderedItems items) :
    ofItems? (treeItems items) = rereadItems? items := by
  match items, h with
  | [], _ => rfl
  | item :: rest, h =>
    have hitem := ofTree?_tree item h.1
    have hrest := ofItems?_treeItems rest h.2
    cases hvalue : reread? item <;> cases hvalues : rereadItems? rest <;>
      simp [treeItems, ofItems?, rereadItems?, hitem, hrest, hvalue, hvalues]

lemma ofMembers?_treeMembers (members : List (String × Value)) (h : OrderedFields members) :
    ofMembers? (treeMembers members) = rereadFields? members := by
  match members, h with
  | [], _ => rfl
  | (name, value) :: rest, h =>
    simp only [treeMembers, ofMembers?, ofTree?_tree value h.1,
      ofMembers?_treeMembers rest h.2, rereadFields?]
    cases reread? value <;> cases rereadFields? rest <;> rfl

end

/-- An ordered value is read back from its text as far as its doubles are, and not at all when it is
nested too deep. -/
theorem ofText?_text (value : Value) (h : value.Ordered) (layout : Layout) :
    ofText? (value.text layout) =
      if value.nesting ≤ nestingLimit then value.reread? else none := by
  rw [ofText?, ofText?_text_tree]
  simp only [Option.bind_eq_bind, Option.bind_some, nesting_tree, ofTree?_tree value h]
  by_cases hn : value.nesting ≤ nestingLimit <;> simp [hn]

/-! ## What is read back unchanged -/

lemma ofText?_text_float (x : Binary64) (layout : Layout) :
    ofText? ((Value.float x).text layout) = rereadFloat? x :=
  ofText?_text (.float x) trivial layout

end Value

/-- The text of a double is read back as the same double. -/
def Binary64.ReadsBack (x : Binary64) : Prop :=
  Value.ofText? ((Value.float x).text .compact) = some (.float x)

lemma Binary64.readsBack_iff (x : Binary64) :
    x.ReadsBack ↔ x.literal?.bind NumberLiteral.toFinite? = some x := by
  rw [ReadsBack, Value.ofText?_text_float, Value.rereadFloat?]
  cases x.literal? <;> simp

instance : DecidablePred Binary64.ReadsBack := fun x => decidable_of_iff _ x.readsBack_iff.symm

/-- The sum of a hundredth and nine hundredths, just below the double nearest to a tenth. -/
def Binary64.tenthSum : Binary64 :=
  (ofQuotient false 1 100).add (ofQuotient false 9 100)

/-- A finite double whose text is read as its neighbour. -/
lemma Binary64.tenthSum_finite_not_readsBack :
    tenthSum.isFinite = true ∧ ¬tenthSum.ReadsBack := by
  decide +kernel

namespace Value

mutual

/-- The doubles inside a value, in the order of its text. -/
def floats : Value → List Binary64
  | .float x => [x]
  | .array items => floatsOfItems items
  | .object fields => floatsOfFields fields
  | _ => []

def floatsOfItems : List Value → List Binary64
  | [] => []
  | item :: rest => floats item ++ floatsOfItems rest

def floatsOfFields : List (String × Value) → List Binary64
  | [] => []
  | (_, inner) :: rest => floats inner ++ floatsOfFields rest

end

mutual

lemma reread?_eq_self_iff (value : Value) :
    value.reread? = some value ↔ ∀ x ∈ value.floats, x.ReadsBack := by
  match value with
  | .null | .bool _ | .int _ | .string _ => simp [reread?, floats]
  | .float x => simp [reread?, floats, Binary64.ReadsBack, ofText?_text_float]
  | .array items => simp [reread?, floats, rereadItems?_eq_self_iff items]
  | .object fields => simp [reread?, floats, rereadFields?_eq_self_iff fields]

lemma rereadItems?_eq_self_iff (items : List Value) :
    rereadItems? items = some items ↔ ∀ x ∈ floatsOfItems items, x.ReadsBack := by
  match items with
  | [] => simp [rereadItems?, floatsOfItems]
  | item :: rest =>
    have hitem := reread?_eq_self_iff item
    have hrest := rereadItems?_eq_self_iff rest
    simp only [rereadItems?, floatsOfItems, List.mem_append, or_imp, forall_and, ← hitem, ← hrest]
    cases reread? item <;> cases rereadItems? rest <;> simp

lemma rereadFields?_eq_self_iff (fields : List (String × Value)) :
    rereadFields? fields = some fields ↔ ∀ x ∈ floatsOfFields fields, x.ReadsBack := by
  match fields with
  | [] => simp [rereadFields?, floatsOfFields]
  | (name, inner) :: rest =>
    have hinner := reread?_eq_self_iff inner
    have hrest := rereadFields?_eq_self_iff rest
    simp only [rereadFields?, floatsOfFields, List.mem_append, or_imp, forall_and, ← hinner,
      ← hrest]
    cases reread? inner <;> cases rereadFields? rest <;> simp

end

lemma rel_get?_of_rereadFields? {fields members : Document}
    (h : rereadFields? fields = some members) (key : String) :
    Option.Rel (fun value later => value.reread? = some later) (Fields.get? key fields)
      (Fields.get? key members) := by
  induction fields generalizing members with
  | nil =>
    cases h
    exact .none
  | cons field rest ih =>
    obtain ⟨name, inner⟩ := field
    rw [rereadFields?] at h
    split at h
    · rename_i value values hvalue hvalues
      cases h
      by_cases hkey : key = name
      · simpa [hkey] using Option.Rel.some hvalue
      · simpa [hkey] using ih hvalues
    · cases h

lemma rel_asObject?_of_reread? {value later : Value} (h : value.reread? = some later) :
    Option.Rel (fun fields members => rereadFields? fields = some members) value.asObject?
      later.asObject? := by
  cases value with
  | float x =>
    rw [reread?, rereadFloat?] at h
    split at h
    · obtain ⟨y, -, rfl⟩ := Option.map_eq_some_iff.mp h
      exact .none
    · cases h
      exact .none
  | array items =>
    obtain ⟨values, -, rfl⟩ := Option.map_eq_some_iff.mp h
    exact .none
  | object fields =>
    obtain ⟨members, hmembers, rfl⟩ := Option.map_eq_some_iff.mp h
    exact .some hmembers
  | _ =>
    cases h
    exact .none

lemma asString?_of_reread? {value after : Value} (h : value.reread? = some after) :
    after.asString? = value.asString? := by
  cases value with
  | float x =>
    rw [reread?, rereadFloat?] at h
    split at h
    · obtain ⟨y, -, rfl⟩ := Option.map_eq_some_iff.mp h
      rfl
    · cases h
      rfl
  | array items =>
    obtain ⟨values, -, rfl⟩ := Option.map_eq_some_iff.mp h
    rfl
  | object fields =>
    obtain ⟨members, -, rfl⟩ := Option.map_eq_some_iff.mp h
    rfl
  | _ =>
    cases h
    rfl

end Value

namespace Document

/-- What the text of a document is read back as. -/
def reread? (doc : Document) : Option Document :=
  Value.rereadFields? doc

/-- A document that is nested within the limit of a reader and whose doubles read back. -/
def Readable (doc : Document) : Prop :=
  doc.nesting ≤ Value.nestingLimit ∧ ∀ x ∈ (Value.object doc).floats, x.ReadsBack

instance : DecidablePred Readable := fun _ => inferInstanceAs (Decidable (_ ∧ _))

theorem ofText?_text (doc : Document) (h : doc.Ordered) (layout : Value.Layout) :
    ofText? (doc.text layout) =
      if doc.nesting ≤ Value.nestingLimit then doc.reread? else none := by
  rw [ofText?, text, Value.ofText?_text _ h]
  unfold nesting
  split
  · rw [Value.reread?, reread?]
    cases Value.rereadFields? doc <;> rfl
  · rfl

/-- The documents that are read back from their text unchanged are the readable ones. -/
theorem ofText?_text_eq_self_iff {doc : Document} (h : doc.Ordered) (layout : Value.Layout) :
    ofText? (doc.text layout) = some doc ↔ doc.Readable := by
  rw [ofText?_text doc h, Readable, Value.floats, ← Value.rereadFields?_eq_self_iff]
  split <;> simp_all [reread?]

lemma getAt?_cons_cons (key next : String) (more : List String) (doc : Document) :
    getAt? (key :: next :: more) doc =
      ((Fields.get? key doc).bind Value.asObject?).bind (getAt? (next :: more)) := by
  rw [getAt?]
  cases Fields.get? key doc with
  | none => rfl
  | some value => cases value <;> rfl

theorem asString?_getAt?_of_reread? {doc after : Document} (h : doc.reread? = some after)
    (keys : List String) :
    (getAt? keys after).bind Value.asString? = (getAt? keys doc).bind Value.asString? := by
  induction keys generalizing doc after with
  | nil => rfl
  | cons key rest ih =>
    have hget := Value.rel_get?_of_rereadFields? h key
    cases rest with
    | nil =>
      rw [getAt?, getAt?]
      generalize Fields.get? key doc = value?, Fields.get? key after = later? at hget
      cases hget with
      | none => rfl
      | some hvalue => exact Value.asString?_of_reread? hvalue
    | cons next more =>
      rw [getAt?_cons_cons, getAt?_cons_cons]
      generalize Fields.get? key doc = value?, Fields.get? key after = later? at hget
      cases hget with
      | none => rfl
      | @some value later hvalue =>
        have hobject := Value.rel_asObject?_of_reread? hvalue
        rw [Option.bind_some, Option.bind_some]
        generalize value.asObject? = fields?, later.asObject? = members? at hobject
        cases hobject with
        | none => rfl
        | some hfields => exact ih hfields

end Document

end DocStore
