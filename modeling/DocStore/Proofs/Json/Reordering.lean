import DocStore.Json.Data
import DocStore.Proofs.Ordered
import DocStore.Proofs.Paths
import Mathlib.Data.List.Nodup
import Mathlib.Data.List.Perm.Basic
import Mathlib.Logic.Relation

/-!
# The order of names in a text

Two neighbouring members of an object may change places when their names differ; trees that come
from each other by such exchanges, at any depth, are `Tree.Reordered`. With names that are all
different this is every other order (`Tree.reordered_of_perm`). Texts of reordered trees carry the
same data (`Data.ofText?_eq_of_reordered`).
-/

namespace DocStore.Json

namespace Tree

/-- Two neighbouring members with different names have changed places, somewhere in a tree. -/
inductive Exchanged : Tree → Tree → Prop
  | here (before after : List (Option String × Tree)) {first second : Option String × Tree}
      (h : first.1 ≠ second.1) :
      Exchanged (.object (before ++ first :: second :: after))
        (.object (before ++ second :: first :: after))
  | item (before after : List Tree) {tree other : Tree} (h : Exchanged tree other) :
      Exchanged (.array (before ++ tree :: after)) (.array (before ++ other :: after))
  | member (before after : List (Option String × Tree)) (name : Option String) {tree other : Tree}
      (h : Exchanged tree other) :
      Exchanged (.object (before ++ (name, tree) :: after))
        (.object (before ++ (name, other) :: after))

/-- The names of objects come in another order, those that are equal in the same one. -/
def Reordered : Tree → Tree → Prop :=
  Relation.ReflTransGen Exchanged

lemma reordered_of_perm {members others : List (Option String × Tree)}
    (hperm : members.Perm others) (hnames : (members.map Prod.fst).Nodup)
    (before : List (Option String × Tree)) :
    Reordered (.object (before ++ members)) (.object (before ++ others)) := by
  induction hperm generalizing before with
  | nil => exact .refl
  | cons member hrest ih =>
    have hmore := ih (List.nodup_cons.mp hnames).2 (before ++ [member])
    simpa using hmore
  | swap first second rest =>
    refine .single (.here before rest ?_)
    intro heq
    simp [heq] at hnames
  | trans hfirst hsecond ihfirst ihsecond =>
    have hmiddle := (hfirst.map Prod.fst).nodup_iff.mp hnames
    exact .trans (ihfirst hnames before) (ihsecond hmiddle before)

lemma nestingItems_append (items others : List Tree) :
    nestingItems (items ++ others) = max (nestingItems items) (nestingItems others) := by
  induction items with
  | nil => simp [nestingItems]
  | cons item rest ih => simp [nestingItems, ih, max_assoc]

lemma nestingMembers_append (members others : List (Option String × Tree)) :
    nestingMembers (members ++ others) = max (nestingMembers members) (nestingMembers others) := by
  induction members with
  | nil => simp [nestingMembers]
  | cons member rest ih => simp [nestingMembers, ih, max_assoc]

lemma Exchanged.nesting_eq {tree other : Tree} (h : Exchanged tree other) :
    other.nesting = tree.nesting := by
  induction h with
  | here before after h =>
    simp only [nesting, nestingMembers_append, nestingMembers]
    rw [max_left_comm (nesting _) (nesting _)]
  | item before after h ih => simp only [nesting, nestingItems_append, nestingItems, ih]
  | member before after name h ih =>
    simp only [nesting, nestingMembers_append, nestingMembers, ih]

end Tree

namespace Data

lemma ofItems?_append (items others : List Tree) :
    ofItems? (items ++ others) =
      (ofItems? items).bind fun data => (ofItems? others).map (data ++ ·) := by
  induction items with
  | nil => simp [ofItems?]
  | cons item rest ih =>
    rw [List.cons_append, ofItems?, ofItems?, ih]
    cases ofTree? item <;> cases ofItems? rest <;> cases ofItems? others <;> rfl

lemma ofMembers?_cons (name : Option String) (tree : Tree) (rest : List (Option String × Tree)) :
    ofMembers? ((name, tree) :: rest) =
      name.bind fun name => (ofTree? tree).bind fun data =>
        (ofMembers? rest).map ((name, data) :: ·) := by
  simp only [ofMembers?]
  cases name <;> cases ofTree? tree <;> cases ofMembers? rest <;> rfl

lemma ofMembers?_append (members others : List (Option String × Tree)) :
    ofMembers? (members ++ others) =
      (ofMembers? members).bind fun data => (ofMembers? others).map (data ++ ·) := by
  induction members with
  | nil => simp [ofMembers?]
  | cons member rest ih =>
    obtain ⟨name, tree⟩ := member
    rw [List.cons_append, ofMembers?_cons, ofMembers?_cons, ih]
    cases name <;> cases ofTree? tree <;> cases ofMembers? rest <;> cases ofMembers? others <;> rfl

lemma ofMembers_exchange (before after : List (String × Data)) {first second : String × Data}
    (h : first.1 ≠ second.1) :
    Fields.ofMembers (before ++ second :: first :: after) =
      Fields.ofMembers (before ++ first :: second :: after) := by
  rw [Fields.ofMembers_append, Fields.ofMembers_append, List.foldl_cons, List.foldl_cons,
    List.foldl_cons, List.foldl_cons, Fields.insert_comm h]

lemma ofTree?_eq_of_exchanged {tree other : Tree} (h : Tree.Exchanged tree other) :
    ofTree? other = ofTree? tree := by
  induction h with
  | here before after h =>
    rename_i first second
    obtain ⟨name, tree⟩ := first
    obtain ⟨next, other⟩ := second
    rw [ofTree?, ofTree?, ofMembers?_append, ofMembers?_append]
    simp only [ofMembers?_cons]
    -- Where a member has no data, there is none either way.
    rcases name with _ | name
    · cases next <;> cases ofTree? other <;> rfl
    rcases next with _ | next
    · cases ofTree? tree <;> rfl
    cases ofTree? tree with
    | none => cases ofTree? other <;> rfl
    | some data =>
      cases ofTree? other with
      | none => cases ofMembers? after <;> rfl
      | some second =>
        cases ofMembers? after with
        | none => rfl
        | some rest =>
          cases ofMembers? before with
          | none => rfl
          | some front =>
            have hnames : name ≠ next := by simpa using h
            exact congrArg (fun fields => some (Data.object fields))
              (ofMembers_exchange front rest hnames)
  | item before after h ih =>
    rw [ofTree?, ofTree?, ofItems?_append, ofItems?_append, ofItems?, ofItems?, ih]
  | member before after name h ih =>
    rw [ofTree?, ofTree?, ofMembers?_append, ofMembers?_append, ofMembers?_cons, ofMembers?_cons,
      ih]

lemma ofTree?_eq_of_reordered {tree other : Tree} (h : Tree.Reordered tree other) :
    ofTree? other = ofTree? tree ∧ other.nesting = tree.nesting := by
  induction h with
  | refl => exact ⟨rfl, rfl⟩
  | tail _ hlast ih =>
    exact ⟨(ofTree?_eq_of_exchanged hlast).trans ih.1, hlast.nesting_eq.trans ih.2⟩

theorem ofText?_eq_of_reordered {text other : String} {tree reordered : Tree}
    (htext : Tree.ofText? text = some tree) (hother : Tree.ofText? other = some reordered)
    (h : Tree.Reordered tree reordered) : ofText? other = ofText? text := by
  obtain ⟨hdata, hnesting⟩ := ofTree?_eq_of_reordered h
  simp only [ofText?, htext, hother, Option.bind_eq_bind, Option.bind_some, hdata, hnesting]

end Data

end DocStore.Json
