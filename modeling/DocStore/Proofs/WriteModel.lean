import DocStore.Proofs.FilterExpression
import DocStore.Proofs.UpdateExpression
import DocStore.WriteModel

/-!
# The grammar of updates and write models

An update expression has assignments and increments by numbers (`IsUpdateExpression`). A write
model is an object with the one member `updateOne`, a body whose parts are read or absent
(`WriteModel.IsReadFrom`). Everything else is a fault of the update, unless the body is there and
its filter is at fault (`WriteModel.expression_grammar`).
-/

namespace DocStore

/-- A member of an update expression. -/
inductive Update.IsOperator : String × Value → Prop
  | assign (fields : Document) : IsOperator ("$set", .object fields)
  | increment {deltas : Document} (h : ∀ delta ∈ deltas, delta.2.isNumber = true) :
      IsOperator ("$inc", .object deltas)

/-- An object whose members are the operators of updates. -/
inductive IsUpdateExpression : Value → Prop
  | object {operators : Document} (h : ∀ operator ∈ operators, Update.IsOperator operator) :
      IsUpdateExpression (.object operators)

namespace Update

lemma exists_ofDeltas?_iff (deltas : Document) :
    (∃ ops, ofDeltas? deltas = .ok ops) ↔ ∀ delta ∈ deltas, delta.2.isNumber = true := by
  induction deltas with
  | nil => simp [ofDeltas?]
  | cons member rest ih =>
    obtain ⟨path, delta⟩ := member
    rw [List.forall_mem_cons, ← ih]
    cases hnumber : delta.isNumber with
    | true => cases h : ofDeltas? rest <;> simp [ofDeltas?, hnumber, h, Except.map]
    | false => simp [ofDeltas?, hnumber]

lemma exists_ofMember?_iff (operator : String) (operand : Value) :
    (∃ ops, ofMember? operator operand = .ok ops) ↔ IsOperator (operator, operand) := by
  constructor
  · rintro ⟨ops, h⟩
    obtain ⟨fields, rfl, ⟨rfl, -⟩ | ⟨rfl, -⟩⟩ := ofMember?_eq_ok h
    · exact .assign fields
    · exact .increment ((exists_ofDeltas?_iff fields).mp ⟨ops, h⟩)
  · intro h
    cases h with
    | assign fields => exact ⟨_, rfl⟩
    | increment hnumbers => exact (exists_ofDeltas?_iff _).mpr hnumbers

lemma exists_ofMembers?_iff (operators : Document) :
    (∃ ops, ofMembers? operators = .ok ops) ↔ ∀ operator ∈ operators, IsOperator operator := by
  induction operators with
  | nil => simp [ofMembers?]
  | cons member rest ih =>
    obtain ⟨operator, operand⟩ := member
    rw [List.forall_mem_cons, ← ih, ← exists_ofMember?_iff]
    simp only [ofMembers?, exists_bind_eq_ok_iff]

lemma exists_ofValue?_iff (value : Value) :
    (∃ update, ofValue? value = .ok update) ↔ IsUpdateExpression value := by
  cases value with
  | object operators =>
    have hmembers : (∃ update, ofValue? (.object operators) = .ok update) ↔
        ∃ ops, ofMembers? operators = .ok ops := by
      cases h : ofMembers? operators <;> simp [ofValue?, h, Except.map]
    rw [hmembers, exists_ofMembers?_iff]
    constructor
    · exact .object
    · rintro ⟨hoperators⟩
      exact hoperators
  | _ =>
    constructor
    · rintro ⟨update, h⟩
      cases h
    · intro h
      cases h

end Update

namespace WriteModel

/-- The parts of a write model are read from the members of a body, as far as they are present. -/
structure IsReadFrom (body : Document) (model : WriteModel) : Prop where
  filter : match Fields.get? "filter" body with
    | none => model.filter = .empty
    | some expression => Filter.ofValue? expression = .ok model.filter
  update : match Fields.get? "update" body with
    | none => model.update = .empty
    | some expression => Update.ofValue? expression = .ok model.update
  upsert : match Fields.get? "upsert" body with
    | none | some .null => model.upsert = false
    | some flag => flag = .bool model.upsert

lemma upsertOf?_eq_ok_iff (found : Option Value) (upsert : Bool) :
    upsertOf? found = .ok upsert ↔
      match found with
      | none | some .null => upsert = false
      | some flag => flag = .bool upsert := by
  rcases found with _ | flag
  · simp [upsertOf?, eq_comm]
  · cases flag <;> simp [upsertOf?, eq_comm]

lemma ofBody?_eq_ok_iff (body : Document) (model : WriteModel) :
    ofBody? body = .ok model ↔ model.IsReadFrom body := by
  have hfilter : Filter.ofValue? ((Fields.get? "filter" body).getD .null) = .ok model.filter ↔
      match Fields.get? "filter" body with
      | none => model.filter = .empty
      | some expression => Filter.ofValue? expression = .ok model.filter := by
    cases Fields.get? "filter" body <;> simp [Filter.ofValue?, eq_comm]
  have hupdate : Update.ofValue? ((Fields.get? "update" body).getD (.object [])) =
        .ok model.update ↔
      match Fields.get? "update" body with
      | none => model.update = .empty
      | some expression => Update.ofValue? expression = .ok model.update := by
    cases Fields.get? "update" body <;>
      simp [Update.ofValue?, Update.ofMembers?, Except.map, Update.empty, eq_comm]
  have hupsert := upsertOf?_eq_ok_iff (Fields.get? "upsert" body) model.upsert
  simp only [ofBody?, bind_eq_ok_iff, mapError_eq_ok_iff]
  constructor
  · rintro ⟨filter, hreadFilter, update, hreadUpdate, upsert, hreadUpsert, hmodel⟩
    cases hmodel
    exact ⟨hfilter.mp hreadFilter, hupdate.mp hreadUpdate, hupsert.mp hreadUpsert⟩
  · intro h
    exact ⟨_, hfilter.mpr h.filter, _, hupdate.mpr h.update, _, hupsert.mpr h.upsert, rfl⟩

lemma ofBody?_eq_filter_fault_iff (body : Document) (fault : FilterFault) :
    ofBody? body = .error (.filter fault) ↔ ∃ expression,
      Fields.get? "filter" body = some expression ∧ Filter.ofValue? expression = .error fault := by
  have hfilter : Filter.ofValue? ((Fields.get? "filter" body).getD .null) = .error fault ↔
      ∃ expression, Fields.get? "filter" body = some expression ∧
        Filter.ofValue? expression = .error fault := by
    cases Fields.get? "filter" body <;> simp [Filter.ofValue?]
  rw [← hfilter]
  unfold ofBody?
  cases Filter.ofValue? ((Fields.get? "filter" body).getD .null) with
  | error other => simp [Except.mapError, bind, Except.bind]
  | ok filter =>
    cases Update.ofValue? ((Fields.get? "update" body).getD (.object [])) with
    | error other => simp [Except.mapError, bind, Except.bind]
    | ok update =>
      cases upsertOf? (Fields.get? "upsert" body) <;>
        simp [Except.mapError, bind, Except.bind, pure, Except.pure]

lemma eq_singleton_of_erase_eq_nil {α : Type} {key : String} {value : α} {fields : Fields α}
    (hget : Fields.get? key fields = some value) (herase : Fields.erase key fields = []) :
    fields = [(key, value)] := by
  cases fields with
  | nil => cases hget
  | cons member rest =>
    obtain ⟨name, first⟩ := member
    rw [Fields.erase] at herase
    split at herase
    · rename_i hname
      rw [Fields.get?_cons, if_pos hname] at hget
      rw [Option.some.inj hget, ← hname, herase]
    · cases herase

/-- An object with the one member `updateOne` is read as its body is; everything else has a fault,
and it is not one of the filter. -/
lemma ofValue?_cases (value : Value) :
    (∃ body, value = .object [("updateOne", .object body)] ∧ ofValue? value = ofBody? body) ∨
      (∀ body, value ≠ .object [("updateOne", .object body)]) ∧
        ∃ fault, ofValue? value = .error (.update fault) := by
  by_cases hbody : ∃ body, value = .object [("updateOne", .object body)]
  · obtain ⟨body, rfl⟩ := hbody
    exact .inl ⟨body, rfl, by simp [ofValue?, Fields.erase]⟩
  · refine .inr ⟨fun body h => hbody ⟨body, h⟩, ?_⟩
    unfold ofValue?
    split
    · split
      · rename_i body hget
        split
        · rename_i herase
          exact absurd ⟨body, congrArg _ (eq_singleton_of_erase_eq_nil hget herase)⟩ hbody
        · exact ⟨_, rfl⟩
      · exact ⟨_, rfl⟩
    · exact ⟨_, rfl⟩

lemma ofValue?_eq_ok_iff (value : Value) (model : WriteModel) :
    ofValue? value = .ok model ↔
      ∃ body, value = .object [("updateOne", .object body)] ∧ model.IsReadFrom body := by
  rcases ofValue?_cases value with ⟨body, rfl, hread⟩ | ⟨hne, fault, hread⟩
  · rw [hread, ofBody?_eq_ok_iff]
    simp
  · rw [hread]
    simpa using fun body h => absurd h (hne body)

lemma ofValue?_eq_filter_fault_iff (value : Value) (fault : FilterFault) :
    ofValue? value = .error (.filter fault) ↔
      ∃ body expression, value = .object [("updateOne", .object body)] ∧
        Fields.get? "filter" body = some expression ∧
        Filter.ofValue? expression = .error fault := by
  rcases ofValue?_cases value with ⟨body, rfl, hread⟩ | ⟨hne, other, hread⟩
  · rw [hread, ofBody?_eq_filter_fault_iff]
    simp
  · rw [hread]
    simpa using fun body h => absurd h (hne body)

lemma exists_update_fault_iff (value : Value) :
    (∃ fault, ofValue? value = .error (.update fault)) ↔
      ∀ body, value = .object [("updateOne", .object body)] →
        (∀ model : WriteModel, ¬model.IsReadFrom body) ∧
        ∀ expression, Fields.get? "filter" body = some expression →
          IsFilterExpression expression := by
  have hok := ofValue?_eq_ok_iff value
  have hfilter := ofValue?_eq_filter_fault_iff value
  constructor
  · rintro ⟨fault, h⟩ body hbody
    refine ⟨fun model hmodel => ?_, fun expression hget => ?_⟩
    · have hread := (hok model).mpr ⟨body, hbody, hmodel⟩
      rw [h] at hread
      cases hread
    · rw [← Filter.exists_ofValue?_iff]
      cases hexpression : Filter.ofValue? expression with
      | ok filter => exact ⟨filter, rfl⟩
      | error other =>
        have hread := (hfilter other).mpr ⟨body, expression, hbody, hget, hexpression⟩
        rw [h] at hread
        cases hread
  · intro h
    cases hread : ofValue? value with
    | ok model =>
      obtain ⟨body, hbody, hmodel⟩ := (hok model).mp hread
      exact absurd hmodel ((h body hbody).1 model)
    | error fault =>
      cases fault with
      | update fault => exact ⟨fault, rfl⟩
      | filter fault =>
        obtain ⟨body, expression, hbody, hget, hexpression⟩ := (hfilter fault).mp hread
        obtain ⟨filter, hok⟩ := (Filter.exists_ofValue?_iff _).mpr
          ((h body hbody).2 expression hget)
        rw [hexpression] at hok
        cases hok

/-- What is read from a value: an update when it is an update expression, with the increments and
assignments that are written there, and a write model when it has the body of one. A fault of the
filter is reported when there is a body, every other fault as one of the update. -/
structure ReadsExpression (value : Value) : Prop where
  update : (∃ update, Update.ofValue? value = .ok update) ↔ IsUpdateExpression value
  updateFault : (∃ fault, Update.ofValue? value = .error fault) ↔ ¬IsUpdateExpression value
  operations : ∀ update, Update.ofValue? value = .ok update →
    update.ops = (Update.added (Document.ofValue value)).map
        (fun member => .increment member.1 member.2) ++
      (Update.assigned (Document.ofValue value)).map
        (fun member => .assign member.1 member.2) ∧
    (Update.added (Document.ofValue value)).Ascending ∧
    (Update.assigned (Document.ofValue value)).Ascending
  model : ∀ model, ofValue? value = .ok model ↔
    ∃ body, value = .object [("updateOne", .object body)] ∧ model.IsReadFrom body
  filterFault : ∀ fault, ofValue? value = .error (.filter fault) ↔
    ∃ body expression, value = .object [("updateOne", .object body)] ∧
      Fields.get? "filter" body = some expression ∧
      Filter.ofValue? expression = .error fault
  otherFault : (∃ fault, ofValue? value = .error (.update fault)) ↔
    ∀ body, value = .object [("updateOne", .object body)] →
      (∀ model : WriteModel, ¬model.IsReadFrom body) ∧
      ∀ expression, Fields.get? "filter" body = some expression →
        IsFilterExpression expression

/-- Updates and write models are read from their expressions and from nothing else, and what is read
is what is written there. -/
theorem expression_grammar {value : Value} (hordered : value.Ordered) : ReadsExpression value where
  update := Update.exists_ofValue?_iff value
  updateFault := by
    rw [← Update.exists_ofValue?_iff value]
    cases Update.ofValue? value <;> simp
  operations := by
    intro update h
    cases value with
    | object fields =>
      have hfields : Document.Ordered fields := hordered
      exact ⟨Update.ops_of_ofValue? ((Value.ordered_object_iff _).mp hfields).1 h,
        ((Value.ordered_object_iff _).mp (hfields.child "$inc")).1,
        ((Value.ordered_object_iff _).mp (hfields.child "$set")).1⟩
    | _ => cases h
  model := ofValue?_eq_ok_iff value
  filterFault := ofValue?_eq_filter_fault_iff value
  otherFault := exists_update_fault_iff value

/-- A body with all three parts, whose update increments one field and assigns two. -/
theorem expression_grammar_of_body :
    let update : Value := .object [("$inc", .object [("n", .int 1)]),
      ("$set", .object [("a", .null), ("b", .bool true)])]
    let body : Document := [("filter", .object [("a", .object [("$exists", .bool true)])]),
      ("update", update), ("upsert", .bool true)]
    let ops : List UpdateOp :=
      [.increment "n" (.int 1), .assign "a" .null, .assign "b" (.bool true)]
    let model : WriteModel := ⟨⟨[⟨"a", .present true⟩]⟩, ⟨ops⟩, true⟩
    (Value.object [("updateOne", .object body)]).Ordered ∧ IsUpdateExpression update ∧
      (∃ read, Update.ofValue? update = .ok read ∧ read.ops = ops) ∧
      model.IsReadFrom body := by
  intro update body ops model
  have hvalue : (Value.object [("updateOne", .object body)]).Ordered := by
    have hkeys : ["filter", "update", "upsert"].Pairwise (· < ·) ∧
        ["$inc", "$set"].Pairwise (· < ·) ∧ ["a", "b"].Pairwise (· < ·) := by decide +kernel
    simpa [body, update, Value.Ordered, Value.OrderedFields, Fields.Ascending] using hkeys
  have hupdate : update.Ordered := by
    have hbody : Document.Ordered body := Document.Ordered.of_mem hvalue List.mem_cons_self
    exact Document.Ordered.of_mem hbody (List.mem_cons_of_mem _ List.mem_cons_self)
  have hread := expression_grammar hupdate
  have hok : Update.ofValue? update = .ok ⟨ops⟩ := rfl
  refine ⟨hvalue, hread.update.mp ⟨_, hok⟩, ⟨_, hok, (hread.operations _ hok).1⟩, ?_⟩
  obtain ⟨found, hfound, hparts⟩ := ((expression_grammar hvalue).model model).mp rfl
  cases hfound
  exact hparts

end WriteModel

end DocStore
