/-!
# Outcomes

An operation on a state answers or fails, and leaves a state in both cases. Main statements: the
order in which three operations are chained does not matter (`andThen_assoc`); what a chain without
a state answers (`bind_eq_ok_iff`).
-/

namespace DocStore

/-- A chain answers when each of its parts does. -/
theorem bind_eq_ok_iff {ε α β : Type} {first : Except ε α} {next : α → Except ε β} {answer : β} :
    (first >>= next) = .ok answer ↔ ∃ value, first = .ok value ∧ next value = .ok answer := by
  cases first <;> simp [bind, Except.bind]

/-- What two parts give together is there when each of them answers. -/
theorem exists_bind_eq_ok_iff {ε α β γ : Type} {first : Except ε α} {second : Except ε β}
    (combine : α → β → γ) :
    (∃ answer, (do return combine (← first) (← second)) = .ok answer) ↔
      (∃ value, first = .ok value) ∧ ∃ value, second = .ok value := by
  cases first <;> cases second <;> simp [bind, Except.bind, pure, Except.pure]

theorem map_eq_ok_iff {ε α β : Type} {f : α → β} {result : Except ε α} {answer : β} :
    result.map f = .ok answer ↔ ∃ value, result = .ok value ∧ f value = answer := by
  cases result <;> simp [Except.map]

theorem mapError_eq_ok_iff {ε δ α : Type} {f : ε → δ} {result : Except ε α} {answer : α} :
    result.mapError f = .ok answer ↔ result = .ok answer := by
  cases result with
  | ok value => constructor <;> intro h <;> cases h <;> rfl
  | error error => constructor <;> intro h <;> cases h

/-- The answer of an operation, or why it failed, and the state that it leaves. -/
structure Outcome (ε σ α : Type) where
  answer : Except ε α
  state : σ

namespace Outcome

variable {ε δ σ τ α β γ : Type}

def pass (answer : α) (state : σ) : Outcome ε σ α := ⟨.ok answer, state⟩

def fail (error : ε) (state : σ) : Outcome ε σ α := ⟨.error error, state⟩

/-- The outcome of a change that either happens as a whole or not at all. -/
def ofExcept (old : σ) : Except ε (α × σ) → Outcome ε σ α
  | .ok (answer, state) => pass answer state
  | .error error => fail error old

/-- Goes on where an operation stopped, unless it failed. -/
def andThen (first : Outcome ε σ α) (next : α → σ → Outcome ε σ β) : Outcome ε σ β :=
  match first with
  | ⟨.ok answer, state⟩ => next answer state
  | ⟨.error error, state⟩ => fail error state

def map (f : α → β) (outcome : Outcome ε σ α) : Outcome ε σ β :=
  ⟨outcome.answer.map f, outcome.state⟩

def mapError (f : ε → δ) (outcome : Outcome ε σ α) : Outcome δ σ α :=
  ⟨outcome.answer.mapError f, outcome.state⟩

def mapState (f : σ → τ) (outcome : Outcome ε σ α) : Outcome ε τ α :=
  ⟨outcome.answer, f outcome.state⟩

@[simp] theorem pass_andThen (answer : α) (state : σ) (next : α → σ → Outcome ε σ β) :
    (pass answer state).andThen next = next answer state := rfl

@[simp] theorem fail_andThen (error : ε) (state : σ) (next : α → σ → Outcome ε σ β) :
    (fail error state).andThen next = fail error state := rfl

theorem andThen_assoc (first : Outcome ε σ α) (second : α → σ → Outcome ε σ β)
    (third : β → σ → Outcome ε σ γ) :
    (first.andThen second).andThen third =
      first.andThen fun answer state => (second answer state).andThen third := by
  rcases first with ⟨_ | answer, state⟩ <;> rfl

end Outcome

end DocStore
