/-! # How a statement ends

A statement is carried out and answered, refused, or carried out without its
answer reaching the caller, who then sees the error of a refused one.
-/

namespace Lightfriend

inductive StatementFate
  | done
  | refused
  | lost
deriving DecidableEq, Repr

namespace StatementFate

/-- What the statement leaves in the store. -/
def after {σ : Type} (before written : σ) : StatementFate → σ
  | done => written
  | refused => before
  | lost => written

/-- What the caller learns; an error is `none`. -/
def answer {α : Type} (value : α) : StatementFate → Option α
  | done => some value
  | refused => none
  | lost => none

theorem answer_eq_some {α : Type} {value value' : α} {fate : StatementFate}
    (h : fate.answer value = some value') : fate = .done ∧ value = value' := by
  cases fate with
  | done => exact ⟨rfl, Option.some.inj h⟩
  | refused => cases h
  | lost => cases h

@[simp] theorem after_self {σ : Type} (t : σ) (fate : StatementFate) : fate.after t t = t := by
  cases fate <;> rfl

theorem after_cases {σ : Type} (before written : σ) (fate : StatementFate) :
    fate.after before written = before ∨ fate.after before written = written := by
  cases fate with
  | done => exact Or.inr rfl
  | refused => exact Or.inl rfl
  | lost => exact Or.inr rfl

/-- What holds before a statement and of what it writes holds after it. -/
theorem after_keeps {σ : Type} (P : σ → Prop) {before written : σ} (hbefore : P before)
    (hwritten : P written) (fate : StatementFate) : P (fate.after before written) := by
  rcases fate.after_cases before written with heq | heq
  · rw [heq]
    exact hbefore
  · rw [heq]
    exact hwritten

end StatementFate

end Lightfriend
