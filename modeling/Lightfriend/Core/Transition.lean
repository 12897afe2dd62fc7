import Mathlib.Tactic

/-! # Guarded runs of a transition function

An action carries every choice its step depends on, so a step is a partial
function. A run takes its actions in order and is undefined as soon as one of
them is not enabled. A guard constrains the actions of a run through the states
they are actually taken from; the two induction rules below are the only place
where a run is unfolded.
-/

namespace Lightfriend.Transition

variable {σ α : Type}

/-- Take the actions in order, from `s`. -/
def run (step : σ → α → Option σ) : σ → List α → Option σ
  | s, [] => some s
  | s, a :: rest =>
      match step s a with
      | none => none
      | some next => run step next rest

/-- The state a run ends in, or its first state when the run is undefined. -/
def final (step : σ → α → Option σ) (s : σ) (actions : List α) : σ :=
  (run step s actions).getD s

/-- Every action of the run meets `ok` in the state it is taken from. -/
def Meets (step : σ → α → Option σ) (ok : σ → α → Prop) : σ → List α → Prop
  | _, [] => True
  | s, a :: rest =>
      ok s a ∧ match step s a with
        | none => True
        | some next => Meets step ok next rest

instance decidableMeets (step : σ → α → Option σ) (ok : σ → α → Prop)
    [∀ s a, Decidable (ok s a)] : ∀ s as, Decidable (Meets step ok s as)
  | _, [] => isTrue trivial
  | s, a :: rest =>
      @instDecidableAnd _ _ inferInstance <|
        match step s a with
        | none => isTrue trivial
        | some next => decidableMeets step ok next rest

section Rules

variable {step : σ → α → Option σ} {ok : σ → α → Prop}

@[simp] theorem run_nil (s : σ) : run step s [] = some s := rfl

theorem run_cons_of_step {s next : σ} {a : α} {rest : List α} (h : step s a = some next) :
    run step s (a :: rest) = run step next rest := by
  simp [run, h]

theorem run_cons_spec {s final : σ} {a : α} {rest : List α}
    (h : run step s (a :: rest) = some final) :
    ∃ next, step s a = some next ∧ run step next rest = some final := by
  cases hs : step s a with
  | none => simp [run, hs] at h
  | some next => exact ⟨next, rfl, by rwa [run_cons_of_step hs] at h⟩

theorem run_eq_final {s : σ} {actions : List α} (h : (run step s actions).isSome = true) :
    run step s actions = some (final step s actions) := by
  obtain ⟨t, ht⟩ := Option.isSome_iff_exists.mp h
  rw [final, ht]
  rfl

/-- Split a run at any point of its action list. -/
theorem run_append {s final : σ} {first rest : List α} :
    run step s (first ++ rest) = some final ↔
      ∃ middle, run step s first = some middle ∧ run step middle rest = some final := by
  induction first generalizing s with
  | nil => simp
  | cons a first ih =>
      cases hs : step s a with
      | none => simp [run, hs]
      | some next => simp [run, hs, ih]

theorem Meets.head {s : σ} {a : α} {rest : List α} (h : Meets step ok s (a :: rest)) :
    ok s a := h.1

theorem Meets.tail {s next : σ} {a : α} {rest : List α} (h : Meets step ok s (a :: rest))
    (hs : step s a = some next) : Meets step ok next rest := by
  simpa [hs] using h.2

/-- A guarded run is guarded up to any point of it and from there on. -/
theorem Meets.append {s : σ} {first rest : List α} (h : Meets step ok s (first ++ rest)) :
    Meets step ok s first ∧
      ∀ middle, run step s first = some middle → Meets step ok middle rest := by
  induction first generalizing s with
  | nil =>
      refine ⟨trivial, fun middle hrun => ?_⟩
      simp only [run_nil, Option.some.injEq] at hrun
      exact hrun ▸ h
  | cons a first ih =>
      cases hs : step s a with
      | none => exact ⟨⟨h.1, by simp [hs]⟩, by simp [run, hs]⟩
      | some next =>
          have htail := ih (h.tail hs)
          refine ⟨⟨h.1, by simpa only [hs] using htail.1⟩, fun middle hrun => ?_⟩
          rw [run_cons_of_step hs] at hrun
          exact htail.2 middle hrun

/-- A guard that follows from another one on every enabled action is met by the same runs. -/
theorem Meets.weaken {ok' : σ → α → Prop} (himp : ∀ s a, ok s a → ok' s a) {s : σ}
    {actions : List α} (h : Meets step ok s actions) : Meets step ok' s actions := by
  induction actions generalizing s with
  | nil => trivial
  | cons a rest ih =>
      refine ⟨himp s a h.head, ?_⟩
      cases hs : step s a with
      | none => trivial
      | some next => exact ih (h.tail hs)

/-- The invariant rule: what every guarded step preserves holds wherever a guarded run ends. -/
theorem run_invariant {inv : σ → Prop}
    (hstep : ∀ s a next, inv s → ok s a → step s a = some next → inv next)
    {s final : σ} {actions : List α} (hinit : inv s) (hmeets : Meets step ok s actions)
    (hrun : run step s actions = some final) : inv final := by
  induction actions generalizing s with
  | nil =>
      simp only [run_nil, Option.some.injEq] at hrun
      exact hrun ▸ hinit
  | cons a rest ih =>
      obtain ⟨next, hs, htail⟩ := run_cons_spec hrun
      exact ih (hstep s a next hinit hmeets.head hs) (hmeets.tail hs) htail

end Rules

/-- The unguarded invariant rule. -/
theorem run_invariant_all {step : σ → α → Option σ} {inv : σ → Prop}
    (hstep : ∀ s a next, inv s → step s a = some next → inv next)
    {s final : σ} {actions : List α} (hinit : inv s)
    (hrun : run step s actions = some final) : inv final := by
  induction actions generalizing s with
  | nil =>
      simp only [run_nil, Option.some.injEq] at hrun
      exact hrun ▸ hinit
  | cons a rest ih =>
      obtain ⟨next, hs, htail⟩ := run_cons_spec hrun
      exact ih (hstep s a next hinit hs) htail

end Lightfriend.Transition
