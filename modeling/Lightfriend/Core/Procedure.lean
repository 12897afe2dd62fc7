import Mathlib.Tactic

/-! # Procedures with effects and early returns

A procedure threads a state, issues effects in order, and either goes on with a
value or returns early. What a sequence of procedures issues, and where it goes
on, is read off its parts by `issues_bind` and `goes_bind`; `Keeps` is the
invariant rule over the state and the effects issued so far.
-/

namespace Lightfriend

/-- How a procedure ended; `value` is `none` once it has returned early. -/
structure Outcome (σ ε α : Type) where
  state : σ
  effects : List ε
  value : Option α

def Procedure (σ ε α : Type) : Type := σ → Outcome σ ε α

namespace Procedure

variable {σ ε α β : Type}

def bind (p : Procedure σ ε α) (f : α → Procedure σ ε β) : Procedure σ ε β := fun s =>
  match (p s).value with
  | none => ⟨(p s).state, (p s).effects, none⟩
  | some a =>
      ⟨(f a (p s).state).state, (p s).effects ++ (f a (p s).state).effects,
        (f a (p s).state).value⟩

instance : Monad (Procedure σ ε) where
  pure a := fun s => ⟨s, [], some a⟩
  bind := bind

def emit (e : ε) : Procedure σ ε Unit := fun s => ⟨s, [e], some ()⟩

/-- Return early. -/
def leave : Procedure σ ε α := fun s => ⟨s, [], none⟩

def read : Procedure σ ε σ := fun s => ⟨s, [], some s⟩

def modify (f : σ → σ) : Procedure σ ε Unit := fun s => ⟨f s, [], some ()⟩

/-! ## What a procedure does -/

/-- From `s` the procedure goes on with `a` in the state `t`. -/
def Goes (p : Procedure σ ε α) (s : σ) (a : α) (t : σ) : Prop :=
  (p s).value = some a ∧ (p s).state = t

/-- From `s` the procedure issues the effect `e`. -/
def Issues (p : Procedure σ ε α) (s : σ) (e : ε) : Prop := e ∈ (p s).effects

instance [DecidableEq ε] (p : Procedure σ ε α) (s : σ) (e : ε) : Decidable (p.Issues s e) :=
  inferInstanceAs (Decidable (e ∈ (p s).effects))

variable {p : Procedure σ ε α} {f : α → Procedure σ ε β} {s t : σ} {e : ε}

@[simp] theorem goes_pure {a b : α} :
    Goes (pure a : Procedure σ ε α) s b t ↔ a = b ∧ s = t := by
  constructor
  · rintro ⟨hvalue, hstate⟩
    exact ⟨Option.some.inj hvalue, hstate⟩
  · rintro ⟨rfl, rfl⟩
    exact ⟨rfl, rfl⟩

@[simp] theorem not_issues_pure {a : α} : ¬ Issues (pure a : Procedure σ ε α) s e :=
  List.not_mem_nil

@[simp] theorem goes_emit {d : ε} {u : Unit} : Goes (emit d) s u t ↔ s = t := by
  constructor
  · exact fun h => h.2
  · rintro rfl
    exact ⟨rfl, rfl⟩

@[simp] theorem issues_emit {d : ε} : Issues (emit d) s e ↔ e = d := List.mem_singleton

@[simp] theorem not_goes_leave {a : α} : ¬ Goes (leave : Procedure σ ε α) s a t := by
  rintro ⟨hvalue, _⟩
  cases hvalue

@[simp] theorem not_issues_leave : ¬ Issues (leave : Procedure σ ε α) s e := List.not_mem_nil

@[simp] theorem goes_read {a : σ} : Goes (read : Procedure σ ε σ) s a t ↔ s = a ∧ s = t := by
  constructor
  · rintro ⟨hvalue, hstate⟩
    exact ⟨Option.some.inj hvalue, hstate⟩
  · rintro ⟨rfl, rfl⟩
    exact ⟨rfl, rfl⟩

@[simp] theorem not_issues_read : ¬ Issues (read : Procedure σ ε σ) s e := List.not_mem_nil

@[simp] theorem goes_modify {g : σ → σ} {u : Unit} :
    Goes (modify g : Procedure σ ε Unit) s u t ↔ g s = t := by
  constructor
  · exact fun h => h.2
  · rintro rfl
    exact ⟨rfl, rfl⟩

@[simp] theorem not_issues_modify {g : σ → σ} :
    ¬ Issues (modify g : Procedure σ ε Unit) s e := List.not_mem_nil

@[simp] theorem goes_bind {b : β} :
    Goes (p >>= f) s b t ↔ ∃ a mid, Goes p s a mid ∧ Goes (f a) mid b t := by
  change Goes (bind p f) s b t ↔ _
  cases h : (p s).value with
  | none => simp [Goes, bind, h]
  | some a => simp [Goes, bind, h]

@[simp] theorem issues_bind :
    Issues (p >>= f) s e ↔ Issues p s e ∨ ∃ a mid, Goes p s a mid ∧ Issues (f a) mid e := by
  change Issues (bind p f) s e ↔ _
  cases h : (p s).value with
  | none => simp [Issues, Goes, bind, h]
  | some a => simp [Issues, Goes, bind, h]

theorem effects_bind : ((p >>= f) s).effects = (p s).effects ++
    match (p s).value with
    | none => []
    | some a => (f a (p s).state).effects := by
  change (bind p f s).effects = _
  cases h : (p s).value with
  | none => simp [bind, h]
  | some a => simp [bind, h]

theorem bind_apply {a : α} {effects : List ε} (h : p s = ⟨t, effects, some a⟩) :
    (p >>= f) s = ⟨(f a t).state, effects ++ (f a t).effects, (f a t).value⟩ := by
  change bind p f s = _
  unfold bind
  rw [h]

theorem bind_stop {effects : List ε} (h : p s = ⟨t, effects, none⟩) :
    (p >>= f) s = ⟨t, effects, none⟩ := by
  change bind p f s = _
  unfold bind
  rw [h]

theorem bind_assoc_apply {γ : Type} {g : β → Procedure σ ε γ} :
    (p >>= f >>= g) s = (p >>= fun a => f a >>= g) s := by
  change bind (bind p f) g s = bind p (fun a => bind (f a) g) s
  cases h : (p s).value with
  | none => simp [bind, h]
  | some a =>
      cases h' : (f a (p s).state).value with
      | none => simp [bind, h, h']
      | some b => simp [bind, h, h']

theorem read_bind_apply {f : σ → Procedure σ ε β} : (read >>= f) s = f s s := rfl

/-- A procedure goes on at most once. -/
theorem Goes.unique {a b : α} {u : σ} (h : Goes p s a t) (h' : Goes p s b u) : a = b ∧ t = u :=
  ⟨Option.some.inj (h.1.symm.trans h'.1), h.2.symm.trans h'.2⟩

/-! ## Restricting the effects -/

/-- Every effect of the procedure satisfies `allowed`. -/
def OnlyIssues (allowed : ε → Prop) (p : Procedure σ ε α) : Prop :=
  ∀ s e, Issues p s e → allowed e

section OnlyIssues

variable {allowed : ε → Prop}

theorem onlyIssues_pure (a : α) : OnlyIssues allowed (pure a : Procedure σ ε α) :=
  fun _ _ h => absurd h not_issues_pure

theorem onlyIssues_leave : OnlyIssues allowed (leave : Procedure σ ε α) :=
  fun _ _ h => absurd h not_issues_leave

theorem onlyIssues_read : OnlyIssues allowed (read : Procedure σ ε σ) :=
  fun _ _ h => absurd h not_issues_read

theorem onlyIssues_modify (g : σ → σ) : OnlyIssues allowed (modify g : Procedure σ ε Unit) :=
  fun _ _ h => absurd h not_issues_modify

theorem onlyIssues_emit {d : ε} (h : allowed d) :
    OnlyIssues allowed (emit d : Procedure σ ε Unit) := by
  intro s e he
  rw [issues_emit] at he
  exact he ▸ h

theorem OnlyIssues.bind (hp : OnlyIssues allowed p) (hf : ∀ a, OnlyIssues allowed (f a)) :
    OnlyIssues allowed (p >>= f) := by
  intro s e he
  rcases issues_bind.1 he with he | ⟨a, mid, _, he⟩
  · exact hp s e he
  · exact hf a mid e he

/-- An effect the first part never issues is issued after it went on. -/
theorem OnlyIssues.issues_bind_iff (hp : OnlyIssues allowed p) (he : ¬ allowed e) :
    Issues (p >>= f) s e ↔ ∃ a mid, Goes p s a mid ∧ Issues (f a) mid e := by
  rw [issues_bind]
  constructor
  · intro h
    exact h.resolve_left (fun hissued => he (hp s e hissued))
  · exact Or.inr

end OnlyIssues

/-! ## Procedures that only read -/

/-- The procedure leaves the state as it is. -/
def Steady (p : Procedure σ ε α) : Prop := ∀ s, (p s).state = s

theorem steady_pure (a : α) : Steady (pure a : Procedure σ ε α) := fun _ => rfl

theorem steady_leave : Steady (leave : Procedure σ ε α) := fun _ => rfl

theorem steady_read : Steady (read : Procedure σ ε σ) := fun _ => rfl

theorem steady_emit (e : ε) : Steady (emit e : Procedure σ ε Unit) := fun _ => rfl

theorem Steady.bind (hp : Steady p) (hf : ∀ a, Steady (f a)) : Steady (p >>= f) := by
  intro s
  change (Procedure.bind p f s).state = s
  unfold Procedure.bind
  split
  · exact hp s
  next a _ =>
    change (f a (p s).state).state = s
    rw [hf a, hp s]

/-! ## Pre- and postconditions

Conditions speak about the state and the log of all effects so far. A procedure that goes
on meets `post`; one that returned early meets `early`.
-/

def Ensures (pre : σ → List ε → Prop) (p : Procedure σ ε α) (post : α → σ → List ε → Prop)
    (early : σ → List ε → Prop) : Prop :=
  ∀ s log, pre s log →
    match (p s).value with
    | none => early (p s).state (log ++ (p s).effects)
    | some a => post a (p s).state (log ++ (p s).effects)

section Ensures

variable {pre early : σ → List ε → Prop} {mid : α → σ → List ε → Prop}
  {post : β → σ → List ε → Prop}

theorem ensures_pure {a : α} (h : ∀ s log, pre s log → mid a s log) :
    Ensures pre (pure a) mid early := by
  intro s log hs
  change mid a s (log ++ [])
  rw [List.append_nil]
  exact h s log hs

theorem ensures_leave (h : ∀ s log, pre s log → early s log) :
    Ensures pre (leave : Procedure σ ε α) mid early := by
  intro s log hs
  change early s (log ++ [])
  rw [List.append_nil]
  exact h s log hs

theorem ensures_read {mid : σ → σ → List ε → Prop} (h : ∀ s log, pre s log → mid s s log) :
    Ensures pre (read : Procedure σ ε σ) mid early := by
  intro s log hs
  change mid s s (log ++ [])
  rw [List.append_nil]
  exact h s log hs

theorem ensures_modify {g : σ → σ} {mid : Unit → σ → List ε → Prop}
    (h : ∀ s log, pre s log → mid () (g s) log) : Ensures pre (modify g) mid early := by
  intro s log hs
  change mid () (g s) (log ++ [])
  rw [List.append_nil]
  exact h s log hs

theorem ensures_emit {d : ε} {mid : Unit → σ → List ε → Prop}
    (h : ∀ s log, pre s log → mid () s (log ++ [d])) : Ensures pre (emit d) mid early := h

theorem Ensures.bind (hp : Ensures pre p mid early) (hf : ∀ a, Ensures (mid a) (f a) post early) :
    Ensures pre (p >>= f) post early := by
  intro s log hs
  have hfirst := hp s log hs
  change match (Procedure.bind p f s).value with
    | none => early (Procedure.bind p f s).state (log ++ (Procedure.bind p f s).effects)
    | some b => post b (Procedure.bind p f s).state (log ++ (Procedure.bind p f s).effects)
  unfold Procedure.bind
  cases h : (p s).value with
  | none =>
      rw [h] at hfirst
      exact hfirst
  | some a =>
      rw [h] at hfirst
      have hrest := hf a _ _ hfirst
      rw [List.append_assoc] at hrest
      exact hrest

theorem Ensures.weaken {post' : α → σ → List ε → Prop} {early' : σ → List ε → Prop}
    (h : Ensures pre p mid early) (hpost : ∀ a s log, mid a s log → post' a s log)
    (hearly : ∀ s log, early s log → early' s log) : Ensures pre p post' early' := by
  intro s log hs
  have hend := h s log hs
  split
  next hvalue =>
    rw [hvalue] at hend
    exact hearly _ _ hend
  next a hvalue =>
    rw [hvalue] at hend
    exact hpost a _ _ hend

/-- What holds before also holds after, however the procedure ends. -/
def Keeps (inv : σ → List ε → Prop) (p : Procedure σ ε α) : Prop :=
  Ensures inv p (fun _ => inv) inv

theorem Keeps.apply {inv : σ → List ε → Prop} (h : Keeps inv p) {s : σ} {log : List ε}
    (hs : inv s log) : inv (p s).state (log ++ (p s).effects) := by
  have hend := h s log hs
  cases hvalue : (p s).value with
  | none => rwa [hvalue] at hend
  | some a => rwa [hvalue] at hend

theorem keeps_of_apply {inv : σ → List ε → Prop}
    (h : ∀ s log, inv s log → inv (p s).state (log ++ (p s).effects)) : Keeps inv p := by
  intro s log hs
  have hend := h s log hs
  split <;> exact hend

/-- A procedure that only reads keeps what further effects do not break. -/
theorem Steady.keeps {inv : σ → List ε → Prop} (h : Steady p)
    (happend : ∀ s log rest, inv s log → inv s (log ++ rest)) : Keeps inv p := by
  apply keeps_of_apply
  intro s log hs
  rw [h s]
  exact happend s log _ hs

theorem Keeps.bind {inv : σ → List ε → Prop} (hp : Keeps inv p) (hf : ∀ a, Keeps inv (f a)) :
    Keeps inv (p >>= f) :=
  Ensures.bind hp hf

end Ensures

end Procedure

end Lightfriend
