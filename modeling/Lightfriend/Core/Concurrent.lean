import Lightfriend.Core.Program

/-! # Programs that run at the same time

Any number of programs issue their statements on one store, one statement at a
time and in any order; each may stop anywhere for good. A protocol says what the
issuer of each statement knows. What a store and the knowledge of all issuers
keep under every allowed statement they keep in every run.
-/

namespace Lightfriend

/-- A program, and what its issuer knows. -/
structure Running (S : Type) (A : S → Type) (κ ρ : Type) where
  known : κ
  program : Program S A ρ

structure Concurrent (S : Type) (A : S → Type) (σ κ ρ : Type) where
  store : σ
  running : List (Running S A κ ρ)

/-- Every statement is allowed, and nothing is known. -/
def Protocol.free {S : Type} {A : S → Type} {ι σ : Type} (exec : Exec S A ι σ) :
    Protocol exec Unit where
  allows _ _ := True
  admits _ := True
  next _ _ _ _ := ()

namespace Concurrent

variable {S : Type} {A : S → Type} {ι σ κ ρ : Type} {exec : Exec S A ι σ}

/-- A further program begins. -/
def start (s : Concurrent S A σ κ ρ) (known : κ) (program : Program S A ρ) :
    Concurrent S A σ κ ρ :=
  { s with running := s.running ++ [⟨known, program⟩] }

/-- The `i`th program issues its next statement. -/
def issue (protocol : Protocol exec κ) (s : Concurrent S A σ κ ρ) (i : Nat) (input : ι) :
    Option (Concurrent S A σ κ ρ) :=
  match s.running[i]? with
  | none => none
  | some r =>
      match r.program with
      | .done _ => none
      | .issue stmt rest => some
          { store := (exec stmt input s.store).1
            running := s.running.set i
              ⟨protocol.next r.known stmt input s.store, rest (exec stmt input s.store).2⟩ }

/-- The `i`th program stops for good with a result, wherever it is. -/
def stop (s : Concurrent S A σ κ ρ) (i : Nat) (result : ρ) : Option (Concurrent S A σ κ ρ) :=
  match s.running[i]? with
  | none => none
  | some r =>
      if r.program.isDone then none
      else some { s with running := s.running.set i ⟨r.known, .done result⟩ }

/-- The statement that the `i`th program would issue meets `p`, if there is one. -/
def nextMeets (p : κ → S → Bool) (s : Concurrent S A σ κ ρ) (i : Nat) : Bool :=
  match s.running[i]? with
  | none => true
  | some r =>
      match r.program with
      | .done _ => true
      | .issue stmt _ => p r.known stmt

/-- The store is sound, what every issuer knows is sound about it, and every program obeys the
protocol from there. -/
structure Sound (protocol : Protocol exec κ) (holds : σ → Prop) (fits : κ → σ → Prop)
    (s : Concurrent S A σ κ ρ) : Prop where
  store : holds s.store
  fits : ∀ r ∈ s.running, fits r.known s.store
  obeys : ∀ r ∈ s.running, protocol.Obeys (fun _ _ => True) r.known r.program

variable {protocol : Protocol exec κ} {holds : σ → Prop} {fits : κ → σ → Prop}
  {s next : Concurrent S A σ κ ρ}

theorem issue_spec {i : Nat} {input : ι} (h : s.issue protocol i input = some next) :
    ∃ r stmt rest, s.running[i]? = some r ∧ r.program = .issue stmt rest ∧
      next = { store := (exec stmt input s.store).1
               running := s.running.set i
                 ⟨protocol.next r.known stmt input s.store, rest (exec stmt input s.store).2⟩ } := by
  unfold issue at h
  split at h
  · cases h
  next r hr =>
    split at h
    · cases h
    next stmt rest hprogram =>
      cases h
      exact ⟨r, stmt, rest, hr, hprogram, rfl⟩

/-- What every statement keeps of the store, a step of any program keeps. -/
theorem issue_store (holds : σ → Prop) {i : Nat} {input : ι}
    (hissue : s.issue protocol i input = some next)
    (hkeep : ∀ stmt, holds s.store → holds (exec stmt input s.store).1) (h : holds s.store) :
    holds next.store := by
  obtain ⟨r, stmt, rest, _, _, rfl⟩ := issue_spec hissue
  exact hkeep stmt h

theorem nextMeets_spec {p : κ → S → Bool} {i : Nat} {r : Running S A κ ρ} {stmt : S}
    {rest : A stmt → Program S A ρ} (h : s.nextMeets p i = true) (hr : s.running[i]? = some r)
    (hprogram : r.program = .issue stmt rest) : p r.known stmt = true := by
  unfold nextMeets at h
  simpa only [hr, hprogram] using h

theorem nextMeets_true (s : Concurrent S A σ κ ρ) (i : Nat) :
    s.nextMeets (fun _ _ => true) i = true := by
  unfold nextMeets
  split
  · rfl
  · split
    · rfl
    · rfl

theorem stop_spec {i : Nat} {result : ρ} (h : s.stop i result = some next) :
    ∃ r, s.running[i]? = some r ∧ r.program.isDone = false ∧
      next = { s with running := s.running.set i ⟨r.known, .done result⟩ } := by
  unfold stop at h
  split at h
  · cases h
  next r hr =>
    split at h
    · cases h
    next hdone =>
      cases h
      exact ⟨r, hr, by simpa using hdone, rfl⟩

theorem sound_of_none_running {t : σ} (h : holds t) :
    (⟨t, []⟩ : Concurrent S A σ κ ρ).Sound protocol holds fits where
  store := h
  fits _ hr := absurd hr List.not_mem_nil
  obeys _ hr := absurd hr List.not_mem_nil

theorem Sound.start (h : s.Sound protocol holds fits) {known : κ} {program : Program S A ρ}
    (hfits : fits known s.store) (hobeys : protocol.Obeys (fun _ _ => True) known program) :
    (s.start known program).Sound protocol holds fits := by
  refine ⟨h.store, ?_, ?_⟩
  · intro r hr
    rcases List.mem_append.mp hr with hold | hnew
    · exact h.fits r hold
    · rw [List.mem_singleton.mp hnew]
      exact hfits
  · intro r hr
    rcases List.mem_append.mp hr with hold | hnew
    · exact h.obeys r hold
    · rw [List.mem_singleton.mp hnew]
      exact hobeys

theorem Sound.stop {i : Nat} {result : ρ} (h : s.Sound protocol holds fits)
    (hstop : s.stop i result = some next) : next.Sound protocol holds fits := by
  obtain ⟨r, hr, _, rfl⟩ := stop_spec hstop
  refine ⟨h.store, ?_, ?_⟩
  · intro r' hr'
    rcases List.mem_or_eq_of_mem_set hr' with hold | heq
    · exact h.fits r' hold
    · rw [heq]
      exact h.fits r (List.mem_of_getElem? hr)
  · intro r' hr'
    rcases List.mem_or_eq_of_mem_set hr' with hold | heq
    · exact h.obeys r' hold
    · rw [heq]
      trivial

/-- One allowed statement keeps the store and the knowledge of all issuers sound, when it does so
for each of the running ones. -/
theorem Sound.issue_mem {i : Nat} {input : ι} (h : s.Sound protocol holds fits)
    (hadmits : protocol.admits input)
    (hstep : ∀ r stmt rest, s.running[i]? = some r → r.program = .issue stmt rest →
      protocol.allows r.known stmt → fits r.known s.store →
        holds (exec stmt input s.store).1 ∧
          fits (protocol.next r.known stmt input s.store) (exec stmt input s.store).1 ∧
          ∀ r' ∈ s.running, fits r'.known s.store → fits r'.known (exec stmt input s.store).1)
    (hissue : s.issue protocol i input = some next) : next.Sound protocol holds fits := by
  obtain ⟨r, stmt, rest, hr, hprogram, rfl⟩ := issue_spec hissue
  have hmem : r ∈ s.running := List.mem_of_getElem? hr
  have hobeys := h.obeys r hmem
  rw [hprogram] at hobeys
  obtain ⟨hstore, hself, hothers⟩ := hstep r stmt rest hr hprogram hobeys.1 (h.fits r hmem)
  refine ⟨hstore, ?_, ?_⟩
  · intro r' hr'
    rcases List.mem_or_eq_of_mem_set hr' with hold | heq
    · exact hothers r' hold (h.fits r' hold)
    · rw [heq]
      exact hself
  · intro r' hr'
    rcases List.mem_or_eq_of_mem_set hr' with hold | heq
    · exact h.obeys r' hold
    · rw [heq]
      exact hobeys.2 input s.store hadmits

/-- One allowed statement keeps the store and the knowledge of all issuers sound. -/
theorem Sound.issue {i : Nat} {input : ι} (h : s.Sound protocol holds fits)
    (hadmits : protocol.admits input)
    (hstore : ∀ r stmt rest, s.running[i]? = some r → r.program = .issue stmt rest →
      protocol.allows r.known stmt → fits r.known s.store → holds (exec stmt input s.store).1)
    (hothers : ∀ known stmt, fits known s.store → fits known (exec stmt input s.store).1)
    (hself : ∀ known stmt, fits known s.store →
      fits (protocol.next known stmt input s.store) (exec stmt input s.store).1)
    (hissue : s.issue protocol i input = some next) : next.Sound protocol holds fits :=
  h.issue_mem hadmits (fun r stmt rest hr hprogram hallows hfits =>
    ⟨hstore r stmt rest hr hprogram hallows hfits, hself _ stmt hfits,
      fun _ _ hfits' => hothers _ stmt hfits'⟩) hissue

/-! ## Issuers that know different things -/

/-- What any two issuers know is apart. -/
def Apart (apart : κ → κ → Prop) (s : Concurrent S A σ κ ρ) : Prop :=
  ∀ (i j : Nat) (r r' : Running S A κ ρ), i ≠ j → s.running[i]? = some r →
    s.running[j]? = some r' → apart r.known r'.known

variable {apart : κ → κ → Prop}

theorem Apart.start (h : s.Apart apart) (hsymm : ∀ k k', apart k k' → apart k' k) {known : κ}
    {program : Program S A ρ} (hnew : ∀ r ∈ s.running, apart known r.known) :
    (s.start known program).Apart apart := by
  have hlookup : ∀ i r, (s.start known program).running[i]? = some r →
      s.running[i]? = some r ∨ i = s.running.length ∧ r = ⟨known, program⟩ := by
    intro i r hr
    change (s.running ++ [_])[i]? = some r at hr
    rcases Nat.lt_trichotomy i s.running.length with hlt | heq | hgt
    · rw [List.getElem?_append_left hlt] at hr
      exact Or.inl hr
    · rw [heq, List.getElem?_concat_length] at hr
      exact Or.inr ⟨heq, (Option.some.inj hr).symm⟩
    · rw [List.getElem?_eq_none (by simp; omega)] at hr
      cases hr
  intro i j r r' hne hr hr'
  rcases hlookup i r hr with hi | ⟨hi, rfl⟩
  · rcases hlookup j r' hr' with hj | ⟨_, rfl⟩
    · exact h i j r r' hne hi hj
    · exact hsymm _ _ (hnew r (List.mem_of_getElem? hi))
  · rcases hlookup j r' hr' with hj | ⟨hj, _⟩
    · exact hnew r' (List.mem_of_getElem? hj)
    · exact absurd (hi.trans hj.symm) hne

/-- One allowed statement keeps the store, the knowledge of all issuers and their being apart. -/
theorem Sound.issue_apart {i : Nat} {input : ι} {ok : κ → S → Bool}
    (h : s.Sound protocol holds fits) (hapart : s.Apart apart)
    (hsymm : ∀ k k', apart k k' → apart k' k) (hadmits : protocol.admits input)
    (hok : s.nextMeets ok i = true)
    (hstore : ∀ known stmt, protocol.allows known stmt → ok known stmt = true →
      fits known s.store → holds (exec stmt input s.store).1)
    (hself : ∀ known stmt, protocol.allows known stmt → ok known stmt = true →
      fits known s.store → fits (protocol.next known stmt input s.store) (exec stmt input s.store).1)
    (hothers : ∀ known known' stmt, protocol.allows known stmt → ok known stmt = true →
      apart known known' → fits known s.store → fits known' s.store →
        fits known' (exec stmt input s.store).1)
    (hnext : ∀ known known' stmt, protocol.allows known stmt → apart known known' →
      fits known s.store → fits known' s.store →
        apart (protocol.next known stmt input s.store) known')
    (hissue : s.issue protocol i input = some next) :
    next.Sound protocol holds fits ∧ next.Apart apart := by
  obtain ⟨r, stmt, rest, hr, hprogram, rfl⟩ := issue_spec hissue
  have hmem : r ∈ s.running := List.mem_of_getElem? hr
  have hobeys := h.obeys r hmem
  rw [hprogram] at hobeys
  have hmeets := nextMeets_spec hok hr hprogram
  have hlt : i < s.running.length := (List.getElem?_eq_some_iff.mp hr).1
  have hlookup : ∀ (x : Running S A κ ρ) j r', (s.running.set i x)[j]? = some r' →
      j = i ∧ r' = x ∨ j ≠ i ∧ s.running[j]? = some r' := by
    intro x j r' hr'
    by_cases hj : i = j
    · rw [← hj, List.getElem?_set_self hlt] at hr'
      exact Or.inl ⟨hj.symm, (Option.some.inj hr').symm⟩
    · rw [List.getElem?_set_ne hj] at hr'
      exact Or.inr ⟨Ne.symm hj, hr'⟩
  have hfits := h.fits r hmem
  have happly : ∀ j r', j ≠ i → s.running[j]? = some r' → apart r.known r'.known :=
    fun j r' hne hr' => hapart i j r r' (Ne.symm hne) hr hr'
  refine ⟨⟨hstore _ stmt hobeys.1 hmeets hfits, ?_, ?_⟩, ?_⟩
  · intro r' hr'
    obtain ⟨j, hj⟩ := List.getElem?_of_mem hr'
    rcases hlookup _ j r' hj with ⟨_, rfl⟩ | ⟨hne, hold⟩
    · exact hself _ stmt hobeys.1 hmeets hfits
    · exact hothers _ _ stmt hobeys.1 hmeets (happly j r' hne hold) hfits
        (h.fits r' (List.mem_of_getElem? hold))
  · intro r' hr'
    rcases List.mem_or_eq_of_mem_set hr' with hold | heq
    · exact h.obeys r' hold
    · rw [heq]
      exact hobeys.2 input s.store hadmits
  · intro j l a b hne ha hb
    rcases hlookup _ j a ha with ⟨hj, rfl⟩ | ⟨hj, hold⟩
    · rcases hlookup _ l b hb with ⟨hl, _⟩ | ⟨hl, hold'⟩
      · exact absurd (hj.trans hl.symm) hne
      · exact hnext _ _ stmt hobeys.1 (happly l b hl hold') hfits
          (h.fits b (List.mem_of_getElem? hold'))
    · rcases hlookup _ l b hb with ⟨_, rfl⟩ | ⟨_, hold'⟩
      · exact hsymm _ _ (hnext _ _ stmt hobeys.1 (happly j a hj hold) hfits
          (h.fits a (List.mem_of_getElem? hold)))
      · exact hapart j l a b hne hold hold'

/-! ## What is known at the end -/

/-- Every program obeys the protocol up to an end that meets `post`. -/
def Ends (protocol : Protocol exec κ) (post : κ → ρ → Prop) (s : Concurrent S A σ κ ρ) : Prop :=
  ∀ r ∈ s.running, protocol.Obeys post r.known r.program

variable {post : κ → ρ → Prop}

theorem Ends.done (h : s.Ends protocol post) {r : Running S A κ ρ} (hr : r ∈ s.running)
    {result : ρ} (hprogram : r.program = .done result) : post r.known result := by
  have hobeys := h r hr
  rw [hprogram] at hobeys
  exact hobeys

theorem Ends.start (h : s.Ends protocol post) {known : κ} {program : Program S A ρ}
    (hobeys : protocol.Obeys post known program) : (s.start known program).Ends protocol post := by
  intro r hr
  rcases List.mem_append.mp hr with hold | hnew
  · exact h r hold
  · rw [List.mem_singleton.mp hnew]
    exact hobeys

theorem Ends.issue (h : s.Ends protocol post) {i : Nat} {input : ι}
    (hadmits : protocol.admits input) (hissue : s.issue protocol i input = some next) :
    next.Ends protocol post := by
  obtain ⟨r, stmt, rest, hr, hprogram, rfl⟩ := issue_spec hissue
  have hobeys := h r (List.mem_of_getElem? hr)
  rw [hprogram] at hobeys
  intro r' hr'
  rcases List.mem_or_eq_of_mem_set hr' with hold | heq
  · exact h r' hold
  · rw [heq]
    exact hobeys.2 input s.store hadmits

/-- A program that stops where its result is right. -/
theorem Ends.stop (h : s.Ends protocol post) {i : Nat} {result : ρ}
    (hpost : ∀ r, s.running[i]? = some r → post r.known result)
    (hstop : s.stop i result = some next) : next.Ends protocol post := by
  obtain ⟨r, hr, _, rfl⟩ := stop_spec hstop
  intro r' hr'
  rcases List.mem_or_eq_of_mem_set hr' with hold | heq
  · exact h r' hold
  · rw [heq]
    exact hpost r hr

end Concurrent

end Lightfriend
