import Lightfriend.Agent.ActionsSafe

/-! # Actions of prompt requests

A request compares its own start with the end of the window, of the credential
and of the key. What is promised of the times themselves holds while requests are
not interrupted and are not overtaken by these ends.
-/

namespace Lightfriend.Agent

/-- Performed on a UTC day, counted from 1970. -/
def Performance.performedOn (credentialId day : Int) (p : Performance) : Bool :=
  decide (p.claim.credentialId = credentialId) && decide (day * 86400 ≤ p.performedAt) &&
    decide (p.performedAt < (day + 1) * 86400)

structure ActionsKept (s : ActionState) : Prop where
  once : ∀ later earlier p, s.log = later ++ .performed p :: earlier →
    ∀ p', .performed p' ∈ earlier → p'.sameKey p → .failed p'.claim.reservation ∈ earlier ∨
      p'.claim.requestedAt + idempotencyTtlSeconds < p.performedAt
  capped : ∀ c ∈ s.credentials, ∀ day,
    ((performances s.log).countP (Performance.performedOn c.id day) : Int) ≤ c.dailyCap
  unrevoked : ∀ later earlier p, s.log = later ++ .performed p :: earlier →
    ∃ mid old, earlier = mid ++ .claimed p.claim :: old ∧ .revoked p.claim.credentialId ∉ old
  unexpired : ∀ p, .performed p ∈ s.log →
    ∃ c ∈ s.credentials, c.id = p.claim.credentialId ∧ p.claim.claimedAt < c.expiresAt
  replayed : ∀ later earlier reservation credentialId kind keyHash outcome,
    s.log = later ++ .replayed reservation credentialId kind keyHash outcome :: earlier →
      match outcome with
      | .accepted => ∃ p, .performed p ∈ earlier ∧ p.claim.reservation = reservation ∧
          p.claim.credentialId = credentialId ∧ p.actionKind = kind ∧ p.keyHash = keyHash
      | .rejected => ∀ p, .performed p ∈ s.log → p.claim.reservation ≠ reservation
  answered : ∀ later earlier reservation, s.log = later ++ .inFlight reservation :: earlier →
    ∀ p, .performed p ∈ earlier → p.claim.reservation = reservation →
      .failed reservation ∈ earlier

/-- The request is between its action and the completion of its reservation. -/
def Finishing (s : ActionState) (reservation : Int) : Prop :=
  ∃ i request, s.requests i = some request ∧ request.progress = .completing reservation .accepted

/-- The step comes before the end of the credential or of the day of its request, a completion
is carried out, and no retry comes before it. -/
def Prompt (s : ActionState) : Step → Prop
  | .claim i _ => ∀ request, s.requests i = some request → ∀ c ∈ s.credentials,
      c.tokenHash = request.tokenHash → request.now < c.expiresAt → s.clock < c.expiresAt
  | .perform i _ => ∀ request, s.requests i = some request → s.clock < nextUtcMidnight request.now
  | .complete _ fate => fate ≠ .refused
  | .abandon i => ∀ request, s.requests i = some request →
      ∀ reservation, request.progress ≠ .completing reservation .accepted
  | .reserve i _ => ∀ request credentialId, s.requests i = some request →
      request.progress = .authenticated credentialId → ∀ r ∈ s.reservations,
        r.isFor credentialId request.actionKind request.keyHash = true → ¬ Finishing s r.id
  | _ => True

/-! ## What a step does -/

/-- The events that nothing is promised about here. -/
def Event.isNote : Event → Bool
  | .revoked _ => true
  | .failed _ => true
  | .replayed _ _ _ _ _ => true
  | _ => false

structure Effect (s : ActionState) (a : Step) (s' : ActionState) (new : List Event) : Prop where
  clock : s.clock ≤ s'.clock
  log : s'.log = new ++ s.log
  credentials : ∀ c ∈ s.credentials, ∃ c' ∈ s'.credentials,
    c'.id = c.id ∧ c'.expiresAt = c.expiresAt
  claimed : ∀ q, .claimed q ∈ new → ∃ i fate request c, a = .claim i fate ∧
    s.requests i = some request ∧ c ∈ s.credentials ∧ c.tokenHash = request.tokenHash ∧
      c.id = q.credentialId ∧ request.now < c.expiresAt ∧ q.claimedAt = s.clock
  performed : ∀ p, .performed p ∈ new → ∃ i creation request, a = .perform i creation ∧
    s.requests i = some request ∧ request.progress = .ready p.claim ∧ p.performedAt = s.clock ∧
      (.failed p.claim.reservation ∈ new ∨ Finishing s' p.claim.reservation)
  inFlight : ∀ r, .inFlight r ∈ new → new = [.inFlight r] ∧ ∃ i fate request credentialId row,
    a = .reserve i fate ∧ s.requests i = some request ∧
      request.progress = .authenticated credentialId ∧ row ∈ s.reservations ∧ row.id = r ∧
        row.isFor credentialId request.actionKind request.keyHash = true ∧ row.outcome = none
  rows : ∀ r ∈ s'.reservations, r.outcome = none → r ∈ s.reservations ∨ s.nextReservation ≤ r.id
  finishing : ∀ r, Finishing s r → Finishing s' r ∨
    (∃ i, a = .complete i .refused) ∨
    (∃ i request, a = .abandon i ∧ s.requests i = some request ∧
      request.progress = .completing r .accepted) ∨
    ∀ row ∈ s'.reservations, row.id = r → row.outcome ≠ none

section Effect

variable {s s' : ActionState} {a : Step} {new : List Event} {i : Nat} {request : Request}
  {next : Option Request}

theorem finishing_update (hreq : s'.requests = Function.update s.requests i next)
    (hi : ∀ own, s.requests i = some own → ∀ r, own.progress ≠ .completing r .accepted) (r : Int)
    (h : Finishing s r) : Finishing s' r := by
  obtain ⟨j, other, hj, hprogress⟩ := h
  have hji : j ≠ i := by
    rintro rfl
    exact hi other hj r hprogress
  exact ⟨j, other, by rw [hreq, Function.update_of_ne hji, hj], hprogress⟩

/-- Steps that leave the rows alone and write notes only. -/
theorem Effect.note (hclock : s.clock ≤ s'.clock) (hlog : s'.log = new ++ s.log)
    (hnew : ∀ e ∈ new, e.isNote = true)
    (hcredentials : ∀ c ∈ s.credentials, ∃ c' ∈ s'.credentials,
      c'.id = c.id ∧ c'.expiresAt = c.expiresAt)
    (hrows : ∀ r ∈ s'.reservations, r.outcome = none →
      r ∈ s.reservations ∨ s.nextReservation ≤ r.id)
    (hfinishing : ∀ r, Finishing s r → Finishing s' r) : Effect s a s' new where
  clock := hclock
  log := hlog
  credentials := hcredentials
  claimed _ hq := nomatch hnew _ hq
  performed _ hp := nomatch hnew _ hp
  inFlight _ hr := nomatch hnew _ hr
  rows := hrows
  finishing r hr := .inl (hfinishing r hr)

theorem credentials_same {t : Credentials} : ∀ c ∈ t, ∃ c' ∈ t,
    c'.id = c.id ∧ c'.expiresAt = c.expiresAt := fun c hc => ⟨c, hc, rfl, rfl⟩

/-- A request that is not finishing goes on or ends, and writes notes only. -/
theorem Effect.move (hi : s.requests i = some request)
    (hprogress : ∀ r, request.progress ≠ .completing r .accepted)
    (hreq : s'.requests = Function.update s.requests i next) (hclock : s'.clock = s.clock)
    (hlog : s'.log = new ++ s.log) (hnew : ∀ e ∈ new, e.isNote = true)
    (hcredentials : ∀ c ∈ s.credentials, ∃ c' ∈ s'.credentials,
      c'.id = c.id ∧ c'.expiresAt = c.expiresAt)
    (hrows : ∀ r ∈ s'.reservations, r.outcome = none →
      r ∈ s.reservations ∨ s.nextReservation ≤ r.id) : Effect s a s' new := by
  refine .note hclock.ge hlog hnew hcredentials hrows (finishing_update hreq (fun own ho => ?_))
  rw [Option.some.inj (ho.symm.trans hi)]
  exact hprogress

theorem Effect.finish (hi : s.requests i = some request)
    (hprogress : ∀ r, request.progress ≠ .completing r .accepted) :
    Effect s a (s.finish i) [] :=
  .move hi hprogress rfl rfl rfl (List.forall_mem_nil _) credentials_same (fun _ hr _ => .inl hr)

theorem Effect.put (hi : s.requests i = some request)
    (hprogress : ∀ r, request.progress ≠ .completing r .accepted) (other : Request) :
    Effect s a (s.put i other) [] :=
  .move hi hprogress rfl rfl rfl (List.forall_mem_nil _) credentials_same (fun _ hr _ => .inl hr)

theorem credentials_update {t : Credentials} {p : AgentCredential → Bool}
    {set : AgentCredential → AgentCredential} (hkey : ∀ c, (set c).id = c.id)
    (hexpires : ∀ c, (set c).expiresAt = c.expiresAt) :
    ∀ c ∈ t, ∃ c' ∈ t.updateWhere p set hkey, c'.id = c.id ∧ c'.expiresAt = c.expiresAt := by
  intro c hc
  refine ⟨_, Table.exists_updateWhere hkey hc, ?_, ?_⟩
  · split
    · exact hkey c
    · rfl
  · split
    · exact hexpires c
    · rfl

theorem Effect.revokeWhere (p : AgentCredential → Bool) (now : Int) :
    ∃ new, Effect s a (s.revokeWhere p now) new := by
  refine ⟨_, .note le_rfl rfl (fun e he => ?_) (credentials_update (by intro c; rfl) (fun _ => rfl))
    (fun _ hr _ => .inl hr) (fun _ hr => hr)⟩
  obtain ⟨c, -, rfl⟩ := List.mem_map.mp he
  rfl

theorem Effect.insert (hi : s.requests i = some request)
    (hprogress : ∀ r, request.progress ≠ .completing r .accepted) {rows : Reservations}
    (hrows : ∀ r ∈ rows, r ∈ s.reservations) (credentialId : Int) (fate : StatementFate) :
    Effect s a (reserveFresh s rows credentialId i request fate) [] := by
  have hnew : ∀ r ∈ (s.insertReservation rows credentialId request).reservations,
      r.outcome = none → r ∈ s.reservations ∨ s.nextReservation ≤ r.id := by
    intro r hr _
    rcases Table.mem_insertOrIgnore.mp hr with hr | ⟨-, rfl⟩
    · exact .inl (hrows r hr)
    · exact .inr le_rfl
  cases fate with
  | refused => exact .finish hi hprogress
  | lost => exact .move hi hprogress rfl rfl rfl (List.forall_mem_nil _) credentials_same hnew
  | done => exact .move hi hprogress rfl rfl rfl (List.forall_mem_nil _) credentials_same hnew

theorem Effect.reserve {credentialId : Int} (hi : s.requests i = some request)
    (hprogress : request.progress = .authenticated credentialId) (fate : StatementFate) :
    ∃ new, Effect s (.reserve i fate) (reserveIdempotency s i request credentialId fate) new := by
  have hnot : ∀ r, request.progress ≠ .completing r .accepted := by
    intro r
    rw [hprogress]
    nofun
  unfold reserveIdempotency
  split
  next => exact ⟨_, .insert hi hnot (fun _ hr => hr) credentialId fate⟩
  next existing hfind =>
    have hmem : existing ∈ s.reservations := List.mem_of_find?_eq_some hfind
    have hfor := List.find?_some hfind
    split
    next =>
      split
      next outcome hout =>
        refine ⟨[.replayed existing.id credentialId request.actionKind request.keyHash outcome],
          .move hi hnot rfl rfl rfl (fun e he => ?_) credentials_same (fun _ hr _ => .inl hr)⟩
        rw [List.mem_singleton.mp he]
        rfl
      next hout =>
        refine ⟨[.inFlight existing.id], ⟨le_rfl, rfl, credentials_same, fun q hq => ?_,
          fun p hp => ?_, fun r hr => ?_, fun _ hr _ => .inl hr, fun r hr => .inl ?_⟩⟩
        · exact nomatch List.mem_singleton.mp hq
        · exact nomatch List.mem_singleton.mp hp
        · cases List.mem_singleton.mp hr
          exact ⟨rfl, i, fate, request, credentialId, existing, rfl, hi, hprogress, hmem, rfl,
            hfor, hout⟩
        · refine finishing_update rfl (fun own ho => ?_) r hr
          rw [Option.some.inj (ho.symm.trans hi)]
          exact hnot
    next =>
      exact ⟨_, .insert hi hnot (fun _ hr => (Table.mem_deleteWhere.mp hr).1) credentialId fate⟩

/-- The rows after a claim are those before it, but for their counters. -/
theorem credentials_claim {t t' : Credentials} {now : Int}
    (hkept : ∀ c ∈ t, ∃ c' ∈ t', c'.id = c.id ∧ c'.expiresAt = c.expiresAt)
    (current : AgentCredential) :
    ∀ c ∈ t, ∃ c' ∈ t'.updateWhere (fun c => c.id = current.id) (useOne now) (fun _ => rfl),
      c'.id = c.id ∧ c'.expiresAt = c.expiresAt := by
  intro c hc
  obtain ⟨c', hc', hid, hexpires⟩ := hkept c hc
  obtain ⟨c'', hc'', hid', hexpires'⟩ := @credentials_update t' (fun c => c.id = current.id)
    (useOne now) (fun _ => rfl) (fun _ => rfl) c' hc'
  exact ⟨c'', hc'', hid'.trans hid, hexpires'.trans hexpires⟩

theorem Effect.claimSlot {credentialId reservation : Int} (hi : s.requests i = some request)
    (hprogress : request.progress = .reserved credentialId reservation) (fate : StatementFate) :
    ∃ new, Effect s (.claim i fate) (claimSlot s i request credentialId reservation fate) new := by
  have hnot : ∀ r, request.progress ≠ .completing r .accepted := by
    intro r
    rw [hprogress]
    intro hfinishing
    cases hfinishing
  have hclear : ∀ {t : Credentials}, (∀ c ∈ s.credentials, ∃ c' ∈ t, c'.id = c.id ∧
      c'.expiresAt = c.expiresAt) → ∃ new, Effect s (.claim i fate)
        ({ s with credentials := t }.put i { request with progress := .clearing reservation })
        new :=
    fun hkept => ⟨[], .move hi hnot rfl rfl rfl (List.forall_mem_nil _) hkept (fun _ hr _ => .inl hr)⟩
  obtain ⟨t, hrows, hkept, ⟨answer, hclaim, hno⟩ | ⟨current, hmem, htoken, -, hexpires, -, -,
    hclaim⟩⟩ := claimCredential_cases s.credentials request.tokenHash
      request.actionKind.requiredScope request.now
  · cases fate with
    | refused => exact hclear credentials_same
    | lost =>
        simp only [Agent.claimSlot, hclaim]
        exact hclear hkept
    | done =>
        simp only [Agent.claimSlot, hclaim]
        cases answer with
        | accepted credential => exact absurd rfl (hno credential)
        | invalid => exact hclear hkept
        | overCap => exact hclear hkept
  · cases fate with
    | refused => exact hclear credentials_same
    | lost =>
        simp only [Agent.claimSlot, hclaim]
        exact hclear (credentials_claim hkept current)
    | done =>
        simp only [Agent.claimSlot, hclaim]
        split
        next hid =>
          refine ⟨[.claimed ⟨reservation, credentialId, request.now, s.clock, _⟩],
            ⟨le_rfl, rfl, credentials_claim hkept current, fun q hq => ?_, fun p hp => ?_,
              fun r hr => ?_, fun _ hr _ => .inl hr, fun r hr => .inl ?_⟩⟩
          · cases List.mem_singleton.mp hq
            rcases hrows current hmem with hc | ⟨c, hc, -, rfl⟩
            · exact ⟨i, .done, request, current, rfl, hi, hc, htoken, hid, hexpires, rfl⟩
            · exact ⟨i, .done, request, c, rfl, hi, hc, htoken, hid, hexpires, rfl⟩
          · cases List.mem_singleton.mp hp
          · cases List.mem_singleton.mp hr
          · refine finishing_update rfl (fun own ho => ?_) r hr
            rw [Option.some.inj (ho.symm.trans hi)]
            exact hnot
        next => exact hclear (credentials_claim hkept current)

theorem Effect.performAction {claim : Claim} (hi : s.requests i = some request)
    (hprogress : request.progress = .ready claim) (creation : Creation) :
    ∃ new, Effect s (.perform i creation) (performAction s i request claim creation) new := by
  have hnot : ∀ r, request.progress ≠ .completing r .accepted := by
    intro r
    rw [hprogress]
    nofun
  have hfinishing : ∀ {s' : ActionState} {next : Option Request},
      s'.requests = Function.update s.requests i next → ∀ r, Finishing s r → Finishing s' r := by
    intro s' next hreq r hr
    refine finishing_update hreq (fun own ho => ?_) r hr
    rw [Option.some.inj (ho.symm.trans hi)]
    exact hnot
  cases creation with
  | created =>
      refine ⟨[.performed ⟨claim, request.actionKind, request.keyHash, s.clock⟩],
        ⟨le_rfl, rfl, credentials_same, fun q hq => ?_, fun p hp => ?_, fun r hr => ?_,
          fun _ hr _ => .inl hr, fun r hr => .inl (hfinishing rfl r hr)⟩⟩
      · exact nomatch List.mem_singleton.mp hq
      · cases List.mem_singleton.mp hp
        exact ⟨i, .created, request, rfl, hi, hprogress, rfl,
          .inr ⟨i, _, Function.update_self _ _ _, rfl⟩⟩
      · exact nomatch List.mem_singleton.mp hr
  | rejected => exact ⟨_, .put hi hnot _⟩
  | failed =>
      refine ⟨[.failed claim.reservation],
        .move hi hnot rfl rfl rfl (fun e he => ?_) credentials_same (fun _ hr _ => .inl hr)⟩
      rw [List.mem_singleton.mp he]
      rfl
  | lost =>
      refine ⟨[.failed claim.reservation,
        .performed ⟨claim, request.actionKind, request.keyHash, s.clock⟩],
        ⟨le_rfl, rfl, credentials_same, fun q hq => ?_, fun p hp => ?_, fun r hr => ?_,
          fun _ hr _ => .inl hr, fun r hr => .inl (hfinishing rfl r hr)⟩⟩
      · simp at hq
      · have hp := (List.mem_cons.mp hp).resolve_left nofun
        cases List.mem_singleton.mp hp
        exact ⟨i, .lost, request, rfl, hi, hprogress, rfl, .inl List.mem_cons_self⟩
      · simp at hr

theorem Effect.complete {reservation : Int} {outcome : Outcome} (hi : s.requests i = some request)
    (hprogress : request.progress = .completing reservation outcome) (fate : StatementFate) :
    Effect s (.complete i fate) ((fate.after s (s.setOutcome reservation outcome)).finish i)
      [] := by
  have hother : ∀ {s' : ActionState} r, r ≠ reservation →
      s'.requests = Function.update s.requests i none → Finishing s r → Finishing s' r := by
    rintro s' r hne hreq ⟨j, other, hj, hother⟩
    have hji : j ≠ i := by
      rintro rfl
      rw [hi] at hj
      cases hj
      rw [hprogress] at hother
      injection hother with hr
      exact hne hr.symm
    exact ⟨j, other, by rw [hreq, Function.update_of_ne hji, hj], hother⟩
  have hwritten : Effect s (.complete i fate) ((s.setOutcome reservation outcome).finish i) [] := by
    refine ⟨le_rfl, rfl, credentials_same, nofun, nofun, nofun, fun r hr hnone => .inl ?_,
      fun r hr => ?_⟩
    · obtain ⟨old, hold, rfl⟩ := (Table.mem_updateWhere (by intro r; rfl)).mp hr
      split at hnone
      next => cases hnone
      next heq =>
        rw [if_neg heq]
        exact hold
    · by_cases hne : r = reservation
      · refine .inr (.inr (.inr (fun row hrow hid => ?_)))
        obtain ⟨old, -, rfl⟩ := (Table.mem_updateWhere (by intro r; rfl)).mp hrow
        split at hid
        next heq =>
          rw [if_pos heq]
          nofun
        next heq => exact absurd (decide_eq_true (hid.trans hne)) heq
      · exact .inl (hother r hne rfl hr)
  cases fate with
  | done => exact hwritten
  | lost => exact hwritten
  | refused =>
      exact ⟨le_rfl, rfl, credentials_same, nofun, nofun, nofun, fun _ hr _ => .inl hr,
        fun _ _ => .inr (.inl ⟨i, rfl⟩)⟩

theorem Effect.clear {reservation : Int} (hi : s.requests i = some request)
    (hprogress : request.progress = .clearing reservation) (fate : StatementFate) :
    Effect s (.clear i fate) ((fate.after s (s.dropReservation reservation)).finish i) [] := by
  have hnot : ∀ r, request.progress ≠ .completing r .accepted := by
    intro r
    rw [hprogress]
    nofun
  rcases fate.after_cases s (s.dropReservation reservation) with heq | heq
  · rw [heq]
    exact .finish hi hnot
  · rw [heq]
    exact .move hi hnot rfl rfl rfl (List.forall_mem_nil _) credentials_same
      (fun _ hr _ => .inl (Table.mem_deleteWhere.mp hr).1)

theorem Effect.of_act (hstep : act s a = some s') : ∃ new, Effect s a s' new := by
  cases a with
  | tick seconds =>
      cases hstep
      exact ⟨[], .note (Int.le_add_of_nonneg_right (Int.natCast_nonneg _)) rfl (List.forall_mem_nil _)
        credentials_same (fun _ hr _ => .inl hr) (fun _ hr => hr)⟩
  | issueCredential userId dailyCap tokenHash tokenPrefix label scopes issuedAt expiresAt =>
      simp only [act] at hstep
      split at hstep
      next => cases hstep
      next =>
        cases hstep
        refine ⟨[], .note le_rfl rfl (List.forall_mem_nil _) (fun c hc => ⟨c, ?_, rfl, rfl⟩)
          (fun _ hr _ => .inl hr) (fun _ hr => hr)⟩
        exact Table.mem_insertOrIgnore.mpr (.inl hc)
  | revokeCredential userId id now fate =>
      cases hstep
      cases fate with
      | refused =>
          exact ⟨[], .note le_rfl rfl (List.forall_mem_nil _) credentials_same
            (fun _ hr _ => .inl hr) (fun _ hr => hr)⟩
      | done => exact Effect.revokeWhere _ now
      | lost => exact Effect.revokeWhere _ now
  | revokeByTokenHash tokenHash now fate =>
      cases hstep
      cases fate with
      | refused =>
          exact ⟨[], .note le_rfl rfl (List.forall_mem_nil _) credentials_same
            (fun _ hr _ => .inl hr) (fun _ hr => hr)⟩
      | done => exact Effect.revokeWhere _ now
      | lost => exact Effect.revokeWhere _ now
  | start i kind tokenHash keyHash =>
      simp only [act] at hstep
      split at hstep
      next => cases hstep
      next hfree =>
        cases hstep
        refine ⟨[], .note le_rfl rfl (List.forall_mem_nil _) credentials_same
          (fun _ hr _ => .inl hr) (finishing_update rfl (fun own ho => ?_))⟩
        rw [ho] at hfree
        exact absurd rfl hfree
  | authenticate i =>
      simp only [act] at hstep
      split at hstep
      next tokenHash kind keyHash now hi =>
        split at hstep
        next =>
          cases hstep
          exact ⟨_, .finish hi (by rintro r ⟨⟩)⟩
        next =>
          split at hstep
          next =>
            cases hstep
            exact ⟨_, .put hi (by rintro r ⟨⟩) _⟩
          next =>
            cases hstep
            exact ⟨_, .finish hi (by rintro r ⟨⟩)⟩
      next => cases hstep
  | reserve i fate =>
      simp only [act] at hstep
      split at hstep
      next tokenHash kind keyHash now credentialId hi =>
        cases hstep
        exact Effect.reserve hi rfl fate
      next => cases hstep
  | claim i fate =>
      simp only [act] at hstep
      split at hstep
      next tokenHash kind keyHash now credentialId reservation hi =>
        cases hstep
        exact Effect.claimSlot hi rfl fate
      next => cases hstep
  | subscription i active =>
      simp only [act] at hstep
      split at hstep
      next tokenHash kind keyHash now claim hi =>
        cases hstep
        exact ⟨_, .put hi (by rintro r ⟨⟩) _⟩
      next => cases hstep
  | lookUpConnections i ok =>
      simp only [act] at hstep
      split at hstep
      next tokenHash kind keyHash now claim hi =>
        split at hstep
        next =>
          cases hstep
          exact ⟨_, .put hi (by rintro r ⟨⟩) _⟩
        next =>
          cases hstep
          refine ⟨[.failed claim.reservation], .move hi (by rintro r ⟨⟩) rfl rfl rfl (fun e he => ?_)
            credentials_same (fun _ hr _ => .inl hr)⟩
          rw [List.mem_singleton.mp he]
          rfl
      next => cases hstep
  | perform i creation =>
      simp only [act] at hstep
      split at hstep
      next tokenHash kind keyHash now claim hi =>
        split at hstep
        next => cases hstep
        next =>
          cases hstep
          exact Effect.performAction hi rfl creation
      next => cases hstep
  | complete i fate =>
      simp only [act] at hstep
      split at hstep
      next tokenHash kind keyHash now reservation outcome hi =>
        cases hstep
        exact ⟨_, .complete hi rfl fate⟩
      next => cases hstep
  | clear i fate =>
      simp only [act] at hstep
      split at hstep
      next tokenHash kind keyHash now reservation hi =>
        cases hstep
        exact ⟨_, .clear hi rfl fate⟩
      next => cases hstep
  | abandon i =>
      simp only [act] at hstep
      split at hstep
      next hsome =>
        cases hstep
        obtain ⟨request, hi⟩ := Option.isSome_iff_exists.mp hsome
        refine ⟨[], le_rfl, rfl, credentials_same, fun _ h => absurd h List.not_mem_nil,
          fun _ h => absurd h List.not_mem_nil, fun _ h => absurd h List.not_mem_nil,
          fun _ hr _ => .inl hr,
          fun r hr => ?_⟩
        by_cases hfinishing : request.progress = .completing r .accepted
        · exact .inr (.inr (.inl ⟨i, request, rfl, hi, hfinishing⟩))
        · obtain ⟨j, other, hj, hprogress⟩ := hr
          have hji : j ≠ i := by
            rintro rfl
            rw [hi] at hj
            cases hj
            exact hfinishing hprogress
          exact .inl ⟨j, other, (Function.update_of_ne hji _ _).trans hj, hprogress⟩
      next => cases hstep

end Effect

/-! ## The invariant of prompt runs -/

structure Kept (s : ActionState) : Prop where
  inv : ActionInv s
  claimed : ∀ q, .claimed q ∈ s.log → q.claimedAt ≤ s.clock ∧
    ∃ c ∈ s.credentials, c.id = q.credentialId ∧ q.claimedAt < c.expiresAt
  performed : ∀ p, .performed p ∈ s.log → p.claim.claimedAt ≤ p.performedAt ∧
    p.performedAt < nextUtcMidnight p.claim.requestedAt
  pending : ∀ p, .performed p ∈ s.log → ∀ r ∈ s.reservations, r.id = p.claim.reservation →
    r.outcome = none → .failed r.id ∈ s.log ∨ Finishing s r.id
  answered : ∀ later earlier reservation, s.log = later ++ .inFlight reservation :: earlier →
    ∀ p, .performed p ∈ earlier → p.claim.reservation = reservation →
      .failed reservation ∈ earlier

section Kept

variable {s s' : ActionState} {a : Step} {new : List Event}

theorem Kept.claimed_step (h : Kept s) (hok : Prompt s a) (heffect : Effect s a s' new) (q : Claim)
    (hq : .claimed q ∈ s'.log) : q.claimedAt ≤ s'.clock ∧
      ∃ c ∈ s'.credentials, c.id = q.credentialId ∧ q.claimedAt < c.expiresAt := by
  have hfound : q.claimedAt ≤ s.clock ∧
      ∃ c ∈ s.credentials, c.id = q.credentialId ∧ q.claimedAt < c.expiresAt := by
    rw [heffect.log] at hq
    rcases List.mem_append.mp hq with hq | hq
    · obtain ⟨i, fate, request, c, rfl, hi, hc, htoken, hid, hexpires, hat⟩ := heffect.claimed q hq
      exact ⟨hat.le, c, hc, hid, hat ▸ hok request hi c hc htoken hexpires⟩
    · exact h.claimed q hq
  obtain ⟨hclock, c, hc, hid, hexpires⟩ := hfound
  obtain ⟨c', hc', hid', hexpires'⟩ := heffect.credentials c hc
  exact ⟨hclock.trans heffect.clock, c', hc', hid'.trans hid, hexpires' ▸ hexpires⟩

theorem Kept.performed_step (h : Kept s) (hok : Prompt s a) (heffect : Effect s a s' new)
    (p : Performance) (hp : .performed p ∈ s'.log) : p.claim.claimedAt ≤ p.performedAt ∧
      p.performedAt < nextUtcMidnight p.claim.requestedAt := by
  rw [heffect.log] at hp
  rcases List.mem_append.mp hp with hp | hp
  · obtain ⟨i, creation, request, rfl, hi, hprogress, hat, -⟩ := heffect.performed p hp
    have hstanding := h.inv.requests.standing i request hi
    rw [hprogress] at hstanding
    obtain ⟨-, hrequested, hclaimed⟩ := hstanding
    rw [hat, hrequested]
    exact ⟨(h.claimed _ hclaimed).1, hok request hi⟩
  · exact h.performed p hp

theorem Kept.pending_step (h : Kept s) (hok : Prompt s a) (heffect : Effect s a s' new)
    (p : Performance) (hp : .performed p ∈ s'.log) (r : Reservation) (hr : r ∈ s'.reservations)
    (hid : r.id = p.claim.reservation) (hnone : r.outcome = none) :
    .failed r.id ∈ s'.log ∨ Finishing s' r.id := by
  rw [heffect.log] at hp ⊢
  rcases List.mem_append.mp hp with hp | hp
  · obtain ⟨i, creation, request, -, -, -, -, hfailed | hfinishing⟩ := heffect.performed p hp
    · exact .inl (List.mem_append_left _ (hid ▸ hfailed))
    · exact .inr (hid ▸ hfinishing)
  · have hold : r ∈ s.reservations := by
      refine (heffect.rows r hr hnone).resolve_right (fun hle => ?_)
      exact absurd (h.inv.book.logIds _ hp _ rfl) (not_lt.mpr (hid ▸ hle))
    rcases h.pending p hp r hold hid hnone with hfailed | hfinishing
    · exact .inl (List.mem_append_right _ hfailed)
    · rcases heffect.finishing r.id hfinishing with
        hstill | ⟨i, rfl⟩ | ⟨i, request, rfl, hi, hend⟩ | hout
      · exact .inr hstill
      · exact absurd rfl hok
      · exact absurd hend (hok request hi r.id)
      · exact absurd hnone (hout r hr rfl)

theorem Kept.answered_step (h : Kept s) (hok : Prompt s a) (heffect : Effect s a s' new)
    {later earlier : List Event} {reservation : Int}
    (hlog : s'.log = later ++ .inFlight reservation :: earlier) (p : Performance)
    (hp : .performed p ∈ earlier) (hid : p.claim.reservation = reservation) :
    .failed reservation ∈ earlier := by
  rw [heffect.log] at hlog
  by_cases hnew : .inFlight reservation ∈ new
  · obtain ⟨rfl, i, fate, request, credentialId, row, rfl, hi, hprogress, hrow, hrowid, hfor,
      hnone⟩ := heffect.inFlight reservation hnew
    rcases Log.cons_split hlog with ⟨-, -, hrest⟩ | ⟨rest, -, hrest⟩
    · have hrest : s.log = earlier := hrest
      subst hrest
      rcases h.pending p hp row hrow (hrowid.trans hid.symm) hnone with hfailed | hfinishing
      · exact hrowid ▸ hfailed
      · exact absurd hfinishing (hok request credentialId hi hprogress row hrow hfor)
    · exact h.answered rest earlier reservation hrest p hp hid
  · obtain ⟨rest, -, hrest⟩ := Log.append_split hnew hlog
    exact h.answered rest earlier reservation hrest p hp hid

theorem Kept.act (h : Kept s) (hok : Prompt s a) (hstep : act s a = some s') : Kept s' := by
  obtain ⟨new, heffect⟩ := Effect.of_act hstep
  exact ⟨h.inv.act hstep, h.claimed_step hok heffect, h.performed_step hok heffect,
    h.pending_step hok heffect, fun _ _ _ hlog => h.answered_step hok heffect hlog⟩

theorem kept_init (clock : Nat) : Kept (ActionState.init clock) := by
  refine ⟨actionInv_init clock, ?_, ?_, ?_, ?_⟩ <;> simp [ActionState.init]

/-- An action of a day was requested and claimed on that day. -/
theorem Kept.capped (h : Kept s) {c : AgentCredential} (hc : c ∈ s.credentials) (day : Int) :
    ((performances s.log).countP (Performance.performedOn c.id day) : Int) ≤ c.dailyCap := by
  refine le_trans (Int.ofNat_le.mpr ?_) (h.inv.day hc day)
  refine List.countP_mono_left (fun p hp hday => ?_)
  have hperformed := mem_performances.mp hp
  obtain ⟨later, earlier, hlog⟩ := List.append_of_mem hperformed
  have hdated := h.inv.credit.dated p.claim
    (Log.mem_of_earlier hlog (h.inv.backed.claimed later earlier p hlog))
  obtain ⟨horder, hbefore⟩ := h.performed p hperformed
  simp only [Performance.performedOn, Bool.and_eq_true, decide_eq_true_eq] at hday
  have hstart : day * 86400 ≤ p.claim.requestedAt := by
    by_contra hearly
    have hle := @nextUtcMidnight_le p.claim.requestedAt (day - 1) hdated.nonneg (by omega)
    omega
  simp only [Performance.onDay, Bool.and_eq_true, decide_eq_true_eq]
  exact ⟨⟨hday.1.1, hstart⟩, horder.trans_lt hday.2⟩

theorem Kept.kept (h : Kept s) : ActionsKept s where
  once later earlier p hlog p' hp' hsame := by
    have hperformed := h.performed p (Log.mem_of_split hlog)
    have hdated := h.inv.credit.dated p.claim
      (Log.mem_of_earlier hlog (h.inv.backed.claimed later earlier p hlog))
    have hday : nextUtcMidnight p.claim.requestedAt ≤ p.claim.requestedAt + 86400 := by
      unfold nextUtcMidnight
      rw [Int.tdiv_eq_ediv_of_nonneg hdated.nonneg]
      omega
    rcases h.inv.book.once later earlier p hlog p' hp' hsame with hfailed | hover | hover
    · exact .inl hfailed
    · exact .inr hover
    · unfold idempotencyTtlSeconds at hover
      omega
  capped _ hc := h.capped hc
  unrevoked later earlier p hlog := by
    obtain ⟨mid, old, hmid⟩ :=
      List.append_of_mem (h.inv.backed.claimed later earlier p hlog)
    refine ⟨mid, old, hmid, h.inv.credit.unrevoked (later ++ .performed p :: mid) old p.claim ?_⟩
    rw [hlog, hmid, List.append_assoc, List.cons_append]
  unexpired p hp := by
    obtain ⟨later, earlier, hlog⟩ := List.append_of_mem hp
    exact (h.claimed p.claim
      (Log.mem_of_earlier hlog (h.inv.backed.claimed later earlier p hlog))).2
  replayed := h.inv.safe.replayed
  answered := h.answered

end Kept

namespace ActionsExample

/-- A credential for one action a day. -/
def issued (expiresAt : Int) : Step :=
  .issueCredential 7 1 "token" "prefix" "laptop" "reminders,reply_watch_email" 0 expiresAt

/-- A reminder up to its creation; `seconds` pass before its claim. -/
def claimed (i : Nat) (keyHash : String) (seconds : Nat) : List Step :=
  [.start i .reminder "token" keyHash, .authenticate i, .reserve i .done, .tick seconds,
    .claim i .done, .subscription i true]

def performed (i : Nat) (fate : StatementFate) : List Step :=
  [.perform i .created, .complete i fate]

def retried (i : Nat) : List Step :=
  [.start i .reminder "token" "key", .authenticate i, .reserve i .done]

/-- The credential expires before the claim. -/
def late : List Step := issued 100 :: .tick 99 :: claimed 0 "key" 5 ++ performed 0 .done

/-- One reminder is claimed before midnight and created after it, like another one. -/
def midnight : List Step :=
  issued 1000000 :: .tick 86399 :: claimed 0 "first" 0 ++ [.tick 1] ++ performed 0 .done ++
    claimed 1 "second" 0 ++ performed 1 .done

/-- A request outlives its reservation, and the retry is in time. -/
def stalled : List Step :=
  issued 1000000 :: claimed 0 "key" 0 ++ [.tick 86401] ++ claimed 1 "key" 0 ++
    performed 1 .done ++ performed 0 .done

/-- The outcome of the action is not written. -/
def uncompleted : List Step :=
  issued 100 :: claimed 0 "key" 0 ++ performed 0 .refused ++ retried 1

/-- What is checked of the steps of a run: each reservation is the first of all. -/
def Checked (s : ActionState) : Step → Prop
  | .reserve _ _ => s.reservations.rows.isEmpty = true
  | .claim _ _ => ∀ c ∈ s.credentials.rows, s.clock < c.expiresAt
  | .perform i _ => ∀ request ∈ s.requests i, s.clock < nextUtcMidnight request.now
  | .complete _ fate => fate ≠ .refused
  | .abandon _ => False
  | _ => True

instance decidableChecked (s : ActionState) : ∀ a, Decidable (Checked s a)
  | .reserve _ _ => inferInstanceAs (Decidable (s.reservations.rows.isEmpty = true))
  | .claim _ _ => inferInstanceAs (Decidable (∀ c ∈ s.credentials.rows, s.clock < c.expiresAt))
  | .perform i _ => inferInstanceAs
      (Decidable (∀ request ∈ s.requests i, s.clock < nextUtcMidnight request.now))
  | .complete _ fate => inferInstanceAs (Decidable (fate ≠ .refused))
  | .abandon _ => isFalse id
  | .tick _ => isTrue trivial
  | .issueCredential .. => isTrue trivial
  | .revokeCredential .. => isTrue trivial
  | .revokeByTokenHash .. => isTrue trivial
  | .start .. => isTrue trivial
  | .authenticate _ => isTrue trivial
  | .subscription .. => isTrue trivial
  | .lookUpConnections .. => isTrue trivial
  | .clear .. => isTrue trivial

theorem prompt_of_checked (s : ActionState) (a : Step) (h : Checked s a) : Prompt s a := by
  cases a with
  | reserve i fate =>
      intro request credentialId _ _ r hr
      have hempty : s.reservations.rows = [] := List.isEmpty_iff.mp h
      rw [← Table.mem_rows, hempty] at hr
      cases hr
  | claim i fate => exact fun request _ c hc _ _ => h c hc
  | perform i creation => exact h
  | complete i fate => exact h
  | abandon i => exact h.elim
  | _ => trivial

end ActionsExample

/-- The run ends in a state that does not keep what is promised. -/
def Breaks (steps : List Step) : Prop :=
  ∃ s, Transition.run act (ActionState.init 0) steps = some s ∧ ¬ ActionsKept s

theorem breaks_of_final {steps : List Step}
    (hrun : (Transition.run act (ActionState.init 0) steps).isSome = true)
    (h : ¬ ActionsKept (Transition.final act (ActionState.init 0) steps)) : Breaks steps :=
  ⟨_, Transition.run_eq_final hrun, h⟩

end Lightfriend.Agent
