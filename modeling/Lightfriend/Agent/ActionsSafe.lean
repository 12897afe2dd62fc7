import Lightfriend.Agent.ActionLog

/-! # Actions are capped and idempotent

Requests share the rows and the log, and each has a reservation of its own. A
transition touches the reservation of its request only, but for a reservation
whose time is over: that one may fall to a retry.
-/

namespace Lightfriend.Agent

/-! ## A request and its reservation -/

/-- No action is performed for the reservation yet; its row may be gone when its time is over. -/
structure Untouched (s : ActionState) (kind : ActionKind) (keyHash : String)
    (now credentialId reservation : Int) : Prop where
  fresh : ∀ e ∈ s.log, e.reservation ≠ some reservation
  present : (∃ r ∈ s.reservations, r.id = reservation) ∨ now + idempotencyTtlSeconds < s.clock
  row : ∀ r ∈ s.reservations, r.id = reservation →
    r.isFor credentialId kind keyHash = true ∧ r.createdAt = now ∧ r.outcome = none

/-- What a request knows where it stands. -/
def Standing (s : ActionState) (kind : ActionKind) (keyHash : String) (now : Int) : Progress → Prop
  | .started => True
  | .authenticated _ => True
  | .reserved credentialId reservation => Untouched s kind keyHash now credentialId reservation
  | .claimed claim => Untouched s kind keyHash now claim.credentialId
      claim.reservation ∧ claim.requestedAt = now ∧ .claimed claim ∈ s.log
  | .subscribed claim => Untouched s kind keyHash now claim.credentialId
      claim.reservation ∧ claim.requestedAt = now ∧ .claimed claim ∈ s.log
  | .ready claim => Untouched s kind keyHash now claim.credentialId
      claim.reservation ∧ claim.requestedAt = now ∧ .claimed claim ∈ s.log
  | .completing reservation .accepted => ∃ p, .performed p ∈ s.log ∧
      p.claim.reservation = reservation
  | .completing reservation .rejected => ∀ p, .performed p ∈ s.log →
      p.claim.reservation ≠ reservation
  | .clearing reservation => ∀ p, .performed p ∈ s.log → p.claim.reservation = reservation →
      .failed reservation ∈ s.log

/-- The transition leaves the reservation as it is, or its time is over. -/
structure Spares (s s' : ActionState) (reservation : Int) : Prop where
  clock : s.clock ≤ s'.clock
  grown : ∀ e ∈ s.log, e ∈ s'.log
  /-- A reservation with an outcome may be replayed. -/
  log : ∀ e ∈ s'.log, e.reservation = some reservation → e ∈ s.log ∨
    (∀ p, e ≠ .performed p) ∧ ∃ r ∈ s.reservations, r.id = reservation ∧ r.outcome ≠ none
  rows : ∀ r ∈ s'.reservations, r.id = reservation → r ∈ s.reservations
  present : ∀ r ∈ s.reservations, r.id = reservation →
    (∃ r' ∈ s'.reservations, r'.id = reservation) ∨
      r.createdAt + idempotencyTtlSeconds < s'.clock

structure Requests (s : ActionState) : Prop where
  time : ∀ i request, s.requests i = some request → 0 ≤ request.now ∧ request.now ≤ s.clock
  standing : ∀ i request, s.requests i = some request →
    Standing s request.actionKind request.keyHash request.now request.progress
  ids : ∀ i request r, s.requests i = some request → request.progress.reservation = some r →
    r < s.nextReservation
  distinct : ∀ i j request other r, s.requests i = some request → s.requests j = some other →
    request.progress.reservation = some r → other.progress.reservation = some r → i = j

section Standing

variable {s s' : ActionState} {i : Nat} {old request : Request} {kind : ActionKind}
  {keyHash : String} {now credentialId reservation : Int}

theorem Untouched.unperformed (h : Untouched s kind keyHash now credentialId reservation)
    (p : Performance) (hp : .performed p ∈ s.log) : p.claim.reservation ≠ reservation :=
  fun heq => h.fresh _ hp (congrArg some heq)

theorem Untouched.spare (h : Untouched s kind keyHash now credentialId reservation)
    (hspares : Spares s s' reservation) :
    Untouched s' kind keyHash now credentialId reservation where
  fresh e he hid := by
    rcases hspares.log e he hid with hold | ⟨-, r, hr, hrid, hout⟩
    · exact h.fresh e hold hid
    · exact hout (h.row r hr hrid).2.2
  present := by
    rcases h.present with ⟨r, hr, hid⟩ | hover
    · rcases hspares.present r hr hid with hstill | hover
      · exact .inl hstill
      · rw [(h.row r hr hid).2.1] at hover
        exact .inr hover
    · exact .inr (hover.trans_le hspares.clock)
  row r hr hid := h.row r (hspares.rows r hr hid) hid

theorem Spares.performed (h : Spares s s' reservation) (p : Performance)
    (hp : .performed p ∈ s'.log) (hid : p.claim.reservation = reservation) :
    .performed p ∈ s.log :=
  (h.log _ hp (congrArg some hid)).resolve_right (fun h => h.1 p rfl)

theorem Standing.spare {progress : Progress} (h : Standing s kind keyHash now progress)
    (hspares : ∀ r, progress.reservation = some r → Spares s s' r) :
    Standing s' kind keyHash now progress := by
  cases progress with
  | started => trivial
  | authenticated credentialId => trivial
  | reserved credentialId reservation =>
      have hown : Untouched s kind keyHash now credentialId reservation := h
      exact hown.spare (hspares _ rfl)
  | claimed claim =>
      exact ⟨h.1.spare (hspares _ rfl), h.2.1, (hspares _ rfl).grown _ h.2.2⟩
  | subscribed claim =>
      exact ⟨h.1.spare (hspares _ rfl), h.2.1, (hspares _ rfl).grown _ h.2.2⟩
  | ready claim =>
      exact ⟨h.1.spare (hspares _ rfl), h.2.1, (hspares _ rfl).grown _ h.2.2⟩
  | completing reservation outcome =>
      cases outcome with
      | accepted =>
          obtain ⟨p, hp, hid⟩ := h
          exact ⟨p, (hspares _ rfl).grown _ hp, hid⟩
      | rejected =>
          intro p hp hid
          exact h p ((hspares _ rfl).performed p hp hid) hid
  | clearing reservation =>
      intro p hp hid
      exact (hspares _ rfl).grown _ (h p ((hspares _ rfl).performed p hp hid) hid)

theorem Requests.keep (h : Requests s) (hreq : s'.requests = s.requests)
    (hclock : s.clock ≤ s'.clock) (hnext : s'.nextReservation = s.nextReservation)
    (hspares : ∀ r, Spares s s' r) : Requests s' where
  time i request hi := by
    rw [hreq] at hi
    exact ⟨(h.time i request hi).1, (h.time i request hi).2.trans hclock⟩
  standing i request hi := by
    rw [hreq] at hi
    exact (h.standing i request hi).spare (fun r _ => hspares r)
  ids i request r hi hr := by
    rw [hreq] at hi
    rw [hnext]
    exact h.ids i request r hi hr
  distinct i j request other r hi hj := by
    rw [hreq] at hi hj
    exact h.distinct i j request other r hi hj

/-- Request `i` goes on or ends; what it holds is what it held, or new. -/
theorem Requests.set (h : Requests s) (hold : ∀ o, s.requests i = some o → o = old)
    {new : Option Request} (hreq : s'.requests = Function.update s.requests i new)
    (hclock : s.clock ≤ s'.clock) (hnext : s.nextReservation ≤ s'.nextReservation)
    (hspares : ∀ r, r < s.nextReservation →
      (∀ o, s.requests i = some o → o.progress.reservation ≠ some r) → Spares s s' r)
    (hnew : ∀ request, new = some request → (0 ≤ request.now ∧ request.now ≤ s'.clock) ∧
      Standing s' request.actionKind request.keyHash request.now request.progress ∧
      ∀ r, request.progress.reservation = some r →
        (s.requests i = some old ∧ old.progress.reservation = some r) ∨
          (r = s.nextReservation ∧ r < s'.nextReservation)) : Requests s' := by
  have hcases : ∀ j request, s'.requests j = some request →
      (j = i ∧ new = some request) ∨ (j ≠ i ∧ s.requests j = some request) := by
    intro j request hj
    rw [hreq] at hj
    by_cases hji : j = i
    · subst hji
      rw [Function.update_self] at hj
      exact .inl ⟨rfl, hj⟩
    · rw [Function.update_of_ne hji] at hj
      exact .inr ⟨hji, hj⟩
  have hother : ∀ j request r, j ≠ i → s.requests j = some request →
      request.progress.reservation = some r →
      ∀ own, s.requests i = some own → own.progress.reservation ≠ some r :=
    fun j request r hji hj hr own ho hor => hji (h.distinct j i request own r hj ho hr hor)
  have hapart : ∀ j request other r, j ≠ i → s.requests j = some request →
      request.progress.reservation = some r → new = some other →
      other.progress.reservation ≠ some r := by
    intro j request other r hji hj hr hother' hor
    rcases (hnew other hother').2.2 r hor with ⟨ho, hheld⟩ | ⟨hfresh, -⟩
    · exact hother j request r hji hj hr old ho hheld
    · exact (h.ids j request r hj hr).ne hfresh
  refine ⟨fun j request hj => ?_, fun j request hj => ?_, fun j request r hj hr => ?_,
    fun j k request other r hj hk hr hr' => ?_⟩
  · rcases hcases j request hj with ⟨-, hn⟩ | ⟨-, hj⟩
    · exact (hnew request hn).1
    · exact ⟨(h.time j request hj).1, (h.time j request hj).2.trans hclock⟩
  · rcases hcases j request hj with ⟨-, hn⟩ | ⟨hji, hj⟩
    · exact (hnew request hn).2.1
    · exact (h.standing j request hj).spare (fun r hr =>
        hspares r (h.ids j request r hj hr) (hother j request r hji hj hr))
  · rcases hcases j request hj with ⟨-, hn⟩ | ⟨-, hj⟩
    · rcases (hnew request hn).2.2 r hr with ⟨ho, hheld⟩ | ⟨-, hlt⟩
      · exact (h.ids i old r ho hheld).trans_le hnext
      · exact hlt
    · exact (h.ids j request r hj hr).trans_le hnext
  · rcases hcases j request hj with ⟨hji, hn⟩ | ⟨hji, hj⟩
    · rcases hcases k other hk with ⟨hki, -⟩ | ⟨hki, hk⟩
      · rw [hji, hki]
      · exact absurd hr (hapart k other request r hki hk hr' hn)
    · rcases hcases k other hk with ⟨-, hn⟩ | ⟨-, hk⟩
      · exact absurd hr' (hapart j request other r hji hj hr hn)
      · exact h.distinct j k request other r hj hk hr hr'

theorem Requests.move (h : Requests s) (hi : s.requests i = some old)
    (hreq : s'.requests = Function.update s.requests i (some request))
    (hclock : s.clock ≤ s'.clock) (hnext : s.nextReservation ≤ s'.nextReservation)
    (hnow : request.now = old.now)
    (hspares : ∀ r, r < s.nextReservation → old.progress.reservation ≠ some r → Spares s s' r)
    (hstanding : Standing s' request.actionKind request.keyHash request.now request.progress)
    (hheld : ∀ r, request.progress.reservation = some r →
      old.progress.reservation = some r ∨ (r = s.nextReservation ∧ r < s'.nextReservation)) :
    Requests s' := by
  refine h.set (fun _ ho => Option.some.inj (ho.symm.trans hi)) hreq hclock hnext
    (fun r hlt hr => hspares r hlt (hr old hi)) ?_
  rintro _ ⟨⟩
  have htime := h.time i old hi
  exact ⟨hnow ▸ ⟨htime.1, htime.2.trans hclock⟩, hstanding,
    fun r hr => (hheld r hr).imp_left (fun hr => ⟨hi, hr⟩)⟩

theorem Requests.finish (h : Requests s) (hi : s.requests i = some old)
    (hreq : s'.requests = Function.update s.requests i none) (hclock : s.clock ≤ s'.clock)
    (hnext : s.nextReservation ≤ s'.nextReservation)
    (hspares : ∀ r, r < s.nextReservation → old.progress.reservation ≠ some r → Spares s s' r) :
    Requests s' :=
  h.set (fun _ ho => Option.some.inj (ho.symm.trans hi)) hreq hclock hnext
    (fun r hlt hr => hspares r hlt (hr old hi)) nofun

/-- A transition that only writes events, none of them about the reservation. -/
theorem Spares.of_log {r : Int} {new : List Event} (hclock : s.clock ≤ s'.clock)
    (hlog : s'.log = new ++ s.log)
    (hnew : ∀ e ∈ new, e.reservation = some r →
      (∀ p, e ≠ .performed p) ∧ ∃ r' ∈ s.reservations, r'.id = r ∧ r'.outcome ≠ none)
    (hrows : s'.reservations = s.reservations) : Spares s s' r where
  clock := hclock
  grown e he := by
    rw [hlog]
    exact List.mem_append_right _ he
  log e he hid := by
    rw [hlog] at he
    rcases List.mem_append.mp he with hin | hold
    · exact .inr (hnew e hin hid)
    · exact .inl hold
  rows r' hr' _ := hrows ▸ hr'
  present r' hr' hid := .inl ⟨r', hrows ▸ hr', hid⟩

end Standing

/-! ## The invariant -/

structure ActionInv (s : ActionState) : Prop where
  clock : 0 ≤ s.clock
  credit : Credit s.credentials s.nextCredential s.clock s.log
  book : Book s.reservations s.nextReservation s.clock s.log
  requests : Requests s

theorem Credit.empty (next clock : Int) : Credit Table.empty next clock [] := by
  refine ⟨?_, ?_, ?_, ?_, ?_, ?_, ?_, ?_⟩ <;> simp

theorem Book.empty (next clock : Int) : Book Table.empty next clock [] := by
  refine ⟨?_, ?_, ?_, ?_, ?_, ?_, ?_, ?_, ?_, ?_, ?_⟩ <;> simp

theorem actionInv_init (clock : Nat) : ActionInv (ActionState.init clock) where
  clock := Int.natCast_nonneg clock
  credit := .empty 1 clock
  book := .empty 1 clock
  requests := by
    have hnone : ∀ i, (ActionState.init clock).requests i = none := fun _ => rfl
    refine ⟨?_, ?_, ?_, ?_⟩ <;> simp [hnone]

section Transitions

variable {s s' : ActionState} {i : Nat} {request : Request} {credentialId reservation : Int}

/-- The transitions that no request takes. -/
theorem ActionInv.outside (h : ActionInv s) (new : List Event)
    (hcredit : Credit s'.credentials s'.nextCredential s'.clock s'.log)
    (hrows : s'.reservations = s.reservations) (hnext : s'.nextReservation = s.nextReservation)
    (hclock : s.clock ≤ s'.clock) (hreq : s'.requests = s.requests) (hlog : s'.log = new ++ s.log)
    (hnew : ∀ e ∈ new, e.reservation = none) : ActionInv s' where
  clock := h.clock.trans hclock
  credit := hcredit
  book := by
    rw [hrows, hnext, hlog]
    exact (h.book.tick hclock).append hnew
  requests := h.requests.keep hreq hclock hnext (fun r =>
    .of_log hclock hlog (fun e he hid => by simp [hnew e he] at hid) hrows)

theorem ActionInv.tick (h : ActionInv s) (seconds : Nat) :
    ActionInv { s with clock := s.clock + seconds } := by
  have hclock : s.clock ≤ s.clock + seconds := Int.le_add_of_nonneg_right (Int.natCast_nonneg _)
  exact h.outside [] (h.credit.tick hclock) rfl rfl hclock rfl rfl (List.forall_mem_nil _)

theorem ActionInv.issue (h : ActionInv s) {userId dailyCap : Int}
    {tokenHash tokenPrefix label scopes : String} {issuedAt expiresAt : Int}
    (hissued : issuedAt ≤ s.clock) (hcap : 1 ≤ dailyCap) :
    ActionInv (s.issue userId dailyCap tokenHash tokenPrefix label scopes issuedAt expiresAt) := by
  refine h.outside [] ?_ rfl rfl le_rfl rfl rfl (List.forall_mem_nil _)
  exact h.credit.issue rfl rfl hissued rfl (Int.le_of_lt hcap)

theorem ActionInv.revokeWhere (h : ActionInv s) (p : AgentCredential → Bool) (now : Int) :
    ActionInv (s.revokeWhere p now) := by
  refine h.outside _ (h.credit.revoke p) rfl rfl le_rfl rfl rfl (fun e he => ?_)
  obtain ⟨c, -, rfl⟩ := List.mem_map.mp he
  rfl

theorem ActionInv.start (h : ActionInv s) (hi : s.requests i = none) (tokenHash : String)
    (kind : ActionKind) (keyHash : String) :
    ActionInv (s.put i ⟨tokenHash, kind, keyHash, s.clock, .started⟩) := by
  have hspares : ∀ r, Spares s (s.put i ⟨tokenHash, kind, keyHash, s.clock, .started⟩) r :=
    fun r => .of_log le_rfl (List.nil_append _).symm (List.forall_mem_nil _) rfl
  have hnone : ∀ o, s.requests i = some o → o = ⟨tokenHash, kind, keyHash, s.clock, .started⟩ := by
    intro o ho
    rw [hi] at ho
    cases ho
  refine ⟨h.clock, h.credit, h.book,
    h.requests.set hnone rfl le_rfl le_rfl (fun r _ _ => hspares r) ?_⟩
  rintro _ ⟨⟩
  exact ⟨⟨h.clock, le_rfl⟩, trivial, nofun⟩

/-- A request goes on or ends, and what it writes into the log is about its own reservation, or
a replay. -/
theorem ActionInv.write (h : ActionInv s) (hi : s.requests i = some request) {t : Credentials}
    (new : List Event) (hcredit : Credit t s.nextCredential s.clock (new ++ s.log))
    (hbook : Book s.reservations s.nextReservation s.clock (new ++ s.log))
    (hnew : ∀ e ∈ new, ∀ r, e.reservation = some r → request.progress.reservation = some r ∨
      (∀ p, e ≠ .performed p) ∧ ∃ r' ∈ s.reservations, r'.id = r ∧ r'.outcome ≠ none)
    (next : Option Progress)
    (hnext : ∀ progress, next = some progress →
      (∀ s' : ActionState, s'.clock = s.clock → s'.reservations = s.reservations →
        s'.log = new ++ s.log →
          Standing s' request.actionKind request.keyHash request.now progress) ∧
      ∀ r, progress.reservation = some r → request.progress.reservation = some r) :
    ActionInv { s with
      credentials := t
      log := new ++ s.log
      requests := Function.update s.requests i
        (next.map (fun progress => { request with progress })) } := by
  have hspares : ∀ r, request.progress.reservation ≠ some r → Spares s { s with
      credentials := t
      log := new ++ s.log
      requests := Function.update s.requests i
        (next.map (fun progress => { request with progress })) } r := by
    intro r hr
    exact .of_log le_rfl rfl (fun e he hid => (hnew e he r hid).resolve_left hr) rfl
  refine ⟨h.clock, hcredit, hbook, ?_⟩
  cases next with
  | none => exact h.requests.finish hi rfl le_rfl le_rfl (fun r _ hr => hspares r hr)
  | some progress =>
      obtain ⟨hstanding, hheld⟩ := hnext progress rfl
      exact h.requests.move hi rfl le_rfl le_rfl rfl (fun r _ hr => hspares r hr)
        (hstanding _ rfl rfl rfl) (fun r hr => .inl (hheld r hr))

/-- It writes one event, which is about no reservation and no credential. -/
theorem ActionInv.note (h : ActionInv s) (hi : s.requests i = some request) (e : Event)
    (hclaim : ∀ q, e ≠ .claimed q) (hrevoked : ∀ id, e ≠ .revoked id) (hnone : e.reservation = none)
    (next : Option Progress)
    (hnext : ∀ progress, next = some progress →
      (∀ s' : ActionState, s'.clock = s.clock → s'.reservations = s.reservations →
        s'.log = e :: s.log →
          Standing s' request.actionKind request.keyHash request.now progress) ∧
      ∀ r, progress.reservation = some r → request.progress.reservation = some r) :
    ActionInv { s with
      log := e :: s.log
      requests := Function.update s.requests i
        (next.map (fun progress => { request with progress })) } := by
  have hnew : ∀ x ∈ [e], x.reservation = none := by
    intro x hx
    rw [List.mem_singleton.mp hx, hnone]
  refine h.write hi [e] (h.credit.record hclaim hrevoked) (h.book.append hnew)
    (fun x hx r hr => ?_) next hnext
  rw [hnew x hx] at hr
  cases hr

theorem ActionInv.fail (h : ActionInv s) (hi : s.requests i = some request)
    (hheld : request.progress.reservation = some reservation) :
    ActionInv ((s.record (.failed reservation)).put i
      { request with progress := .clearing reservation }) := by
  refine h.note hi (.failed reservation) nofun nofun rfl (some (.clearing reservation)) ?_
  rintro _ ⟨⟩
  refine ⟨fun s' _ _ hlog p hp hid => ?_, fun r hr => hheld.trans hr⟩
  rw [hlog]
  exact List.mem_cons_self

theorem ActionInv.finish (h : ActionInv s) (hi : s.requests i = some request) :
    ActionInv (s.finish i) :=
  h.write hi [] h.credit h.book (List.forall_mem_nil _) none nofun

/-- The request goes on without a trace. -/
theorem ActionInv.advance (h : ActionInv s) (hi : s.requests i = some request) {t : Credentials}
    (hcredit : Credit t s.nextCredential s.clock s.log) (progress : Progress)
    (hstanding : ∀ s' : ActionState, s'.clock = s.clock → s'.reservations = s.reservations →
      s'.log = s.log → Standing s' request.actionKind request.keyHash request.now progress)
    (hheld : ∀ r, progress.reservation = some r → request.progress.reservation = some r) :
    ActionInv ({ s with credentials := t }.put i { request with progress }) := by
  refine h.write hi [] hcredit h.book (List.forall_mem_nil _) (some progress) ?_
  rintro _ ⟨⟩
  exact ⟨hstanding, hheld⟩

/-- An untouched reservation stays so while nothing is written about it. -/
theorem Untouched.of_log {kind : ActionKind} {keyHash : String} {now : Int} {new : List Event}
    (h : Untouched s kind keyHash now credentialId reservation) (hclock : s'.clock = s.clock)
    (hrows : s'.reservations = s.reservations) (hlog : s'.log = new ++ s.log)
    (hnew : ∀ e ∈ new, e.reservation ≠ some reservation) :
    Untouched s' kind keyHash now credentialId reservation :=
  h.spare (.of_log hclock.ge hlog (fun e he hid => absurd hid (hnew e he)) hrows)

theorem Untouched.clearing {kind : ActionKind} {keyHash : String} {now : Int}
    (h : Untouched s kind keyHash now credentialId reservation) (hlog : s'.log = s.log) :
    Standing s' kind keyHash now (.clearing reservation) := by
  intro p hp hid
  rw [hlog] at hp
  exact absurd hid (h.unperformed p hp)

/-! ## Reserving the key -/

/-- The insert, behind the delete of rows whose time is over. -/
theorem ActionInv.insert (h : ActionInv s) (hi : s.requests i = some request) {rows : Reservations}
    (hbook : Book rows s.nextReservation s.clock s.log)
    (hrows : ∀ r ∈ rows, r ∈ s.reservations)
    (hkept : ∀ r ∈ s.reservations, r ∈ rows ∨ r.createdAt + idempotencyTtlSeconds < s.clock)
    (hfree : ∀ r ∈ rows, r.isFor credentialId request.actionKind request.keyHash = false)
    (fate : StatementFate) : ActionInv (reserveFresh s rows credentialId i request fate) := by
  have hbook' := @Book.insert rows s.nextReservation s.clock s.log hbook
    ⟨s.nextReservation, credentialId, request.actionKind, request.keyHash, none, request.now⟩ rfl
    rfl hfree
  have hmem : ∀ r, r ∈ (s.insertReservation rows credentialId request).reservations → r ∈ rows ∨
      r = ⟨s.nextReservation, credentialId, request.actionKind, request.keyHash, none,
        request.now⟩ := by
    intro r hr
    exact (Table.mem_insertOrIgnore.mp hr).imp_right And.right
  have hspares : ∀ s' : ActionState, s'.clock = s.clock → s'.log = s.log →
      s'.reservations = (s.insertReservation rows credentialId request).reservations →
      ∀ r, r < s.nextReservation → Spares s s' r := by
    intro s' hclock hlog hres r hlt
    refine ⟨hclock.ge, fun e he => hlog ▸ he, fun e he _ => .inl (hlog ▸ he), fun r' hr' hid => ?_,
      fun r' hr' hid => ?_⟩
    · rw [hres] at hr'
      rcases hmem r' hr' with hin | rfl
      · exact hrows r' hin
      · exact absurd hid hlt.ne'
    · rw [hres, hclock]
      refine (hkept r' hr').imp_left (fun hin => ⟨r', ?_, hid⟩)
      exact Table.mem_insertOrIgnore.mpr (.inl hin)
  cases fate with
  | refused => exact h.finish hi
  | lost =>
      refine ⟨h.clock, h.credit, hbook', ?_⟩
      exact h.requests.finish hi rfl le_rfl (Int.le_of_lt (lt_add_one _)) (fun r hlt _ =>
        hspares (reserveFresh s rows credentialId i request .lost) rfl rfl rfl r hlt)
  | done =>
      refine ⟨h.clock, h.credit, hbook', ?_⟩
      refine h.requests.move hi rfl le_rfl (Int.le_of_lt (lt_add_one _)) rfl (fun r hlt _ =>
        hspares (reserveFresh s rows credentialId i request .done) rfl rfl rfl r hlt)
        ⟨?_, ?_, ?_⟩ ?_
      · intro e he hid
        exact lt_irrefl _ (h.book.logIds e he _ hid)
      · have hfresh : ¬ rows.HasKey s.nextReservation := by
          intro hkey
          obtain ⟨r, hr, hid⟩ := Table.hasKey_iff.mp hkey
          exact (hbook.ids r hr).ne hid
        exact .inl ⟨_, Table.mem_insertOrIgnore.mpr (.inr ⟨hfresh, rfl⟩), rfl⟩
      · intro r hr hid
        rcases hmem r hr with hin | rfl
        · exact absurd hid (hbook.ids r hin).ne
        · exact ⟨Reservation.isFor_iff.mpr ⟨rfl, rfl, rfl⟩, rfl, rfl⟩
      · rintro r ⟨⟩
        exact .inr ⟨rfl, lt_add_one _⟩

theorem ActionInv.reserve (h : ActionInv s) (hi : s.requests i = some request)
    (fate : StatementFate) : ActionInv (reserveIdempotency s i request credentialId fate) := by
  unfold reserveIdempotency
  split
  next hfind =>
    refine h.insert hi h.book (fun r hr => hr) (fun r hr => .inl hr) (fun r hr => ?_) fate
    exact Bool.eq_false_iff.mpr (List.find?_eq_none.mp hfind r hr)
  next existing hfind =>
    have hmem : existing ∈ s.reservations := List.mem_of_find?_eq_some hfind
    have hfor := List.find?_some hfind
    split
    next =>
      split
      next outcome hout =>
        refine h.write hi
          [.replayed existing.id credentialId request.actionKind request.keyHash outcome]
          (h.credit.record nofun nofun) (h.book.replay hmem hfor hout) ?_ none nofun
        intro e he r hid
        rw [List.mem_singleton.mp he] at hid ⊢
        cases hid
        exact .inr ⟨nofun, existing, hmem, rfl, by simp [hout]⟩
      next => exact h.note hi (.inFlight existing.id) nofun nofun rfl none nofun
    next hover =>
      have hexpired : existing.createdAt + idempotencyTtlSeconds < s.clock := by
        have htime := (h.requests.time i request hi).2
        omega
      refine h.insert hi (h.book.delete (fun r hr hid => .inl ?_))
        (fun r hr => (Table.mem_deleteWhere.mp hr).1) (fun r hr => ?_) (fun r hr => ?_) fate
      · rw [Table.eq_of_key_eq hr hmem (of_decide_eq_true hid)]
        exact hexpired
      · by_cases hid : r.id = existing.id
        · rw [Table.eq_of_key_eq hr hmem hid]
          exact .inr hexpired
        · exact .inl (Table.mem_deleteWhere.mpr ⟨hr, decide_eq_false hid⟩)
      · obtain ⟨hr, hkept⟩ := Table.mem_deleteWhere.mp hr
        rw [Bool.eq_false_iff]
        intro hfor'
        obtain ⟨hcredential, hkind, hkey⟩ := Reservation.isFor_iff.mp hfor'
        have heq := h.book.keys r hr existing hmem (by rw [hcredential, hkind, hkey, hfor])
        exact of_decide_eq_false hkept (congrArg Reservation.id heq)

/-! ## The claim -/

theorem ActionInv.claimSlot (h : ActionInv s) (hi : s.requests i = some request)
    (hprogress : request.progress = .reserved credentialId reservation) (fate : StatementFate) :
    ActionInv (claimSlot s i request credentialId reservation fate) := by
  have hown : Untouched s request.actionKind request.keyHash request.now credentialId
      reservation := by
    have hstanding := h.requests.standing i request hi
    rwa [hprogress] at hstanding
  obtain ⟨hnonneg, hnow⟩ := h.requests.time i request hi
  have hclear : ∀ {t : Credentials}, Credit t s.nextCredential s.clock s.log →
      ActionInv ({ s with credentials := t }.put i
        { request with progress := .clearing reservation }) := by
    intro t hcredit
    refine h.advance hi hcredit (.clearing reservation) (fun s' _ _ hlog => hown.clearing hlog) ?_
    intro r hr
    rw [hprogress]
    exact hr
  obtain ⟨t, hrows, hkept, ⟨answer, hclaim, hnot⟩ | ⟨current, hmem, -, hlive, hexpires, hopen,
    hslot, hclaim⟩⟩ := claimCredential_cases s.credentials request.tokenHash
      request.actionKind.requiredScope request.now
  · have hcredit := h.credit.reset hnow hrows hkept
    cases fate with
    | refused => exact hclear h.credit
    | lost =>
        simp only [Agent.claimSlot, hclaim]
        exact hclear hcredit
    | done =>
        simp only [Agent.claimSlot, hclaim]
        cases answer with
        | accepted credential => exact absurd rfl (hnot credential)
        | invalid => exact hclear hcredit
        | overCap => exact hclear hcredit
  · have hcredit := h.credit.reset hnow hrows hkept
    cases fate with
    | refused => exact hclear h.credit
    | lost =>
        simp only [Agent.claimSlot, hclaim]
        exact hclear (hcredit.useOne hmem hslot)
    | done =>
        simp only [Agent.claimSlot, hclaim]
        split
        next hid =>
          subst hid
          refine h.write hi [_]
            (hcredit.claim hmem hlive hexpires hopen hslot hnonneg hnow reservation)
            (h.book.append (fun e he => ?_)) (fun e he r hr => ?_) (some (.claimed _)) ?_
          · rw [List.mem_singleton.mp he]
            rfl
          · rw [List.mem_singleton.mp he] at hr
            cases hr
          · rintro _ ⟨⟩
            refine ⟨fun s' hclock hres hlog => ⟨?_, rfl, ?_⟩, fun r hr => ?_⟩
            · refine hown.of_log hclock hres hlog (fun e he => ?_)
              rw [List.mem_singleton.mp he]
              intro hnone
              cases hnone
            · rw [hlog]
              exact List.mem_cons_self
            · rw [hprogress]
              exact hr
        next => exact hclear (hcredit.useOne hmem hslot)

/-! ## The action -/

theorem ActionInv.performAction (h : ActionInv s) {claim : Claim}
    (hi : s.requests i = some request) (hprogress : request.progress = .ready claim)
    (creation : Creation) : ActionInv (performAction s i request claim creation) := by
  have hstanding := h.requests.standing i request hi
  rw [hprogress] at hstanding
  obtain ⟨hown, hrequested, hclaimed⟩ := hstanding
  have hid : claim.reservation < s.nextReservation :=
    h.requests.ids i request claim.reservation hi (by rw [hprogress]; rfl)
  have hperformed := @Book.perform s.reservations s.nextReservation s.clock s.log h.book
    ⟨claim, request.actionKind, request.keyHash, s.clock⟩ hown.fresh hid
    (by simpa only [hrequested] using hown.present)
    (fun r hr hrid => by simpa only [hrequested] using hown.row r hr hrid) hclaimed rfl
  have hheld : ∀ r, some claim.reservation = some r → request.progress.reservation = some r := by
    intro r hr
    rw [hprogress]
    exact hr
  have hfailed : ∀ e ∈ [Event.failed claim.reservation], e.reservation = none := by
    intro e he
    rw [List.mem_singleton.mp he]
    rfl
  cases creation with
  | created =>
      refine h.write hi [.performed ⟨claim, request.actionKind, request.keyHash, s.clock⟩]
        (h.credit.record nofun nofun) hperformed (fun e he r hr => ?_)
        (some (.completing claim.reservation .accepted)) ?_
      · rw [List.mem_singleton.mp he] at hr
        exact .inl (hheld r hr)
      · rintro _ ⟨⟩
        refine ⟨fun s' _ _ hlog =>
          ⟨⟨claim, request.actionKind, request.keyHash, s.clock⟩, ?_, rfl⟩, hheld⟩
        rw [hlog]
        exact List.mem_cons_self
  | rejected =>
      refine h.advance hi h.credit (.completing claim.reservation .rejected)
        (fun s' _ _ hlog p hp => ?_) hheld
      rw [hlog] at hp
      exact hown.unperformed p hp
  | failed => exact h.fail hi (by rw [hprogress]; rfl)
  | lost =>
      have hcredit := @Credit.record _ _ _ _ h.credit
        (.performed ⟨claim, request.actionKind, request.keyHash, s.clock⟩) nofun nofun
      refine h.write hi [.failed claim.reservation, .performed ⟨claim, request.actionKind,
        request.keyHash, s.clock⟩] (hcredit.record nofun nofun) (hperformed.append hfailed)
        (fun e he r hr => ?_) (some (.clearing claim.reservation)) ?_
      · rcases List.mem_cons.mp he with rfl | he
        · cases hr
        · rw [List.mem_singleton.mp he] at hr
          exact .inl (hheld r hr)
      · rintro _ ⟨⟩
        refine ⟨fun s' _ _ hlog p hp hpid => ?_, hheld⟩
        rw [hlog]
        exact List.mem_cons_self

/-! ## The end of a request -/

theorem ActionInv.complete (h : ActionInv s) {outcome : Outcome}
    (hi : s.requests i = some request)
    (hprogress : request.progress = .completing reservation outcome) :
    ActionInv ((s.setOutcome reservation outcome).finish i) := by
  have hstanding := h.requests.standing i request hi
  rw [hprogress] at hstanding
  refine ⟨h.clock, h.credit, h.book.setOutcome ?_ ?_, ?_⟩
  · rintro rfl
    exact hstanding
  · rintro rfl
    exact hstanding
  · refine h.requests.finish hi rfl le_rfl le_rfl (fun r _ hr => ?_)
    have hne : reservation ≠ r := by
      rintro rfl
      exact hr (by rw [hprogress]; rfl)
    refine ⟨le_rfl, fun e he => he, fun e he _ => .inl he, fun r' hr' hid => ?_,
      fun r' hr' hid => .inl ⟨_, Table.exists_updateWhere (by intro r; rfl) hr', ?_⟩⟩
    · obtain ⟨old, hold, rfl⟩ := (Table.mem_updateWhere (by intro r; rfl)).mp hr'
      split at hid
      next heq => exact absurd ((of_decide_eq_true heq).symm.trans hid) hne
      next heq =>
        rw [if_neg heq]
        exact hold
    · split
      · exact hid
      · exact hid

theorem ActionInv.clear (h : ActionInv s) (hi : s.requests i = some request)
    (hprogress : request.progress = .clearing reservation) :
    ActionInv ((s.dropReservation reservation).finish i) := by
  have hstanding := h.requests.standing i request hi
  rw [hprogress] at hstanding
  refine ⟨h.clock, h.credit, h.book.delete (fun r hr hid => .inr (fun p hp hpid => ?_)), ?_⟩
  · rw [of_decide_eq_true hid] at hpid ⊢
    exact hstanding p hp hpid
  · refine h.requests.finish hi rfl le_rfl le_rfl (fun r _ hr => ?_)
    have hne : r ≠ reservation := by
      rintro rfl
      exact hr (by rw [hprogress]; rfl)
    refine ⟨le_rfl, fun e he => he, fun e he _ => .inl he,
      fun r' hr' _ => (Table.mem_deleteWhere.mp hr').1, fun r' hr' hid => .inl ⟨r', ?_, hid⟩⟩
    exact Table.mem_deleteWhere.mpr ⟨hr', decide_eq_false (hid ▸ hne)⟩

theorem ActionInv.act {a : Step} (h : ActionInv s) (hstep : act s a = some s') : ActionInv s' := by
  cases a with
  | tick seconds =>
      cases hstep
      exact h.tick seconds
  | issueCredential userId dailyCap tokenHash tokenPrefix label scopes issuedAt expiresAt =>
      simp only [Agent.act] at hstep
      split at hstep
      next => cases hstep
      next hok =>
        cases hstep
        push Not at hok
        exact h.issue hok.1 hok.2.1
  | revokeCredential userId id now fate =>
      cases hstep
      exact fate.after_keeps ActionInv h (h.revokeWhere _ _)
  | revokeByTokenHash tokenHash now fate =>
      cases hstep
      exact fate.after_keeps ActionInv h (h.revokeWhere _ _)
  | start i kind tokenHash keyHash =>
      simp only [Agent.act] at hstep
      split at hstep
      next => cases hstep
      next hfree =>
        cases hstep
        exact h.start (by simpa using hfree) tokenHash kind keyHash
  | authenticate i =>
      simp only [Agent.act] at hstep
      split at hstep
      next tokenHash kind keyHash now hi =>
        split at hstep
        next =>
          cases hstep
          exact h.finish hi
        next credential hfind =>
          split at hstep
          next =>
            cases hstep
            exact h.advance hi h.credit (.authenticated credential.id) (fun _ _ _ _ => trivial)
              nofun
          next =>
            cases hstep
            exact h.finish hi
      next => cases hstep
  | reserve i fate =>
      simp only [Agent.act] at hstep
      split at hstep
      next tokenHash kind keyHash now credentialId hi =>
        cases hstep
        exact h.reserve hi fate
      next => cases hstep
  | claim i fate =>
      simp only [Agent.act] at hstep
      split at hstep
      next tokenHash kind keyHash now credentialId reservation hi =>
        cases hstep
        exact h.claimSlot hi rfl fate
      next => cases hstep
  | subscription i active =>
      simp only [Agent.act] at hstep
      split at hstep
      next tokenHash kind keyHash now claim hi =>
        cases hstep
        obtain ⟨hown, hrequested, hclaimed⟩ := h.requests.standing i _ hi
        have hready : ∀ s' : ActionState, s'.clock = s.clock → s'.reservations = s.reservations →
            s'.log = s.log → Untouched s' kind keyHash now claim.credentialId claim.reservation ∧
              claim.requestedAt = now ∧ .claimed claim ∈ s'.log := by
          intro s' hclock hres hlog
          exact ⟨hown.of_log hclock hres (hlog.trans (List.nil_append _).symm)
            (List.forall_mem_nil _), hrequested,
            hlog ▸ hclaimed⟩
        refine h.advance hi h.credit _ (fun s' hclock hres hlog => ?_) (fun r hr => ?_)
        · cases active with
          | false =>
              intro p hp
              rw [hlog] at hp
              exact hown.unperformed p hp
          | true =>
              cases kind with
              | reminder => exact hready s' hclock hres hlog
              | replyWatchEmail => exact hready s' hclock hres hlog
        · cases active with
          | false => exact hr
          | true =>
              cases kind with
              | reminder => exact hr
              | replyWatchEmail => exact hr
      next => cases hstep
  | lookUpConnections i ok =>
      simp only [Agent.act] at hstep
      split at hstep
      next tokenHash kind keyHash now claim hi =>
        obtain ⟨hown, hrequested, hclaimed⟩ := h.requests.standing i _ hi
        split at hstep
        next =>
          cases hstep
          refine h.advance hi h.credit (.ready claim) (fun s' hclock hres hlog => ?_)
            (fun r hr => hr)
          exact ⟨hown.of_log hclock hres (hlog.trans (List.nil_append _).symm)
            (List.forall_mem_nil _), hrequested,
            hlog ▸ hclaimed⟩
        next =>
          cases hstep
          exact h.fail hi rfl
      next => cases hstep
  | perform i creation =>
      simp only [Agent.act] at hstep
      split at hstep
      next tokenHash kind keyHash now claim hi =>
        split at hstep
        next => cases hstep
        next =>
          cases hstep
          exact h.performAction hi rfl creation
      next => cases hstep
  | complete i fate =>
      simp only [Agent.act] at hstep
      split at hstep
      next tokenHash kind keyHash now reservation outcome hi =>
        cases hstep
        rcases fate.after_cases s (s.setOutcome reservation outcome) with heq | heq
        · rw [heq]
          exact h.finish hi
        · rw [heq]
          exact h.complete hi rfl
      next => cases hstep
  | clear i fate =>
      simp only [Agent.act] at hstep
      split at hstep
      next tokenHash kind keyHash now reservation hi =>
        cases hstep
        rcases fate.after_cases s (s.dropReservation reservation) with heq | heq
        · rw [heq]
          exact h.finish hi
        · rw [heq]
          exact h.clear hi rfl
      next => cases hstep
  | abandon i =>
      simp only [Agent.act] at hstep
      split at hstep
      next hsome =>
        cases hstep
        obtain ⟨request, hi⟩ := Option.isSome_iff_exists.mp hsome
        exact h.finish hi
      next => cases hstep

end Transitions

/-! ## Counting actions -/

/-- Each action has a claim of its own. -/
structure Backed (log : List Event) : Prop where
  claimed : ∀ later earlier p, log = later ++ .performed p :: earlier → .claimed p.claim ∈ earlier
  distinct : ∀ later earlier p, log = later ++ .performed p :: earlier →
    ∀ p', .performed p' ∈ earlier → p'.claim.reservation ≠ p.claim.reservation

theorem Backed.tail {log : List Event} {e : Event} (h : Backed (e :: log)) : Backed log where
  claimed later earlier p hlog := h.claimed (e :: later) earlier p (by rw [hlog]; rfl)
  distinct later earlier p hlog := h.distinct (e :: later) earlier p (by rw [hlog]; rfl)

theorem Backed.nodup {log : List Event} (h : Backed log) :
    ((performances log).map Performance.claim).Nodup := by
  induction log with
  | nil => exact List.nodup_nil
  | cons e rest ih =>
      cases e with
      | performed p =>
          have hcons : performances (.performed p :: rest) = p :: performances rest := rfl
          rw [hcons, List.map_cons]
          refine List.nodup_cons.mpr ⟨fun hmem => ?_, ih h.tail⟩
          obtain ⟨p', hp', heq⟩ := List.mem_map.mp hmem
          exact h.distinct [] rest p rfl p' (mem_performances.mp hp')
            (congrArg Claim.reservation heq)
      | revoked id => exact ih h.tail
      | claimed q => exact ih h.tail
      | failed r => exact ih h.tail
      | inFlight r => exact ih h.tail
      | replayed r c k kh o => exact ih h.tail

/-- There are at most as many actions as claims of any kind. -/
theorem Backed.countP_le {log : List Event} (h : Backed log) (f : Claim → Bool) :
    (performances log).countP (fun p => f p.claim) ≤ (claims log).countP f := by
  have hsubset : (performances log).map Performance.claim ⊆ claims log := by
    intro q hq
    obtain ⟨p, hp, rfl⟩ := List.mem_map.mp hq
    obtain ⟨later, earlier, hlog⟩ := List.append_of_mem (mem_performances.mp hp)
    exact mem_claims.mpr (Log.mem_of_earlier hlog (h.claimed later earlier p hlog))
  have hle := (h.nodup.subperm hsubset).countP_le f
  rwa [List.countP_map] at hle

theorem ActionInv.backed {s : ActionState} (h : ActionInv s) : Backed s.log :=
  ⟨fun later earlier p hlog => (h.book.backed later earlier p hlog).1,
    fun later earlier p hlog => (h.book.backed later earlier p hlog).2⟩

theorem ActionInv.window {s : ActionState} (h : ActionInv s) {c : AgentCredential}
    (hc : c ∈ s.credentials) (window : Int) :
    ((performances s.log).countP (Performance.countsIn c.id window) : Int) ≤ c.dailyCap := by
  have hle := h.backed.countP_le (Claim.countsIn c.id window)
  exact (Int.ofNat_le.mpr hle).trans ((h.credit.counted c hc).windows window)

/-- A claim of a day counts in the window that ends with the day. -/
theorem Claim.Dated.window_eq {q : Claim} (h : q.Dated) {day : Int}
    (hstart : day * 86400 ≤ q.requestedAt) (hend : q.claimedAt < (day + 1) * 86400) :
    q.window = (day + 1) * 86400 := by
  have hle := h.opened.trans (nextUtcMidnight_le (h.nonneg.trans h.order) hend)
  have hbefore := h.before
  obtain ⟨k, hk⟩ := h.midnight
  omega

theorem ActionInv.day {s : ActionState} (h : ActionInv s) {c : AgentCredential}
    (hc : c ∈ s.credentials) (day : Int) :
    ((performances s.log).countP (Performance.onDay c.id day) : Int) ≤ c.dailyCap := by
  refine le_trans (Int.ofNat_le.mpr ?_) (h.window hc ((day + 1) * 86400))
  refine List.countP_mono_left (fun p hp hday => ?_)
  simp only [Performance.onDay, Bool.and_eq_true, decide_eq_true_eq] at hday
  obtain ⟨later, earlier, hlog⟩ := List.append_of_mem (mem_performances.mp hp)
  have hdated := h.credit.dated p.claim
    (Log.mem_of_earlier hlog (h.backed.claimed later earlier p hlog))
  simp [Performance.countsIn, hday.1.1, hdated.window_eq hday.1.2 hday.2]

theorem ActionInv.safe {s : ActionState} (h : ActionInv s) : ActionsSafe s where
  once := h.book.once
  window _ hc := h.window hc
  day _ hc := h.day hc
  claimed := h.backed.claimed
  unrevoked := h.credit.unrevoked
  unexpired := h.credit.unexpired
  replayed later earlier reservation credentialId kind keyHash outcome hlog := by
    cases outcome with
    | accepted =>
        exact h.book.replayedAccepted later earlier reservation credentialId kind keyHash hlog
    | rejected =>
        exact h.book.replayedRejected reservation credentialId kind keyHash (Log.mem_of_split hlog)

end Lightfriend.Agent
