import Lightfriend.Agent.Pairing

/-! # Every credential is due to one approval

The log tells what the rows have been through, so a row that is still there is
all that a statement has to look at. A poll relies on the locks it holds: the
session it read stays as it was, and the count of its user can only fall.
-/

namespace Lightfriend.Agent

/-! ## The log -/

/-- What the log tells about the sessions. -/
structure Told (sessions : Sessions) (nextSession : Int) (log : List Entry) : Prop where
  ids : ∀ r ∈ sessions, r.id < nextSession
  logIds : ∀ e ∈ log, e.sessionId < nextSession
  devices : ∀ r ∈ sessions, ∀ r' ∈ sessions, r.deviceCodeHash = r'.deviceCodeHash → r = r'
  created : ∀ r ∈ sessions, .created r.id r.expiresAt ∈ log
  approved : ∀ r ∈ sessions, ∀ u, r.approvedByUserId = some u → .approved r.id u ∈ log
  unapproved : ∀ r ∈ sessions, r.approvedAt = none → ∀ u, .approved r.id u ∉ log
  unissued : ∀ r ∈ sessions, r.consumedAt = none → ∀ c u n t, .issued r.id c u n t ∉ log
  approvedOnce : ∀ sessionId u u', .approved sessionId u ∈ log → .approved sessionId u' ∈ log →
    u = u'
  issued : ∀ later earlier sessionId c userId requestedAt t,
    log = later ++ .issued sessionId c userId requestedAt t :: earlier →
      Justified earlier sessionId userId requestedAt

section Told

variable {sessions : Sessions} {nextSession : Int} {log : List Entry}

theorem Told.deleteWhere (h : Told sessions nextSession log) (p : AgentPairingSession → Bool) :
    Told (sessions.deleteWhere p) nextSession log where
  ids r hr := h.ids r (Table.mem_deleteWhere.mp hr).1
  logIds := h.logIds
  devices r hr r' hr' := h.devices r (Table.mem_deleteWhere.mp hr).1 r'
    (Table.mem_deleteWhere.mp hr').1
  created r hr := h.created r (Table.mem_deleteWhere.mp hr).1
  approved r hr := h.approved r (Table.mem_deleteWhere.mp hr).1
  unapproved r hr := h.unapproved r (Table.mem_deleteWhere.mp hr).1
  unissued r hr := h.unissued r (Table.mem_deleteWhere.mp hr).1
  approvedOnce := h.approvedOnce
  issued := h.issued

/-- Nothing is in the log about a session that is not created yet. -/
theorem Told.new (h : Told sessions nextSession log) {e : Entry} (he : e ∈ log) :
    e.sessionId ≠ nextSession :=
  (h.logIds e he).ne

/-- An entry of another kind leaves every issued credential justified. -/
theorem Told.issued_of_ne (h : Told sessions nextSession log) {e : Entry}
    (hne : ∀ r c u n t, e ≠ .issued r c u n t) {later earlier : List Entry}
    {sessionId c userId requestedAt t : Int}
    (hlog : e :: log = later ++ .issued sessionId c userId requestedAt t :: earlier) :
    Justified earlier sessionId userId requestedAt := by
  rcases Log.cons_split hlog with ⟨-, heq, -⟩ | ⟨rest, -, hlog⟩
  · exact absurd heq (hne _ _ _ _ _)
  · exact h.issued rest earlier sessionId c userId requestedAt t hlog

/-- Rows that are told apart as before: only their approval or consumption is written. -/
theorem Told.rewritten (h : Told sessions nextSession log) {rows : Sessions}
    (hrows : ∀ r ∈ rows, ∃ old ∈ sessions, r.id = old.id ∧ r.expiresAt = old.expiresAt ∧
      r.deviceCodeHash = old.deviceCodeHash) :
    (∀ r ∈ rows, r.id < nextSession) ∧
      (∀ r ∈ rows, ∀ r' ∈ rows, r.deviceCodeHash = r'.deviceCodeHash → r = r') ∧
      ∀ r ∈ rows, .created r.id r.expiresAt ∈ log := by
  refine ⟨fun r hr => ?_, fun r hr r' hr' heq => ?_, fun r hr => ?_⟩
  · obtain ⟨old, hold, hid, -⟩ := hrows r hr
    rw [hid]
    exact h.ids old hold
  · obtain ⟨old, hold, hid, -, hdevice⟩ := hrows r hr
    obtain ⟨old', hold', hid', -, hdevice'⟩ := hrows r' hr'
    have hsame := h.devices old hold old' hold' (hdevice.symm.trans (heq.trans hdevice'))
    exact Table.eq_of_key_eq hr hr' (by rw [hid, hid', hsame])
  · obtain ⟨old, hold, hid, hexpires, -⟩ := hrows r hr
    rw [hid, hexpires]
    exact h.created old hold

theorem Told.create (h : Told sessions nextSession log) {row : AgentPairingSession}
    (hid : row.id = nextSession) (hdevice : ∀ r ∈ sessions, r.deviceCodeHash ≠ row.deviceCodeHash)
    (happroved : row.approvedByUserId = none) :
    Told (sessions.insertOrIgnore row) (nextSession + 1)
      (.created nextSession row.expiresAt :: log) := by
  have hmem : ∀ r, r ∈ sessions.insertOrIgnore row → r ∈ sessions ∨ r = row := by
    intro r hr
    exact (Table.mem_insertOrIgnore.mp hr).imp_right And.right
  refine ⟨?_, ?_, ?_, ?_, ?_, ?_, ?_, ?_, ?_⟩
  · intro r hr
    rcases hmem r hr with hr | rfl
    · exact (h.ids r hr).trans (lt_add_one _)
    · rw [hid]
      exact lt_add_one _
  · intro e he
    rcases List.mem_cons.mp he with rfl | he
    · exact lt_add_one _
    · exact (h.logIds e he).trans (lt_add_one _)
  · intro r hr r' hr' heq
    rcases hmem r hr with hold | hnew
    · rcases hmem r' hr' with hold' | hnew'
      · exact h.devices r hold r' hold' heq
      · exact absurd (hnew' ▸ heq) (hdevice r hold)
    · rcases hmem r' hr' with hold' | hnew'
      · exact absurd (hnew ▸ heq.symm) (hdevice r' hold')
      · rw [hnew, hnew']
  · intro r hr
    rcases hmem r hr with hr | rfl
    · exact List.mem_cons_of_mem _ (h.created r hr)
    · rw [hid]
      exact List.mem_cons_self
  · intro r hr u hu
    rcases hmem r hr with hr | rfl
    · exact List.mem_cons_of_mem _ (h.approved r hr u hu)
    · rw [happroved] at hu
      cases hu
  · intro r hr hnone u hu
    have hlog := (List.mem_cons.mp hu).resolve_left nofun
    rcases hmem r hr with hold | rfl
    · exact h.unapproved r hold hnone u hlog
    · exact h.new hlog hid
  · intro r hr hnone c u n t ht
    have hlog := (List.mem_cons.mp ht).resolve_left nofun
    rcases hmem r hr with hold | rfl
    · exact h.unissued r hold hnone c u n t hlog
    · exact h.new hlog hid
  · intro sessionId u u' hu hu'
    exact h.approvedOnce sessionId u u' ((List.mem_cons.mp hu).resolve_left nofun)
      ((List.mem_cons.mp hu').resolve_left nofun)
  · intro later earlier sessionId c userId n t hlog
    refine h.issued_of_ne (fun r c u n t heq => ?_) hlog
    cases heq

theorem Told.approve (h : Told sessions nextSession log) {session : AgentPairingSession}
    (hmem : session ∈ sessions) (hnone : session.approvedAt = none) (userId now : Int) :
    Told (sessions.updateWhere (fun r => r.id = session.id)
      (fun r => { r with approvedByUserId := some userId, approvedAt := some now })
      (fun _ => rfl)) nextSession (.approved session.id userId :: log) := by
  have hrows : ∀ r, r ∈ sessions.updateWhere (fun r => r.id = session.id)
      (fun r => { r with approvedByUserId := some userId, approvedAt := some now })
      (fun _ => rfl) →
      (r ∈ sessions ∧ r.id ≠ session.id) ∨
        r = { session with approvedByUserId := some userId, approvedAt := some now } := by
    intro r hr
    obtain ⟨old, hold, rfl⟩ := (Table.mem_updateWhere _).mp hr
    by_cases heq : old.id = session.id
    · rw [Table.eq_of_key_eq hold hmem heq]
      exact .inr (by simp)
    · simp only [decide_eq_true_eq, if_neg heq]
      exact .inl ⟨hold, heq⟩
  have hsame : ∀ r, r ∈ sessions.updateWhere (fun r => r.id = session.id)
      (fun r => { r with approvedByUserId := some userId, approvedAt := some now })
      (fun _ => rfl) → ∃ old ∈ sessions, (r.id = old.id ∧ r.expiresAt = old.expiresAt ∧
        r.deviceCodeHash = old.deviceCodeHash) ∧ r.consumedAt = old.consumedAt := by
    intro r hr
    rcases hrows r hr with ⟨hr, -⟩ | rfl
    · exact ⟨r, hr, ⟨rfl, rfl, rfl⟩, rfl⟩
    · exact ⟨session, hmem, ⟨rfl, rfl, rfl⟩, rfl⟩
  obtain ⟨hids, hdevices, hcreated⟩ := h.rewritten (fun r hr =>
    (hsame r hr).imp (fun _ hold => ⟨hold.1, hold.2.1⟩))
  refine ⟨hids, ?_, hdevices, fun r hr => List.mem_cons_of_mem _ (hcreated r hr), ?_, ?_, ?_, ?_,
    ?_⟩
  · intro e he
    rcases List.mem_cons.mp he with rfl | he
    · exact h.ids session hmem
    · exact h.logIds e he
  · intro r hr u hu
    rcases hrows r hr with ⟨hr, -⟩ | rfl
    · exact List.mem_cons_of_mem _ (h.approved r hr u hu)
    · cases hu
      exact List.mem_cons_self
  · intro r hr hfree u hu
    rcases hrows r hr with ⟨hr, hne⟩ | rfl
    · rcases List.mem_cons.mp hu with heq | hu
      · injection heq with hid
        exact hne hid
      · exact h.unapproved r hr hfree u hu
    · cases hfree
  · intro r hr hfree c u n t ht
    obtain ⟨old, hold, ⟨hid, -⟩, hconsumed⟩ := hsame r hr
    rw [hid] at ht
    exact h.unissued old hold (hconsumed ▸ hfree) c u n t
      ((List.mem_cons.mp ht).resolve_left nofun)
  · intro sessionId u u' hu hu'
    rcases List.mem_cons.mp hu with heq | hu
    · injection heq with hid hu
      rcases List.mem_cons.mp hu' with heq' | hu'
      · injection heq' with hid' hu'
        rw [hu, hu']
      · exact absurd (hid ▸ hu') (h.unapproved session hmem hnone u')
    · rcases List.mem_cons.mp hu' with heq' | hu'
      · injection heq' with hid' hu'
        exact absurd (hid' ▸ hu) (h.unapproved session hmem hnone u)
      · exact h.approvedOnce sessionId u u' hu hu'
  · intro later earlier sessionId c userId n t hlog
    refine h.issued_of_ne (fun r c u n t heq => ?_) hlog
    cases heq

theorem Told.issue (h : Told sessions nextSession log) {session : AgentPairingSession}
    (hmem : session ∈ sessions) (hnone : session.consumedAt = none) {userId requestedAt : Int}
    (happroved : session.approvedByUserId = some userId)
    (hunexpired : requestedAt < session.expiresAt) (c t : Int) :
    Told (sessions.updateWhere (fun r => r.deviceCodeHash = session.deviceCodeHash)
      (fun r => { r with consumedAt := some requestedAt }) (fun _ => rfl)) nextSession
      (.issued session.id c userId requestedAt t :: log) := by
  have hrows : ∀ r, r ∈ sessions.updateWhere
      (fun r => r.deviceCodeHash = session.deviceCodeHash)
      (fun r => { r with consumedAt := some requestedAt }) (fun _ => rfl) →
      ∃ old ∈ sessions, (r = old ∧ old.id ≠ session.id) ∨
        r = { old with consumedAt := some requestedAt } := by
    intro r hr
    obtain ⟨old, hold, rfl⟩ := (Table.mem_updateWhere _).mp hr
    refine ⟨old, hold, ?_⟩
    by_cases heq : old.deviceCodeHash = session.deviceCodeHash
    · exact .inr (by simp [heq])
    · refine .inl ⟨by simp [heq], fun hid => heq ?_⟩
      rw [Table.eq_of_key_eq hold hmem hid]
  have hsame : ∀ r, r ∈ sessions.updateWhere
      (fun r => r.deviceCodeHash = session.deviceCodeHash)
      (fun r => { r with consumedAt := some requestedAt }) (fun _ => rfl) →
      ∃ old ∈ sessions, (r.id = old.id ∧ r.expiresAt = old.expiresAt ∧
        r.deviceCodeHash = old.deviceCodeHash) ∧ r.approvedAt = old.approvedAt ∧
        r.approvedByUserId = old.approvedByUserId := by
    intro r hr
    obtain ⟨old, hold, ⟨rfl, -⟩ | rfl⟩ := hrows r hr
    · exact ⟨r, hold, ⟨rfl, rfl, rfl⟩, rfl, rfl⟩
    · exact ⟨old, hold, ⟨rfl, rfl, rfl⟩, rfl, rfl⟩
  obtain ⟨hids, hdevices, hcreated⟩ := h.rewritten (fun r hr =>
    (hsame r hr).imp (fun _ hold => ⟨hold.1, hold.2.1⟩))
  refine ⟨hids, ?_, hdevices, fun r hr => List.mem_cons_of_mem _ (hcreated r hr), ?_, ?_, ?_, ?_,
    ?_⟩
  · intro e he
    rcases List.mem_cons.mp he with rfl | he
    · exact h.ids session hmem
    · exact h.logIds e he
  · intro r hr u hu
    obtain ⟨old, hold, ⟨hid, -⟩, -, hby⟩ := hsame r hr
    rw [hid]
    exact List.mem_cons_of_mem _ (h.approved old hold u (hby ▸ hu))
  · intro r hr hfree u hu
    obtain ⟨old, hold, ⟨hid, -⟩, hat, -⟩ := hsame r hr
    rw [hid] at hu
    exact h.unapproved old hold (hat ▸ hfree) u ((List.mem_cons.mp hu).resolve_left nofun)
  · intro r hr hfree c u n t ht
    obtain ⟨old, hold, ⟨rfl, hne⟩ | rfl⟩ := hrows r hr
    · rcases List.mem_cons.mp ht with heq | ht
      · injection heq with hid
        exact hne hid
      · exact h.unissued r hold hfree c u n t ht
    · cases hfree
  · intro sessionId u u' hu hu'
    exact h.approvedOnce sessionId u u' ((List.mem_cons.mp hu).resolve_left nofun)
      ((List.mem_cons.mp hu').resolve_left nofun)
  · intro later earlier sessionId c' u n t' hlog
    rcases Log.cons_split hlog with ⟨-, heq, rfl⟩ | ⟨rest, -, hlog⟩
    · cases heq
      exact ⟨h.unissued session hmem hnone, h.approved session hmem userId happroved,
        session.expiresAt, h.created session hmem, hunexpired⟩
    · exact h.issued rest earlier sessionId c' u n t' hlog

end Told

/-! ## The locks -/

/-- What a request has read and holds is still so. -/
structure HeldBy (s : State) (i : Nat) (call : Call) : Prop where
  time : call.now ≤ s.clock
  session : ∀ userId r, call.session = some (userId, r) →
    r ∈ s.sessions ∧ s.sessionLocks r.id = some i ∧
      isConsumable call.deviceCodeHash userId call.now r = true
  user : ∀ userId, call.lockedUser = some userId → s.userLocks userId = some i
  counted : ∀ userId label r, call.stage = .counted userId label r →
    activeCount s.credentials userId s.clock < 5

def Held (s : State) : Prop := ∀ i call, s.calls i = some call → HeldBy s i call

/-- The step takes nothing from request `i`. -/
structure Keeps (s s' : State) (i : Nat) : Prop where
  clock : s.clock ≤ s'.clock
  sessions : ∀ r ∈ s.sessions, s.sessionLocks r.id = some i → r ∈ s'.sessions
  sessionLocks : ∀ id, s.sessionLocks id = some i → s'.sessionLocks id = some i
  userLocks : ∀ userId, s.userLocks userId = some i → s'.userLocks userId = some i
  counts : ∀ userId, s.userLocks userId = some i →
    activeCount s'.credentials userId s'.clock ≤ activeCount s.credentials userId s.clock

section Locks

variable {s s' s'' : State} {i j : Nat} {call : Call}

theorem Call.lockedUser_of_counted {userId : Int} {label : String} {r : AgentPairingSession}
    (h : call.stage = .counted userId label r) : call.lockedUser = some userId := by
  obtain ⟨d, now, stage⟩ := call
  cases h
  rfl

theorem HeldBy.unlocked (htime : call.now ≤ s.clock) (hsession : call.session = none)
    (huser : call.lockedUser = none) : HeldBy s i call where
  time := htime
  session userId r hr := by
    rw [hsession] at hr
    cases hr
  user userId hu := by
    rw [huser] at hu
    cases hu
  counted userId label r hstage := by
    rw [Call.lockedUser_of_counted hstage] at huser
    cases huser

theorem Keeps.same : Keeps s s i :=
  ⟨le_rfl, fun _ hr _ => hr, fun _ h => h, fun _ h => h, fun _ _ => le_rfl⟩

theorem Keeps.trans (h : Keeps s s' i) (h' : Keeps s' s'' i) : Keeps s s'' i where
  clock := h.clock.trans h'.clock
  sessions r hr hlock := h'.sessions r (h.sessions r hr hlock) (h.sessionLocks _ hlock)
  sessionLocks id hlock := h'.sessionLocks id (h.sessionLocks id hlock)
  userLocks userId hlock := h'.userLocks userId (h.userLocks userId hlock)
  counts userId hlock := (h'.counts userId (h.userLocks userId hlock)).trans (h.counts userId hlock)

theorem HeldBy.keep (h : HeldBy s i call) (hkeeps : Keeps s s' i) : HeldBy s' i call where
  time := h.time.trans hkeeps.clock
  session userId r hr := by
    obtain ⟨hmem, hlock, hcons⟩ := h.session userId r hr
    exact ⟨hkeeps.sessions r hmem hlock, hkeeps.sessionLocks _ hlock, hcons⟩
  user userId huser := hkeeps.userLocks userId (h.user userId huser)
  counted userId label r hstage :=
    (hkeeps.counts userId (h.user userId (Call.lockedUser_of_counted hstage))).trans_lt
      (h.counted userId label r hstage)

theorem Held.keep (h : Held s) (hcalls : s'.calls = s.calls) (hkeeps : ∀ j, Keeps s s' j) :
    Held s' := by
  intro j call hcall
  rw [hcalls] at hcall
  exact (h j call hcall).keep (hkeeps j)

theorem Held.put (h : Held s) (hcalls : s'.calls = Function.update s.calls i (some call))
    (hkeeps : ∀ j, j ≠ i → Keeps s s' j) (hcall : HeldBy s' i call) : Held s' := by
  intro j other hother
  rw [hcalls] at hother
  by_cases hj : j = i
  · subst hj
    rw [Function.update_self] at hother
    cases hother
    exact hcall
  · rw [Function.update_of_ne hj] at hother
    exact (h j other hother).keep (hkeeps j hj)

theorem Keeps.release (hj : j ≠ i) : Keeps s (s.release i) j where
  clock := le_rfl
  sessions _ hr _ := hr
  sessionLocks id hlock := by
    have hne : s.sessionLocks id ≠ some i := by
      rw [hlock]
      exact fun h => hj (Option.some.inj h)
    exact (if_neg hne).trans hlock
  userLocks userId hlock := by
    have hne : s.userLocks userId ≠ some i := by
      rw [hlock]
      exact fun h => hj (Option.some.inj h)
    exact (if_neg hne).trans hlock
  counts _ _ := le_rfl

/-- At the end of a request the others hold what they held. -/
theorem Held.release (h : Held s) (hcalls : s'.calls = s.calls)
    (hkeeps : ∀ j, j ≠ i → Keeps s s' j) : Held (s'.release i) := by
  intro j call hcall
  have hj : j ≠ i := by
    rintro rfl
    simp [State.release] at hcall
  have hcall : s.calls j = some call := by
    rw [← hcalls]
    simpa [State.release, Function.update_of_ne hj] using hcall
  exact (h j call hcall).keep ((hkeeps j hj).trans (.release hj))

end Locks

/-! ## The count -/

section Count

variable {credentials : Credentials} {userId now later : Int}

theorem AgentCredential.activeFor_iff {c : AgentCredential} :
    c.activeFor userId now = true ↔
      c.userId = userId ∧ c.revokedAt = none ∧ now < c.expiresAt := by
  simp [AgentCredential.activeFor, and_assoc]

/-- Time only takes credentials out of the count. -/
theorem activeCount_antitone (h : now ≤ later) :
    activeCount credentials userId later ≤ activeCount credentials userId now := by
  unfold activeCount Table.countWhere
  rw [← List.countP_eq_length_filter, ← List.countP_eq_length_filter]
  refine List.countP_mono_left (fun c _ hp => ?_)
  obtain ⟨huser, hnone, hlater⟩ := AgentCredential.activeFor_iff.1 hp
  exact AgentCredential.activeFor_iff.2 ⟨huser, hnone, h.trans_lt hlater⟩

theorem activeCount_revoke (p : AgentCredential → Bool) (at' : Int) :
    activeCount (credentials.updateWhere (fun c => p c && c.revokedAt.isNone)
      (AgentCredential.revoke at') (AgentCredential.revoke_id at')) userId now ≤
      activeCount credentials userId now := by
  refine Table.countWhere_updateWhere_le _ (fun c _ _ hp => ?_)
  obtain ⟨-, hnone, -⟩ := AgentCredential.activeFor_iff.1 hp
  cases hnone

theorem activeCount_issue_le (c : AgentCredential) :
    activeCount (credentials.insertOrIgnore c) userId now ≤
      activeCount credentials userId now + 1 := by
  refine Table.countWhere_le [c.id] (fun r hr hp => ?_)
  rcases Table.mem_insertOrIgnore.mp hr with hr | ⟨-, rfl⟩
  · exact .inr ⟨r, hr, hp, rfl⟩
  · exact .inl List.mem_cons_self

theorem activeCount_issue_other {c : AgentCredential} (h : c.userId ≠ userId) :
    activeCount (credentials.insertOrIgnore c) userId now ≤
      activeCount credentials userId now := by
  have hle := @Table.countWhere_le _ _ _ (credentials.insertOrIgnore c) credentials
    (AgentCredential.activeFor userId now) [] ?_
  · exact hle
  · intro r hr hp
    rcases Table.mem_insertOrIgnore.mp hr with hr | ⟨-, rfl⟩
    · exact .inr ⟨r, hr, hp, rfl⟩
    · exact absurd (AgentCredential.activeFor_iff.1 hp).1 h

end Count

/-! ## The invariant -/

structure Inv (s : State) : Prop where
  told : Told s.sessions s.nextSession s.log
  credited : ∀ c ∈ s.credentials, ∃ sessionId requestedAt t,
    .issued sessionId c.id c.userId requestedAt t ∈ s.log
  held : Held s
  capped : ∀ userId, activeCount s.credentials userId s.clock ≤ 5

theorem Inv.safe {s : State} (h : Inv s) : PairingSafe s :=
  ⟨h.told.issued, h.credited, h.told.approved, h.told.approvedOnce, h.capped⟩

theorem inv_init (clock : Int) : Inv (init clock) where
  told := by
    refine ⟨?_, ?_, ?_, ?_, ?_, ?_, ?_, ?_, ?_⟩ <;> simp [init]
  credited c hc := absurd hc (Table.not_mem_empty c)
  held i call hcall := by cases hcall
  capped userId := Nat.zero_le 5

section Steps

variable {s s' : State} {i : Nat} {d : String} {now : Int}

theorem Inv.tick (h : Inv s) (seconds : Nat) : Inv { s with clock := s.clock + seconds } := by
  have hlater : s.clock ≤ s.clock + seconds := Int.le_add_of_nonneg_right (Int.natCast_nonneg _)
  refine ⟨h.told, h.credited, h.held.keep rfl (fun j => ?_), fun userId => ?_⟩
  · exact ⟨hlater, fun _ hr _ => hr, fun _ h => h, fun _ h => h,
      fun _ _ => activeCount_antitone hlater⟩
  · exact (activeCount_antitone hlater).trans (h.capped userId)

theorem Inv.create (h : Inv s) {deviceCodeHash userCodeHash clientName : String} {expiresAt : Int}
    (hwait : ¬ s.sessions.rows.any (fun r => isGarbage now r && (s.sessionLocks r.id).isSome))
    (hfree : ¬ s.sessions.rows.any (fun r => !isGarbage now r &&
      (decide (r.deviceCodeHash = deviceCodeHash) || decide (r.userCodeHash = userCodeHash)))) :
    Inv (s.create deviceCodeHash userCodeHash clientName now expiresAt) := by
  have hdevice : ∀ r ∈ s.sessions.deleteWhere (isGarbage now),
      r.deviceCodeHash ≠ deviceCodeHash := by
    intro r hr heq
    obtain ⟨hr, hkept⟩ := Table.mem_deleteWhere.mp hr
    exact hfree (List.any_eq_true.mpr ⟨r, hr, by simp [hkept, heq]⟩)
  refine ⟨(h.told.deleteWhere _).create rfl hdevice rfl, fun c hc => ?_,
    h.held.keep rfl (fun j => ?_), h.capped⟩
  · obtain ⟨sessionId, n, t, hissued⟩ := h.credited c hc
    exact ⟨sessionId, n, t, List.mem_cons_of_mem _ hissued⟩
  · refine ⟨le_rfl, fun r hr hlock => ?_, fun _ h => h, fun _ h => h, fun _ _ => le_rfl⟩
    -- a locked row is not deleted: the statement waits for it
    have hkept : isGarbage now r = false := by
      rw [Bool.eq_false_iff]
      intro hgarbage
      exact hwait (List.any_eq_true.mpr ⟨r, hr, by simp [hgarbage, hlock]⟩)
    exact Table.mem_insertOrIgnore.mpr (.inl (Table.mem_deleteWhere.mpr ⟨hr, hkept⟩))

theorem Inv.approve (h : Inv s) {session : AgentPairingSession} (hmem : session ∈ s.sessions)
    (hnone : session.approvedAt = none) (hfree : s.sessionLocks session.id = none) (userId : Int) :
    Inv (s.approve session userId now) := by
  refine ⟨h.told.approve hmem hnone userId now, fun c hc => ?_,
    h.held.keep rfl (fun j => ?_), h.capped⟩
  · obtain ⟨sessionId, n, t, hissued⟩ := h.credited c hc
    exact ⟨sessionId, n, t, List.mem_cons_of_mem _ hissued⟩
  · refine ⟨le_rfl, fun r hr hlock => ?_, fun _ h => h, fun _ h => h, fun _ _ => le_rfl⟩
    have hne : r.id ≠ session.id := by
      intro heq
      rw [heq, hfree] at hlock
      cases hlock
    refine Table.mem_updateWhere_of_false (by intro r; rfl) hr ?_
    simpa using hne

theorem Inv.revoke (h : Inv s) (p : AgentCredential → Bool) : Inv (s.revoke p now) := by
  refine ⟨h.told, fun c hc => ?_, h.held.keep rfl (fun j => ?_), fun userId => ?_⟩
  · have hc : c ∈ s.credentials.updateWhere (fun c => p c && c.revokedAt.isNone)
        (AgentCredential.revoke now) (AgentCredential.revoke_id now) := hc
    obtain ⟨old, hold, rfl⟩ := (Table.mem_updateWhere _).mp hc
    obtain ⟨sessionId, n, t, hissued⟩ := h.credited old hold
    refine ⟨sessionId, n, t, ?_⟩
    split
    · exact hissued
    · exact hissued
  · exact ⟨le_rfl, fun _ hr _ => hr, fun _ h => h, fun _ h => h,
      fun _ _ => activeCount_revoke p now⟩
  · exact (activeCount_revoke p now).trans (h.capped userId)

theorem Inv.release (h : Inv s) (i : Nat) : Inv (s.release i) :=
  ⟨h.told, h.credited, h.held.release rfl (fun _ _ => .same), h.capped⟩

theorem Inv.put (h : Inv s) {call : Call} (hcall : HeldBy s i call) : Inv (s.put i call) := by
  have hkeeps : ∀ j, Keeps s (s.put i call) j := fun j =>
    ⟨le_rfl, fun _ hr _ => hr, fun _ h => h, fun _ h => h, fun _ _ => le_rfl⟩
  exact ⟨h.told, h.credited, h.held.put rfl (fun j _ => hkeeps j) (hcall.keep (hkeeps i)),
    h.capped⟩

theorem Inv.lockSession (h : Inv s) {userId : Int} {label : String}
    {session : AgentPairingSession} (hcall : s.calls i = some ⟨d, now, .approved userId label⟩)
    (hmem : session ∈ s.sessions) (hcons : isConsumable d userId now session = true)
    (hfree : s.sessionLocks session.id = none) :
    Inv { s.put i ⟨d, now, .sessionLocked userId label session⟩ with
      sessionLocks := Function.update s.sessionLocks session.id (some i) } := by
  refine ⟨h.told, h.credited, h.held.put rfl (fun j hj => ?_) ?_, h.capped⟩
  · refine ⟨le_rfl, fun _ hr _ => hr, fun id hlock => ?_, fun _ h => h, fun _ _ => le_rfl⟩
    have hne : id ≠ session.id := by
      rintro rfl
      rw [hfree] at hlock
      cases hlock
    exact (Function.update_of_ne hne _ _).trans hlock
  · refine ⟨(h.held i _ hcall).time, fun u r hr => ?_, fun u hu => ?_, fun u l r hstage => ?_⟩
    · cases hr
      exact ⟨hmem, Function.update_self _ _ _, hcons⟩
    · cases hu
    · cases hstage

theorem Inv.lockUser (h : Inv s) {userId : Int} {label : String} {session : AgentPairingSession}
    (hcall : s.calls i = some ⟨d, now, .sessionLocked userId label session⟩)
    (hfree : s.userLocks userId = none) :
    Inv { s.put i ⟨d, now, .userLocked userId label session⟩ with
      userLocks := Function.update s.userLocks userId (some i) } := by
  have hheld := h.held i _ hcall
  refine ⟨h.told, h.credited, h.held.put rfl (fun j hj => ?_) ?_, h.capped⟩
  · refine ⟨le_rfl, fun _ hr _ => hr, fun _ h => h, fun u hlock => ?_, fun _ _ => le_rfl⟩
    have hne : u ≠ userId := by
      rintro rfl
      rw [hfree] at hlock
      cases hlock
    exact (Function.update_of_ne hne _ _).trans hlock
  · refine ⟨hheld.time, fun u r hr => ?_, fun u hu => ?_, fun u l r hstage => ?_⟩
    · cases hr
      exact hheld.session userId session rfl
    · cases hu
      exact Function.update_self _ _ _
    · cases hstage

theorem Inv.countActive (h : Inv s) {userId : Int} {label : String} {session : AgentPairingSession}
    (hcall : s.calls i = some ⟨d, now, .userLocked userId label session⟩)
    (hcount : activeCount s.credentials userId now < 5) :
    Inv (s.put i ⟨d, now, .counted userId label session⟩) := by
  have hheld := h.held i _ hcall
  refine h.put ⟨hheld.time, fun u r hr => ?_, fun u hu => ?_, fun u l r hstage => ?_⟩
  · cases hr
    exact hheld.session userId session rfl
  · cases hu
    exact hheld.user userId rfl
  · cases hstage
    exact (activeCount_antitone hheld.time).trans_lt hcount

theorem isConsumable_iff {userId : Int} {r : AgentPairingSession} :
    isConsumable d userId now r = true ↔ r.deviceCodeHash = d ∧
      r.approvedByUserId = some userId ∧ now < r.expiresAt ∧ r.consumedAt = none := by
  simp [isConsumable, and_assoc]

theorem Inv.issue (h : Inv s) {userId : Int} {label : String} {session : AgentPairingSession}
    (hcall : s.calls i = some ⟨d, now, .counted userId label session⟩)
    (tokenHash tokenPrefix : String) :
    Inv ((s.issue ⟨d, now, .counted userId label session⟩ userId label session tokenHash
      tokenPrefix).release i) := by
  have hheld := h.held i _ hcall
  obtain ⟨hmem, hlock, hcons⟩ := hheld.session userId session rfl
  obtain ⟨rfl, happroved, hunexpired, hconsumed⟩ := isConsumable_iff.1 hcons
  have hcount := hheld.counted userId label session rfl
  refine ⟨h.told.issue hmem hconsumed happroved hunexpired s.nextCredential s.clock,
    fun c hc => ?_, h.held.release rfl (fun j hj => ?_), fun u => ?_⟩
  · rcases Table.mem_insertOrIgnore.mp hc with hc | ⟨-, rfl⟩
    · obtain ⟨sessionId, n, t, hissued⟩ := h.credited c hc
      exact ⟨sessionId, n, t, List.mem_cons_of_mem _ hissued⟩
    · exact ⟨session.id, now, s.clock, List.mem_cons_self⟩
  · refine ⟨le_rfl, fun r hr hlockr => ?_, fun _ h => h, fun _ h => h, fun u hlocku => ?_⟩
    -- another request's session has another device code
    · have hne : r.deviceCodeHash ≠ session.deviceCodeHash := by
        intro heq
        rw [h.told.devices r hr session hmem heq, hlock] at hlockr
        exact hj (Option.some.inj hlockr).symm
      refine Table.mem_updateWhere_of_false (by intro r; rfl) hr ?_
      simpa using hne
    -- and its user is another one
    · refine activeCount_issue_other (fun heq => ?_)
      rw [← heq] at hlocku
      exact hj (Option.some.inj ((hheld.user userId rfl).symm.trans hlocku)).symm
  · by_cases hu : userId = u
    · subst hu
      exact (activeCount_issue_le _).trans hcount
    · exact (activeCount_issue_other hu).trans (h.capped u)

theorem Inv.step {a : Action} (h : Inv s) (hstep : step s a = some s') : Inv s' := by
  cases a with
  | tick seconds =>
      cases hstep
      exact h.tick seconds
  | createPairing deviceCodeHash userCodeHash clientName now expiresAt fate =>
      simp only [Agent.step] at hstep
      split at hstep
      next => cases hstep
      next hwait =>
        split at hstep
        next =>
          cases hstep
          exact h
        next hfree =>
          cases hstep
          exact fate.after_keeps Inv h (h.create (fun hw => hwait (.inr hw)) hfree)
  | approvePairing userId userCodeHash now fate =>
      simp only [Agent.step] at hstep
      split at hstep
      next => cases hstep
      next =>
        split at hstep
        next =>
          cases hstep
          exact h
        next session hfind =>
          split at hstep
          next => cases hstep
          next hfree =>
            cases hstep
            have hmatch := List.find?_some hfind
            simp only [isApprovable, Bool.and_eq_true, Option.isNone_iff_eq_none] at hmatch
            exact fate.after_keeps Inv h (h.approve (List.mem_of_find?_eq_some hfind)
              hmatch.1.2 (by simpa using hfree) userId)
  | revokeCredential userId id now fate =>
      cases hstep
      exact fate.after_keeps Inv h (h.revoke _)
  | revokeByTokenHash tokenHash now fate =>
      cases hstep
      exact fate.after_keeps Inv h (h.revoke _)
  | startPoll i d =>
      simp only [Agent.step] at hstep
      split at hstep
      next => cases hstep
      next =>
        cases hstep
        exact h.put (.unlocked le_rfl rfl rfl)
  | pollPairing i =>
      simp only [Agent.step] at hstep
      split at hstep
      next d now hcall =>
        have htime := (h.held i _ hcall).time
        split at hstep
        next =>
          cases hstep
          exact h.release i
        next session hfind =>
          split at hstep
          next =>
            cases hstep
            exact h.release i
          next =>
            split at hstep
            next =>
              cases hstep
              exact h.release i
            next userId hby =>
              cases hstep
              exact h.put (.unlocked htime rfl rfl)
      next => cases hstep
  | lockSession i subscribed =>
      simp only [Agent.step] at hstep
      split at hstep
      next d now userId label hcall =>
        split at hstep
        next =>
          cases hstep
          exact h.release i
        next =>
          split at hstep
          next =>
            cases hstep
            exact h.release i
          next session hfind =>
            split at hstep
            next => cases hstep
            next hfree =>
              cases hstep
              exact h.lockSession hcall (List.mem_of_find?_eq_some hfind) (List.find?_some hfind)
                (by simpa using hfree)
      next => cases hstep
  | lockUser i found =>
      simp only [Agent.step] at hstep
      split at hstep
      next d now userId label session hcall =>
        split at hstep
        next => cases hstep
        next hfree =>
          split at hstep
          next =>
            cases hstep
            exact h.release i
          next =>
            cases hstep
            exact h.lockUser hcall (by simpa using hfree)
      next => cases hstep
  | countActive i =>
      simp only [Agent.step] at hstep
      split at hstep
      next d now userId label session hcall =>
        split at hstep
        next =>
          cases hstep
          exact h.release i
        next hcount =>
          cases hstep
          exact h.countActive hcall (not_le.mp hcount)
      next => cases hstep
  | commit i tokenHash tokenPrefix fate =>
      simp only [Agent.step] at hstep
      split at hstep
      next d now userId label session hcall =>
        split at hstep
        next =>
          cases hstep
          exact h.release i
        next =>
          cases hstep
          exact fate.after_keeps Inv (h.release i) (h.issue hcall tokenHash tokenPrefix)
      next => cases hstep
  | abandon i =>
      simp only [Agent.step] at hstep
      split at hstep
      next =>
        cases hstep
        exact h.release i
      next => cases hstep

end Steps

/-- Over every interleaving: a session yields one credential at most, for the user who approved
it and by a poll that started before it expired, and no user has more than five active ones. -/
theorem agent_pairing_safe {clock : Int} {actions : List Action} {s : State}
    (hrun : Transition.run step (init clock) actions = some s) : PairingSafe s :=
  (Transition.run_invariant_all (fun _ _ _ h hstep => Inv.step h hstep) (inv_init clock) hrun).safe

/-- A pairing from its creation to the credential; `seconds` pass while it is polled. -/
def pairing (seconds : Nat) : List Action :=
  [.createPairing "device" "user" "laptop" 0 600 .done, .approvePairing 7 "user" 0 .done,
    .tick 599, .startPoll 0 "device", .pollPairing 0, .tick seconds, .lockSession 0 true,
    .lockUser 0 true, .countActive 0, .commit 0 "token" "prefix" .done]

theorem agent_pairing_safe_once :
    ∃ s, Transition.run step (init 0) (pairing 0) = some s ∧
      .issued 1 1 7 599 599 ∈ s.log ∧ PairingSafe s :=
  ⟨Transition.final step (init 0) (pairing 0), Transition.run_eq_final (by decide +kernel),
    by decide +kernel, agent_pairing_safe (Transition.run_eq_final (by decide +kernel))⟩

/-- A poll reads the clock once: a session that expires under it still yields a credential. -/
theorem credential_after_expiry :
    ¬ ∀ clock actions s, Transition.run step (init clock) actions = some s →
      ∀ sessionId expiresAt c userId requestedAt committedAt,
        .created sessionId expiresAt ∈ s.log →
          .issued sessionId c userId requestedAt committedAt ∈ s.log → committedAt < expiresAt := by
  intro h
  have hlate := h 0 (pairing 2) (Transition.final step (init 0) (pairing 2))
    (Transition.run_eq_final (by decide +kernel)) 1 600 1 7 599 601 (by decide +kernel)
    (by decide +kernel)
  exact absurd hlate (by decide)

end Lightfriend.Agent
