import Lightfriend.Agent.Actions

/-! # The windows of the daily cap

A window ends at a midnight, and the counter only moves to a later one. The
claims of a window are at most what the counter shows, so at most the cap.
-/

namespace Lightfriend.Agent

/-! ## Midnights -/

theorem lt_nextUtcMidnight (now : Int) : now < nextUtcMidnight now :=
  Int.lt_tdiv_add_one_mul_self now (by decide)

theorem nextUtcMidnight_mono {now later : Int} (h : now ≤ later) :
    nextUtcMidnight now ≤ nextUtcMidnight later := by
  unfold nextUtcMidnight
  have hdiv : now.tdiv 86400 ≤ later.tdiv 86400 := Int.tdiv_le_tdiv (by decide) h
  omega

theorem dvd_nextUtcMidnight (now : Int) : 86400 ∣ nextUtcMidnight now :=
  Dvd.intro_left _ rfl

theorem nextUtcMidnight_le {now day : Int} (hnow : 0 ≤ now) (h : now < (day + 1) * 86400) :
    nextUtcMidnight now ≤ (day + 1) * 86400 := by
  unfold nextUtcMidnight
  rw [Int.tdiv_eq_ediv_of_nonneg hnow]
  omega

/-! ## Counting claims -/

def claims : List Event → List Claim :=
  List.filterMap fun
    | .claimed q => some q
    | _ => none

def Claim.countsIn (credentialId window : Int) (q : Claim) : Bool :=
  decide (q.credentialId = credentialId) && decide (q.window = window)

def claimCount (log : List Event) (credentialId window : Int) : Nat :=
  (claims log).countP (Claim.countsIn credentialId window)

section Counting

variable {log : List Event} {q : Claim} {e : Event} {credentialId window : Int}

theorem mem_claims : q ∈ claims log ↔ .claimed q ∈ log := by
  unfold claims
  rw [List.mem_filterMap]
  constructor
  · rintro ⟨e, he, hq⟩
    cases e <;> cases hq
    exact he
  · intro h
    exact ⟨_, h, rfl⟩

theorem mem_performances {p : Performance} : p ∈ performances log ↔ .performed p ∈ log := by
  unfold performances
  rw [List.mem_filterMap]
  constructor
  · rintro ⟨e, he, hp⟩
    cases e <;> cases hp
    exact he
  · intro h
    exact ⟨_, h, rfl⟩

theorem claims_append {new : List Event} (h : ∀ q, .claimed q ∉ new) :
    claims (new ++ log) = claims log := by
  have hnone : claims new = [] :=
    List.eq_nil_iff_forall_not_mem.mpr (fun q hq => h q (mem_claims.1 hq))
  unfold claims at *
  rw [List.filterMap_append, hnone, List.nil_append]

theorem claimCount_claimed :
    claimCount (.claimed q :: log) credentialId window =
      claimCount log credentialId window +
        if q.credentialId = credentialId ∧ q.window = window then 1 else 0 := by
  have hcons : claims (.claimed q :: log) = q :: claims log := rfl
  simp [claimCount, hcons, List.countP_cons, Claim.countsIn]

theorem claimCount_eq_zero (h : ∀ q, .claimed q ∈ log → q.credentialId ≠ credentialId) :
    claimCount log credentialId window = 0 := by
  refine List.countP_eq_zero.mpr (fun q hq => ?_)
  simp [Claim.countsIn, h q (mem_claims.1 hq)]

end Counting

/-! ## The counter of a credential -/

structure Counted (clock : Int) (log : List Event) (c : AgentCredential) : Prop where
  midnight : 86400 ∣ c.dailyResetAt
  opened : c.dailyResetAt ≤ nextUtcMidnight clock
  used : (claimCount log c.id c.dailyResetAt : Int) ≤ c.dailyUsed
  capped : c.dailyUsed ≤ c.dailyCap
  windows : ∀ window, (claimCount log c.id window : Int) ≤ c.dailyCap
  later : ∀ window, c.dailyResetAt < window → claimCount log c.id window = 0

section Counter

variable {clock clock' now : Int} {log log' : List Event} {c : AgentCredential} {q : Claim}

theorem Counted.congr (h : Counted clock log c) (hclock : clock ≤ clock')
    (hcount : ∀ window, claimCount log' c.id window = claimCount log c.id window) :
    Counted clock' log' c where
  midnight := h.midnight
  opened := h.opened.trans (nextUtcMidnight_mono hclock)
  used := by
    rw [hcount]
    exact h.used
  capped := h.capped
  windows window := by
    rw [hcount]
    exact h.windows window
  later window hwindow := by
    rw [hcount]
    exact h.later window hwindow

theorem Counted.reset (h : Counted clock log c) (hnow : now ≤ clock)
    (hended : c.dailyResetAt ≤ now) : Counted clock log (resetDaily now c) := by
  have hnext : c.dailyResetAt < nextUtcMidnight now := hended.trans_lt (lt_nextUtcMidnight now)
  refine ⟨dvd_nextUtcMidnight now, nextUtcMidnight_mono hnow, ?_, ?_, h.windows, ?_⟩
  · exact (congrArg Nat.cast (h.later _ hnext)).le
  · exact (Int.natCast_nonneg _).trans (h.used.trans h.capped)
  · intro window hwindow
    exact h.later window (hnext.trans hwindow)

theorem Counted.useOne (h : Counted clock log c) (hslot : c.dailyUsed < c.dailyCap) :
    Counted clock log (useOne now c) where
  midnight := h.midnight
  opened := h.opened
  used := h.used.trans (Int.le_add_of_nonneg_right (by decide))
  capped := hslot
  windows := h.windows
  later := h.later

theorem Counted.claim (h : Counted clock log c) (hslot : c.dailyUsed < c.dailyCap)
    (hid : q.credentialId = c.id) (hwindow : q.window = c.dailyResetAt) :
    Counted clock (.claimed q :: log) (Agent.useOne now c) := by
  have hcount : ∀ window, claimCount (.claimed q :: log) c.id window =
      claimCount log c.id window + if c.dailyResetAt = window then 1 else 0 := by
    intro window
    rw [claimCount_claimed, hid, hwindow]
    simp
  refine ⟨h.midnight, h.opened, ?_, hslot, fun window => ?_, fun window hlater => ?_⟩
  · have hused := h.used
    change (claimCount (.claimed q :: log) c.id c.dailyResetAt : Int) ≤ c.dailyUsed + 1
    rw [hcount, if_pos rfl]
    push_cast
    omega
  · change (claimCount (.claimed q :: log) c.id window : Int) ≤ c.dailyCap
    rw [hcount]
    split
    next heq =>
      subst heq
      have hused := h.used
      push_cast
      omega
    next => exact h.windows window
  · have hlater : c.dailyResetAt < window := hlater
    change claimCount (.claimed q :: log) c.id window = 0
    rw [hcount, if_neg hlater.ne, h.later window hlater]

end Counter

/-! ## The claims -/

theorem claimCredential_cases (t : Credentials) (tokenHash requiredScope : String) (now : Int) :
    ∃ t' : Credentials,
      (∀ c' ∈ t', c' ∈ t ∨ ∃ c ∈ t, c.dailyResetAt ≤ now ∧ c' = resetDaily now c) ∧
      (∀ c ∈ t, ∃ c' ∈ t', c'.id = c.id ∧ c'.expiresAt = c.expiresAt) ∧
      ((∃ answer, claimCredential t tokenHash requiredScope now = (t', answer) ∧
          ∀ c, answer ≠ .accepted c) ∨
        ∃ current ∈ t', current.tokenHash = tokenHash ∧ current.revokedAt = none ∧
          now < current.expiresAt ∧ now < current.dailyResetAt ∧
          current.dailyUsed < current.dailyCap ∧ claimCredential t tokenHash requiredScope now =
            (t'.updateWhere (fun c => c.id = current.id) (useOne now) (fun _ => rfl),
              .accepted (useOne now current))) := by
  refine ⟨t.updateWhere (fun c => decide (c.tokenHash = tokenHash) &&
    decide (c.dailyResetAt ≤ now)) (resetDaily now) (fun _ => rfl), ?_, ?_, ?_⟩
  · intro c' hc'
    obtain ⟨c, hc, rfl⟩ := (Table.mem_updateWhere _).mp hc'
    split
    next hended =>
      simp only [Bool.and_eq_true, decide_eq_true_eq] at hended
      exact .inr ⟨c, hc, hended.2, rfl⟩
    next => exact .inl hc
  · intro c hc
    refine ⟨_, Table.exists_updateWhere _ hc, ?_, ?_⟩
    · split
      · rfl
      · rfl
    · split
      · rfl
      · rfl
  · unfold claimCredential
    dsimp only
    split
    next => exact .inl ⟨.invalid, rfl, by rintro c ⟨⟩⟩
    next current hfind =>
      split
      next => exact .inl ⟨.invalid, rfl, by rintro c ⟨⟩⟩
      next hvalid =>
        split
        next hslot =>
          push Not at hvalid
          have hmem := List.mem_of_find?_eq_some hfind
          have htoken := List.find?_some hfind
          refine .inr ⟨current, hmem, of_decide_eq_true htoken, ?_, hvalid.2.1, ?_, hslot, rfl⟩
          · simpa using hvalid.1
          · obtain ⟨c, hc, heq⟩ := (Table.mem_updateWhere _).mp hmem
            split at heq
            next =>
              rw [heq]
              exact lt_nextUtcMidnight now
            next hopen =>
              subst heq
              simp only [decide_eq_true_eq] at htoken
              simpa [htoken] using hopen
        next => exact .inl ⟨.overCap, rfl, by rintro c ⟨⟩⟩

/-! ## The invariant of the credentials -/

/-- What a claim was when it was accepted. -/
structure Claim.Dated (q : Claim) : Prop where
  nonneg : 0 ≤ q.requestedAt
  order : q.requestedAt ≤ q.claimedAt
  before : q.requestedAt < q.window
  midnight : 86400 ∣ q.window
  opened : q.window ≤ nextUtcMidnight q.claimedAt

structure Credit (credentials : Credentials) (nextCredential clock : Int) (log : List Event) :
    Prop where
  ids : ∀ c ∈ credentials, c.id < nextCredential
  claimIds : ∀ q, .claimed q ∈ log → q.credentialId < nextCredential
  revokedIds : ∀ id, .revoked id ∈ log → id < nextCredential
  counted : ∀ c ∈ credentials, Counted clock log c
  live : ∀ c ∈ credentials, c.revokedAt = none → .revoked c.id ∉ log
  dated : ∀ q, .claimed q ∈ log → q.Dated
  unexpired : ∀ q, .claimed q ∈ log →
    ∃ c ∈ credentials, c.id = q.credentialId ∧ q.requestedAt < c.expiresAt
  unrevoked : ∀ later earlier q, log = later ++ .claimed q :: earlier →
    .revoked q.credentialId ∉ earlier

section Credit

variable {t t' : Credentials} {next clock clock' now : Int} {log new : List Event}

theorem Credit.tick (h : Credit t next clock log) (hclock : clock ≤ clock') :
    Credit t next clock' log :=
  { h with counted := fun c hc => (h.counted c hc).congr hclock (fun _ => rfl) }

/-- Other events do not matter. -/
theorem Credit.record (h : Credit t next clock log) {e : Event} (hclaim : ∀ q, e ≠ .claimed q)
    (hrevoked : ∀ id, e ≠ .revoked id) : Credit t next clock (e :: log) := by
  have hq : ∀ q, .claimed q ∈ e :: log → .claimed q ∈ log := fun q hq =>
    (List.mem_cons.mp hq).resolve_left (hclaim q).symm
  have hid : ∀ id, .revoked id ∈ e :: log → .revoked id ∈ log := fun id hid =>
    (List.mem_cons.mp hid).resolve_left (hrevoked id).symm
  have hclaims : claims (e :: log) = claims log :=
    @claims_append log [e] (fun q hq => hclaim q (List.mem_singleton.mp hq).symm)
  refine ⟨h.ids, fun q hc => h.claimIds q (hq q hc), fun id hr => h.revokedIds id (hid id hr),
    fun c hc => (h.counted c hc).congr le_rfl (fun window => ?_),
    fun c hc hnone hr => h.live c hc hnone (hid _ hr), fun q hc => h.dated q (hq q hc),
    fun q hc => h.unexpired q (hq q hc), ?_⟩
  · rw [claimCount, hclaims, claimCount]
  · intro later earlier q hlog
    rcases Log.cons_split hlog with ⟨-, heq, -⟩ | ⟨rest, -, hlog⟩
    · exact absurd heq (hclaim q)
    · exact h.unrevoked rest earlier q hlog

theorem Credit.rows (h : Credit t next clock log)
    (hrows : ∀ c' ∈ t', ∃ c ∈ t, c'.id = c.id ∧ (c'.revokedAt = none → c.revokedAt = none) ∧
      Counted clock log c')
    (hkept : ∀ c ∈ t, ∃ c' ∈ t', c'.id = c.id ∧ c'.expiresAt = c.expiresAt) :
    Credit t' next clock log where
  ids c' hc' := by
    obtain ⟨c, hc, hid, -⟩ := hrows c' hc'
    rw [hid]
    exact h.ids c hc
  claimIds := h.claimIds
  revokedIds := h.revokedIds
  counted c' hc' := by
    obtain ⟨c, -, -, -, hcounted⟩ := hrows c' hc'
    exact hcounted
  live c' hc' hnone := by
    obtain ⟨c, hc, hid, hlive, -⟩ := hrows c' hc'
    rw [hid]
    exact h.live c hc (hlive hnone)
  dated := h.dated
  unexpired q hq := by
    obtain ⟨c, hc, hid, hexpires⟩ := h.unexpired q hq
    obtain ⟨c', hc', hid', hexpires'⟩ := hkept c hc
    exact ⟨c', hc', hid'.trans hid, hexpires' ▸ hexpires⟩
  unrevoked := h.unrevoked

theorem Credit.issue (h : Credit t next clock log) {row : AgentCredential} (hid : row.id = next)
    (hreset : row.dailyResetAt = nextUtcMidnight now) (hnow : now ≤ clock)
    (hused : row.dailyUsed = 0) (hcap : 0 ≤ row.dailyCap) :
    Credit (t.insertOrIgnore row) (next + 1) clock log := by
  have hmem : ∀ c, c ∈ t.insertOrIgnore row → c ∈ t ∨ c = row := by
    intro c hc
    exact (Table.mem_insertOrIgnore.mp hc).imp_right And.right
  have hzero : ∀ window, claimCount log row.id window = 0 := fun window =>
    claimCount_eq_zero (fun q hq => hid ▸ (h.claimIds q hq).ne)
  refine ⟨fun c hc => ?_, fun q hq => (h.claimIds q hq).trans (lt_add_one _),
    fun id hr => (h.revokedIds id hr).trans (lt_add_one _), fun c hc => ?_, fun c hc hnone hr => ?_,
    h.dated, fun q hq => ?_, h.unrevoked⟩
  · rcases hmem c hc with hc | rfl
    · exact (h.ids c hc).trans (lt_add_one _)
    · rw [hid]
      exact lt_add_one _
  · rcases hmem c hc with hc | rfl
    · exact h.counted c hc
    · refine ⟨hreset ▸ dvd_nextUtcMidnight now, hreset.trans_le (nextUtcMidnight_mono hnow),
        ?_, ?_, ?_, fun window _ => hzero window⟩
      · rw [hzero, hused]
        rfl
      · rw [hused]
        exact hcap
      · intro window
        rw [hzero]
        exact hcap
  · rcases hmem c hc with hc | rfl
    · exact h.live c hc hnone hr
    · exact (h.revokedIds _ hr).ne hid
  · obtain ⟨c, hc, hcid, hexpires⟩ := h.unexpired q hq
    exact ⟨c, Table.mem_insertOrIgnore.mpr (.inl hc), hcid, hexpires⟩

theorem Credit.revoke (h : Credit t next clock log) (p : AgentCredential → Bool) :
    Credit (t.updateWhere (fun c => p c && c.revokedAt.isNone)
      (AgentCredential.revoke now) (AgentCredential.revoke_id now)) next clock
      ((t.rows.filter (fun c => p c && c.revokedAt.isNone)).map (fun c => .revoked c.id) ++
        log) := by
  have hnew : ∀ q, .claimed q ∉
      (t.rows.filter (fun c => p c && c.revokedAt.isNone)).map (fun c => Event.revoked c.id) := by
    intro q hq
    obtain ⟨c, -, hc⟩ := List.mem_map.mp hq
    cases hc
  have hq : ∀ q, .claimed q ∈ (t.rows.filter (fun c => p c && c.revokedAt.isNone)).map
      (fun c => Event.revoked c.id) ++ log → .claimed q ∈ log := fun q hq =>
    (List.mem_append.mp hq).resolve_left (hnew q)
  refine ⟨fun c hc => ?_, fun q hc => h.claimIds q (hq q hc), fun id hr => ?_, fun c hc => ?_,
    fun c hc hnone hr => ?_, fun q hc => h.dated q (hq q hc), fun q hc => ?_, ?_⟩
  · obtain ⟨old, hold, rfl⟩ := (Table.mem_updateWhere _).mp hc
    split
    · exact h.ids old hold
    · exact h.ids old hold
  · rcases List.mem_append.mp hr with hr | hr
    · obtain ⟨c, hc, heq⟩ := List.mem_map.mp hr
      cases heq
      exact h.ids c (List.mem_filter.mp hc).1
    · exact h.revokedIds id hr
  · obtain ⟨old, hold, rfl⟩ := (Table.mem_updateWhere _).mp hc
    have hcounted := (h.counted old hold).congr (le_refl clock)
      (fun window => congrArg (List.countP (Claim.countsIn old.id window)) (claims_append hnew))
    split
    · exact ⟨hcounted.midnight, hcounted.opened, hcounted.used, hcounted.capped,
        hcounted.windows, hcounted.later⟩
    · exact hcounted
  · obtain ⟨old, hold, rfl⟩ := (Table.mem_updateWhere _).mp hc
    split at hnone
    next => cases hnone
    next hmatch =>
      rw [if_neg hmatch] at hr
      rcases List.mem_append.mp hr with hr | hr
      · obtain ⟨c, hc, heq⟩ := List.mem_map.mp hr
        obtain ⟨hc, hp⟩ := List.mem_filter.mp hc
        injection heq with heq
        exact hmatch (Table.eq_of_key_eq hold hc heq.symm ▸ hp)
      · exact h.live old hold hnone hr
  · obtain ⟨c, hc, hid, hexpires⟩ := h.unexpired q (hq q hc)
    refine ⟨_, Table.exists_updateWhere _ hc, ?_, ?_⟩
    · split
      · exact hid
      · exact hid
    · split
      · exact hexpires
      · exact hexpires
  · intro later earlier q hlog
    obtain ⟨rest, -, hlog⟩ := Log.append_split (hnew q) hlog
    exact h.unrevoked rest earlier q hlog

theorem Credit.reset (h : Credit t next clock log) (hnow : now ≤ clock)
    (hrows : ∀ c' ∈ t', c' ∈ t ∨ ∃ c ∈ t, c.dailyResetAt ≤ now ∧ c' = resetDaily now c)
    (hkept : ∀ c ∈ t, ∃ c' ∈ t', c'.id = c.id ∧ c'.expiresAt = c.expiresAt) :
    Credit t' next clock log := by
  refine h.rows (fun c' hc' => ?_) hkept
  rcases hrows c' hc' with hc | ⟨c, hc, hended, rfl⟩
  · exact ⟨c', hc, rfl, fun hnone => hnone, h.counted c' hc⟩
  · exact ⟨c, hc, rfl, fun hnone => hnone, (h.counted c hc).reset hnow hended⟩

/-- The answer of the claim is lost, but the counter has been raised. -/
theorem Credit.useOne (h : Credit t next clock log) {current : AgentCredential} (hmem : current ∈ t)
    (hslot : current.dailyUsed < current.dailyCap) :
    Credit (t.updateWhere (fun c => c.id = current.id) (useOne now) (fun _ => rfl)) next clock
      log := by
  refine h.rows (fun c' hc' => ?_) (fun c hc => ?_)
  · obtain ⟨c, hc, rfl⟩ := (Table.mem_updateWhere _).mp hc'
    split
    next heq =>
      have heq := Table.eq_of_key_eq hc hmem (of_decide_eq_true heq)
      exact ⟨c, hc, rfl, fun hnone => hnone, (h.counted c hc).useOne (heq ▸ hslot)⟩
    next => exact ⟨c, hc, rfl, fun hnone => hnone, h.counted c hc⟩
  · refine ⟨_, Table.exists_updateWhere _ hc, ?_, ?_⟩
    · split
      · rfl
      · rfl
    · split
      · rfl
      · rfl

theorem Credit.claim (h : Credit t next clock log) {current : AgentCredential} (hmem : current ∈ t)
    (hnone : current.revokedAt = none) (hexpires : now < current.expiresAt)
    (hopen : now < current.dailyResetAt) (hslot : current.dailyUsed < current.dailyCap)
    (hnonneg : 0 ≤ now) (hnow : now ≤ clock) (reservation : Int) :
    Credit (t.updateWhere (fun c => c.id = current.id) (Agent.useOne now) (fun _ => rfl)) next clock
      (.claimed ⟨reservation, current.id, now, clock, current.dailyResetAt⟩ :: log) := by
  have hused : Credit (t.updateWhere (fun c => c.id = current.id) (Agent.useOne now)
      (fun _ => rfl)) next clock log := h.useOne hmem hslot
  have hmem' : Agent.useOne now current ∈
      t.updateWhere (fun c => c.id = current.id) (Agent.useOne now) (fun _ => rfl) := by
    simpa using @Table.exists_updateWhere _ _ _ t (fun c => decide (c.id = current.id))
      (Agent.useOne now) (fun _ => rfl) current hmem
  refine ⟨hused.ids, fun q hq => ?_, fun id hr => ?_, fun c' hc' => ?_, fun c hc hlive hr => ?_,
    fun q hq => ?_, fun q hq => ?_, ?_⟩
  · rcases List.mem_cons.mp hq with heq | hq
    · cases heq
      exact h.ids current hmem
    · exact h.claimIds q hq
  · rcases List.mem_cons.mp hr with heq | hr
    · cases heq
    · exact h.revokedIds id hr
  · obtain ⟨c, hc, rfl⟩ := (Table.mem_updateWhere _).mp hc'
    split
    next heq =>
      have heq := Table.eq_of_key_eq hc hmem (of_decide_eq_true heq)
      rw [heq]
      exact (h.counted current hmem).claim hslot rfl rfl
    next hne =>
      refine (h.counted c hc).congr le_rfl (fun window => ?_)
      rw [claimCount_claimed, if_neg (fun heq => hne (decide_eq_true heq.1.symm)), Nat.add_zero]
  · rcases List.mem_cons.mp hr with heq | hr
    · cases heq
    · exact hused.live c hc hlive hr
  · rcases List.mem_cons.mp hq with heq | hq
    · cases heq
      exact ⟨hnonneg, hnow, hopen, (h.counted current hmem).midnight,
        (h.counted current hmem).opened⟩
    · exact h.dated q hq
  · rcases List.mem_cons.mp hq with heq | hq
    · cases heq
      exact ⟨_, hmem', rfl, hexpires⟩
    · exact hused.unexpired q hq
  · intro later earlier q hlog
    rcases Log.cons_split hlog with ⟨-, heq, rfl⟩ | ⟨rest, -, hlog⟩
    · cases heq
      exact h.live current hmem hnone
    · exact h.unrevoked rest earlier q hlog

end Credit

end Lightfriend.Agent
