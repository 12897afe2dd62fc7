import Lightfriend.Agent.DailyCap

/-! # One action for an idempotency key

While the row of a reservation stands, no other reservation of its key is made;
it falls to a later one only when its time is over, and to its own request only
when that has failed. So the log has an action twice for a key only then.
-/

namespace Lightfriend.Agent

/-- The reservation that an action or a replay is for. -/
def Event.reservation : Event → Option Int
  | .performed p => some p.claim.reservation
  | .replayed reservation _ _ _ _ => some reservation
  | _ => none

/-! ## The rows and the log -/

structure Book (reservations : Reservations) (next clock : Int) (log : List Event) : Prop where
  ids : ∀ r ∈ reservations, r.id < next
  logIds : ∀ e ∈ log, ∀ id, e.reservation = some id → id < next
  keys : ∀ r ∈ reservations, ∀ r' ∈ reservations,
    r'.isFor r.credentialId r.actionKind r.keyHash = true → r = r'
  accepted : ∀ r ∈ reservations, r.outcome = some .accepted →
    ∃ p, .performed p ∈ log ∧ p.claim.reservation = r.id
  rejected : ∀ r ∈ reservations, r.outcome = some .rejected →
    ∀ p, .performed p ∈ log → p.claim.reservation ≠ r.id
  row : ∀ p, .performed p ∈ log → ∀ r ∈ reservations, r.id = p.claim.reservation →
    r.isFor p.claim.credentialId p.actionKind p.keyHash = true ∧
      r.createdAt = p.claim.requestedAt
  standing : ∀ p, .performed p ∈ log →
    (∃ r ∈ reservations, r.id = p.claim.reservation) ∨ .failed p.claim.reservation ∈ log ∨
      p.claim.requestedAt + idempotencyTtlSeconds < clock
  once : ∀ later earlier p, log = later ++ .performed p :: earlier →
    ∀ p', .performed p' ∈ earlier → p'.sameKey p →
      .failed p'.claim.reservation ∈ earlier ∨
        p'.claim.requestedAt + idempotencyTtlSeconds < p.performedAt ∨
        p.claim.requestedAt + idempotencyTtlSeconds < p.performedAt
  backed : ∀ later earlier p, log = later ++ .performed p :: earlier →
    .claimed p.claim ∈ earlier ∧
      ∀ p', .performed p' ∈ earlier → p'.claim.reservation ≠ p.claim.reservation
  replayedAccepted : ∀ later earlier reservation credentialId kind keyHash,
    log = later ++ .replayed reservation credentialId kind keyHash .accepted :: earlier →
      ∃ p, .performed p ∈ earlier ∧ p.claim.reservation = reservation ∧
        p.claim.credentialId = credentialId ∧ p.actionKind = kind ∧ p.keyHash = keyHash
  replayedRejected : ∀ reservation credentialId kind keyHash,
    .replayed reservation credentialId kind keyHash .rejected ∈ log →
      ∀ p, .performed p ∈ log → p.claim.reservation ≠ reservation

section Book

variable {t : Reservations} {next clock clock' : Int} {log new : List Event}

theorem Reservation.isFor_iff {credentialId : Int} {kind : ActionKind} {keyHash : String}
    {r : Reservation} : r.isFor credentialId kind keyHash = true ↔
      r.credentialId = credentialId ∧ r.actionKind = kind ∧ r.keyHash = keyHash := by
  simp [Reservation.isFor, and_assoc]

theorem Book.tick (h : Book t next clock log) (hclock : clock ≤ clock') :
    Book t next clock' log :=
  { h with standing := fun p hp =>
      (h.standing p hp).imp_right (fun h => h.imp_right (fun h => h.trans_le hclock)) }

/-- Events that are neither actions nor replays. -/
theorem Book.append (h : Book t next clock log) (hnew : ∀ e ∈ new, e.reservation = none) :
    Book t next clock (new ++ log) := by
  have hperformed : ∀ p, .performed p ∉ new := fun p hp => nomatch hnew _ hp
  have hreplayed : ∀ r c k h o, .replayed r c k h o ∉ new := fun r c k h o hr => nomatch hnew _ hr
  have hold : ∀ p, .performed p ∈ new ++ log → .performed p ∈ log := fun p hp =>
    (List.mem_append.mp hp).resolve_left (hperformed p)
  refine ⟨h.ids, fun e he id hid => ?_, h.keys, fun r hr hout => ?_,
    fun r hr hout p hp => h.rejected r hr hout p (hold p hp),
    fun p hp => h.row p (hold p hp), fun p hp => ?_, ?_, ?_, ?_, ?_⟩
  · rcases List.mem_append.mp he with he | he
    · rw [hnew e he] at hid
      cases hid
    · exact h.logIds e he id hid
  · obtain ⟨p, hp, hid⟩ := h.accepted r hr hout
    exact ⟨p, List.mem_append_right _ hp, hid⟩
  · exact (h.standing p (hold p hp)).imp_right (fun h => h.imp_left (List.mem_append_right _))
  · intro later earlier p hlog
    obtain ⟨rest, -, hlog⟩ := Log.append_split (hperformed p) hlog
    exact h.once rest earlier p hlog
  · intro later earlier p hlog
    obtain ⟨rest, -, hlog⟩ := Log.append_split (hperformed p) hlog
    exact h.backed rest earlier p hlog
  · intro later earlier r c k kh hlog
    obtain ⟨rest, -, hlog⟩ := Log.append_split (hreplayed r c k kh _) hlog
    exact h.replayedAccepted rest earlier r c k kh hlog
  · intro r c k kh hr p hp
    have hr := (List.mem_append.mp hr).resolve_left (hreplayed r c k kh _)
    exact h.replayedRejected r c k kh hr p (hold p hp)

theorem Book.replay (h : Book t next clock log) {r : Reservation} (hr : r ∈ t) {credentialId : Int}
    {kind : ActionKind} {keyHash : String} (hfor : r.isFor credentialId kind keyHash = true)
    {outcome : Outcome} (hout : r.outcome = some outcome) :
    Book t next clock (.replayed r.id credentialId kind keyHash outcome :: log) := by
  have hold : ∀ p, .performed p ∈ .replayed r.id credentialId kind keyHash outcome :: log →
      .performed p ∈ log := fun p hp => (List.mem_cons.mp hp).resolve_left nofun
  refine ⟨h.ids, fun e he id hid => ?_, h.keys, fun r' hr' hout' => ?_,
    fun r' hr' hout' p hp => h.rejected r' hr' hout' p (hold p hp),
    fun p hp => h.row p (hold p hp), fun p hp => ?_, ?_, ?_, ?_, ?_⟩
  · rcases List.mem_cons.mp he with rfl | he
    · cases hid
      exact h.ids r hr
    · exact h.logIds e he id hid
  · obtain ⟨p, hp, hid⟩ := h.accepted r' hr' hout'
    exact ⟨p, List.mem_cons_of_mem _ hp, hid⟩
  · exact (h.standing p (hold p hp)).imp_right (fun h => h.imp_left (List.mem_cons_of_mem _))
  · intro later earlier p hlog
    rcases Log.cons_split hlog with ⟨-, heq, -⟩ | ⟨rest, -, hlog⟩
    · cases heq
    · exact h.once rest earlier p hlog
  · intro later earlier p hlog
    rcases Log.cons_split hlog with ⟨-, heq, -⟩ | ⟨rest, -, hlog⟩
    · cases heq
    · exact h.backed rest earlier p hlog
  · intro later earlier r' c k kh hlog
    rcases Log.cons_split hlog with ⟨-, heq, rfl⟩ | ⟨rest, -, hlog⟩
    · cases heq
      obtain ⟨p, hp, hid⟩ := h.accepted r hr hout
      obtain ⟨hcredential, hkind, hkey⟩ := Reservation.isFor_iff.1 (h.row p hp r hr hid.symm).1
      obtain ⟨hcredential', hkind', hkey'⟩ := Reservation.isFor_iff.1 hfor
      exact ⟨p, hp, hid, hcredential.symm.trans hcredential', hkind.symm.trans hkind',
        hkey.symm.trans hkey'⟩
    · exact h.replayedAccepted rest earlier r' c k kh hlog
  · intro r' c k kh hr' p hp
    rcases List.mem_cons.mp hr' with heq | hr'
    · cases heq
      exact h.rejected r hr hout p (hold p hp)
    · exact h.replayedRejected r' c k kh hr' p (hold p hp)

theorem Book.perform (h : Book t next clock log) {p : Performance}
    (hfresh : ∀ e ∈ log, e.reservation ≠ some p.claim.reservation)
    (hid : p.claim.reservation < next)
    (hpresent : (∃ r ∈ t, r.id = p.claim.reservation) ∨
      p.claim.requestedAt + idempotencyTtlSeconds < clock)
    (hrow : ∀ r ∈ t, r.id = p.claim.reservation →
      r.isFor p.claim.credentialId p.actionKind p.keyHash = true ∧
        r.createdAt = p.claim.requestedAt ∧ r.outcome = none)
    (hclaimed : .claimed p.claim ∈ log) (hclock : p.performedAt = clock) :
    Book t next clock (.performed p :: log) := by
  have hne : ∀ p', .performed p' ∈ log → p'.claim.reservation ≠ p.claim.reservation :=
    fun p' hp' heq => hfresh _ hp' (congrArg some heq)
  refine ⟨h.ids, fun e he id hid' => ?_, h.keys, fun r hr hout => ?_, fun r hr hout p' hp' => ?_,
    fun p' hp' r hr hid' => ?_, fun p' hp' => ?_, ?_, ?_, ?_, ?_⟩
  · rcases List.mem_cons.mp he with rfl | he
    · cases hid'
      exact hid
    · exact h.logIds e he id hid'
  · obtain ⟨p', hp', hid'⟩ := h.accepted r hr hout
    exact ⟨p', List.mem_cons_of_mem _ hp', hid'⟩
  · rcases List.mem_cons.mp hp' with heq | hp'
    · cases heq
      intro heq
      rw [(hrow r hr heq.symm).2.2] at hout
      cases hout
    · exact h.rejected r hr hout p' hp'
  · rcases List.mem_cons.mp hp' with heq | hp'
    · cases heq
      exact ⟨(hrow r hr hid').1, (hrow r hr hid').2.1⟩
    · exact h.row p' hp' r hr hid'
  · rcases List.mem_cons.mp hp' with heq | hp'
    · cases heq
      exact hpresent.imp_right .inr
    · exact (h.standing p' hp').imp_right (fun h => h.imp_left (List.mem_cons_of_mem _))
  · intro later earlier p₁ hlog p₂ hp₂ hsame
    rcases Log.cons_split hlog with ⟨-, heq, rfl⟩ | ⟨rest, -, hlog⟩
    · cases heq
      rw [hclock]
      rcases h.standing p₂ hp₂ with ⟨r, hr, hr2⟩ | hfailed | hover
      · -- the row of the earlier action stands, so this one's does not
        rcases hpresent with ⟨r', hr', hr'id⟩ | hover
        · obtain ⟨hcredential, hkind, hkey⟩ := Reservation.isFor_iff.1 (h.row p₂ hp₂ r hr hr2).1
          obtain ⟨hcredential', hkind', hkey'⟩ := Reservation.isFor_iff.1 (hrow r' hr' hr'id).1
          have heq := h.keys r hr r' hr' (Reservation.isFor_iff.2
            ⟨hcredential'.trans (hsame.1.symm.trans hcredential.symm),
              hkind'.trans (hsame.2.1.symm.trans hkind.symm),
              hkey'.trans (hsame.2.2.symm.trans hkey.symm)⟩)
          exact absurd (hr2.symm.trans ((congrArg Reservation.id heq).trans hr'id)) (hne p₂ hp₂)
        · exact .inr (.inr hover)
      · exact .inl hfailed
      · exact .inr (.inl hover)
    · exact h.once rest earlier p₁ hlog p₂ hp₂ hsame
  · intro later earlier p₁ hlog
    rcases Log.cons_split hlog with ⟨-, heq, rfl⟩ | ⟨rest, -, hlog⟩
    · cases heq
      exact ⟨hclaimed, hne⟩
    · exact h.backed rest earlier p₁ hlog
  · intro later earlier r c k kh hlog
    rcases Log.cons_split hlog with ⟨-, heq, -⟩ | ⟨rest, -, hlog⟩
    · cases heq
    · exact h.replayedAccepted rest earlier r c k kh hlog
  · intro r c k kh hr p' hp'
    have hr := (List.mem_cons.mp hr).resolve_left nofun
    rcases List.mem_cons.mp hp' with heq | hp'
    · cases heq
      intro heq
      exact hfresh _ hr (congrArg some heq.symm)
    · exact h.replayedRejected r c k kh hr p' hp'

theorem Book.insert (h : Book t next clock log) {row : Reservation} (hid : row.id = next)
    (hnone : row.outcome = none)
    (hfree : ∀ r ∈ t, r.isFor row.credentialId row.actionKind row.keyHash = false) :
    Book (t.insertOrIgnore row) (next + 1) clock log := by
  have hmem : ∀ r, r ∈ t.insertOrIgnore row → r ∈ t ∨ r = row := by
    intro r hr
    exact (Table.mem_insertOrIgnore.mp hr).imp_right And.right
  refine { h with ids := ?_, logIds := ?_, keys := ?_, accepted := ?_, rejected := ?_, row := ?_,
                  standing := ?_ }
  · intro r hr
    rcases hmem r hr with hold | rfl
    · exact (h.ids r hold).trans (lt_add_one _)
    · rw [hid]
      exact lt_add_one _
  · intro e he id heid
    exact (h.logIds e he id heid).trans (lt_add_one _)
  · intro r hr r' hr' hfor
    rcases hmem r hr with hold | hnew
    · rcases hmem r' hr' with hold' | hnew'
      · exact h.keys r hold r' hold' hfor
      · rw [hnew'] at hfor
        obtain ⟨hcredential, hkind, hkey⟩ := Reservation.isFor_iff.1 hfor
        have htaken := Reservation.isFor_iff.2 ⟨hcredential.symm, hkind.symm, hkey.symm⟩
        exact absurd ((hfree r hold).symm.trans htaken) (by decide)
    · rcases hmem r' hr' with hold' | hnew'
      · rw [hnew] at hfor
        exact absurd ((hfree r' hold').symm.trans hfor) (by decide)
      · rw [hnew, hnew']
  · intro r hr hout
    rcases hmem r hr with hold | rfl
    · exact h.accepted r hold hout
    · rw [hnone] at hout
      cases hout
  · intro r hr hout
    rcases hmem r hr with hold | rfl
    · exact h.rejected r hold hout
    · rw [hnone] at hout
      cases hout
  · intro p hp r hr hrid
    rcases hmem r hr with hold | rfl
    · exact h.row p hp r hold hrid
    · have hlt := h.logIds _ hp _ rfl
      rw [← hrid, hid] at hlt
      exact absurd hlt (lt_irrefl _)
  · intro p hp
    refine (h.standing p hp).imp_left ?_
    rintro ⟨r, hr, hrid⟩
    exact ⟨r, Table.mem_insertOrIgnore.mpr (.inl hr), hrid⟩

theorem Book.delete (h : Book t next clock log) {q : Reservation → Bool}
    (hq : ∀ r ∈ t, q r = true → r.createdAt + idempotencyTtlSeconds < clock ∨
      ∀ p, .performed p ∈ log → p.claim.reservation = r.id → .failed r.id ∈ log) :
    Book (t.deleteWhere q) next clock log := by
  have hmem : ∀ r, r ∈ t.deleteWhere q → r ∈ t := fun r hr => (Table.mem_deleteWhere.mp hr).1
  refine { h with ids := fun r hr => h.ids r (hmem r hr),
                  keys := fun r hr r' hr' => h.keys r (hmem r hr) r' (hmem r' hr'),
                  accepted := fun r hr => h.accepted r (hmem r hr),
                  rejected := fun r hr => h.rejected r (hmem r hr),
                  row := fun p hp r hr => h.row p hp r (hmem r hr),
                  standing := ?_ }
  intro p hp
  rcases h.standing p hp with ⟨r, hr, hid⟩ | hrest
  · by_cases hgone : q r = true
    · rcases hq r hr hgone with hover | hfailed
      · rw [(h.row p hp r hr hid).2] at hover
        exact .inr (.inr hover)
      · exact .inr (.inl (hid ▸ hfailed p hp hid.symm))
    · exact .inl ⟨r, Table.mem_deleteWhere.mpr ⟨hr, Bool.eq_false_iff.mpr hgone⟩, hid⟩
  · exact .inr hrest

theorem Book.setOutcome (h : Book t next clock log) {reservation : Int} {outcome : Outcome}
    (haccepted : outcome = .accepted →
      ∃ p, .performed p ∈ log ∧ p.claim.reservation = reservation)
    (hrejected : outcome = .rejected →
      ∀ p, .performed p ∈ log → p.claim.reservation ≠ reservation) :
    Book (t.updateWhere (fun r => r.id = reservation) (fun r => { r with outcome := some outcome })
      (fun _ => rfl)) next clock log := by
  have hrows : ∀ r, r ∈ t.updateWhere (fun r => r.id = reservation)
      (fun r => { r with outcome := some outcome }) (fun _ => rfl) →
      ∃ old ∈ t, r.id = old.id ∧ r.createdAt = old.createdAt ∧
        (∀ c k kh, r.isFor c k kh = old.isFor c k kh) ∧ r.credentialId = old.credentialId ∧
        r.actionKind = old.actionKind ∧ r.keyHash = old.keyHash ∧
        (r.outcome = old.outcome ∨ r.id = reservation ∧ r.outcome = some outcome) := by
    intro r hr
    obtain ⟨old, hold, rfl⟩ := (Table.mem_updateWhere _).mp hr
    refine ⟨old, hold, ?_⟩
    split
    next heq =>
      exact ⟨rfl, rfl, fun _ _ _ => rfl, rfl, rfl, rfl, .inr ⟨of_decide_eq_true heq, rfl⟩⟩
    next => exact ⟨rfl, rfl, fun _ _ _ => rfl, rfl, rfl, rfl, .inl rfl⟩
  refine { h with ids := ?_, keys := ?_, accepted := ?_, rejected := ?_, row := ?_,
                  standing := ?_ }
  · intro r hr
    obtain ⟨old, hold, hid, -⟩ := hrows r hr
    rw [hid]
    exact h.ids old hold
  · intro r hr r' hr' hfor
    obtain ⟨old, hold, hid, -, -, hcredential, hkind, hkey, -⟩ := hrows r hr
    obtain ⟨old', hold', hid', -, hsame, -⟩ := hrows r' hr'
    rw [hsame, hcredential, hkind, hkey] at hfor
    have heq := h.keys old hold old' hold' hfor
    exact Table.eq_of_key_eq hr hr' (by rw [hid, hid', heq])
  · intro r hr hout
    obtain ⟨old, hold, hid, -, -, -, -, -, hsame | ⟨hthis, hset⟩⟩ := hrows r hr
    · rw [hid]
      exact h.accepted old hold (hsame ▸ hout)
    · rw [hset] at hout
      rw [hthis]
      exact haccepted (Option.some.inj hout)
  · intro r hr hout
    obtain ⟨old, hold, hid, -, -, -, -, -, hsame | ⟨hthis, hset⟩⟩ := hrows r hr
    · rw [hid]
      exact h.rejected old hold (hsame ▸ hout)
    · rw [hset] at hout
      rw [hthis]
      exact hrejected (Option.some.inj hout)
  · intro p hp r hr hrid
    obtain ⟨old, hold, hid, hcreated, hsame, -⟩ := hrows r hr
    rw [hsame, hcreated]
    exact h.row p hp old hold (hid.symm.trans hrid)
  · intro p hp
    refine (h.standing p hp).imp_left ?_
    rintro ⟨r, hr, hid⟩
    refine ⟨_, Table.exists_updateWhere _ hr, ?_⟩
    split
    · exact hid
    · exact hid

end Book

end Lightfriend.Agent
