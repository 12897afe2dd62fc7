import Lightfriend.Bridge.Cleanup
import Lightfriend.Core.Database
import Lightfriend.Core.Lease
import Lightfriend.Core.Machine
import Lightfriend.Core.Table
import Lightfriend.Core.Transition

/-! # The bridge connection lease

A reconnect, a disconnect and a cleanup job hold the lease of their user and
bridge type while they work. One upsert acquires and renews it; the drop of the
guard deletes the row of its own token. Between its clock reading and its
statement a holder may wait for any time, and a statement may fail or lose its
answer.
-/

namespace Lightfriend.Bridge

/-! ## The rows -/

structure ConnectionLeaseRow where
  userId : Int
  bridgeType : String
  leaseKind : String
  ownerToken : String
  leaseUntil : Int
  updatedAt : Int
deriving DecidableEq, Repr

def ConnectionLeaseRow.pair (r : ConnectionLeaseRow) : Int × String := (r.userId, r.bridgeType)

abbrev ConnectionLeaseTable : Type :=
  Table ConnectionLeaseRow (Int × String) ConnectionLeaseRow.pair

/-- Does the held row keep the lease from the proposed one? -/
def ConnectionLeaseRow.refuses (row held : ConnectionLeaseRow) : Bool :=
  held.pair = row.pair && !(held.leaseUntil ≤ row.updatedAt || held.ownerToken = row.ownerToken)

/-- `DO UPDATE SET` of the columns of the proposed row. -/
def ConnectionLeaseRow.replace (row held : ConnectionLeaseRow) : ConnectionLeaseRow :=
  { held with
    leaseKind := row.leaseKind
    ownerToken := row.ownerToken
    leaseUntil := row.leaseUntil
    updatedAt := row.updatedAt }

theorem ConnectionLeaseRow.replace_pair (row held : ConnectionLeaseRow) :
    (row.replace held).pair = held.pair := rfl

namespace ConnectionLeaseTable

/-- `INSERT .. ON CONFLICT DO UPDATE .. WHERE .. RETURNING` of the proposed row, and whether a
row was returned. -/
def upsertLease (t : ConnectionLeaseTable) (row : ConnectionLeaseRow) :
    Bool × ConnectionLeaseTable :=
  if t.rows.any row.refuses then (false, t)
  else (true, Table.upsert t row row.replace row.replace_pair)

def tryAcquireBridgeConnectionLease (t : ConnectionLeaseTable) (now userId : Int)
    (bridgeType leaseKind ownerToken : String) (leaseUntil : Int) :
    Bool × ConnectionLeaseTable :=
  t.upsertLease ⟨userId, bridgeType, leaseKind, ownerToken, leaseUntil, now⟩

def releaseBridgeConnectionLease (t : ConnectionLeaseTable) (userId : Int)
    (bridgeType ownerToken : String) : ConnectionLeaseTable :=
  Table.deleteWhere t (fun r => r.pair = (userId, bridgeType) && r.ownerToken = ownerToken)

end ConnectionLeaseTable

/-! ## The holders -/

/-- What asks for the lease. -/
inductive LeaseRequest
  | reconnect
  | portalCleanup (jobId : Int)
  | cleanup (jobId : Int)
deriving DecidableEq, Repr

def LeaseRequest.leaseKind : LeaseRequest → String
  | reconnect => "reconnect"
  | portalCleanup _ => "portal_cleanup"
  | cleanup _ => "cleanup"

/-- The owner token around a fresh uuid. -/
def LeaseRequest.ownerToken (uuid : String) : LeaseRequest → String
  | reconnect => s!"reconnect-{uuid}"
  | portalCleanup jobId => s!"portal-cleanup-job-{jobId}-{uuid}"
  | cleanup jobId => s!"cleanup-job-{jobId}-{uuid}"

/-- Where a holder stands: it asks for the lease until a time, was told it holds it, or asks
to renew the lease it was told it holds. -/
inductive LeaseStage
  | acquiring (leaseKind : String) (askedAt leaseUntil : Int)
  | holding (told : Int)
  | renewing (told askedAt leaseUntil : Int)
deriving DecidableEq, Repr

/-- The end of the lease the holder was told it has. -/
def LeaseStage.told : LeaseStage → Option Int
  | acquiring _ _ _ => none
  | holding told => some told
  | renewing told _ _ => some told

structure BridgeConnectionLease where
  userId : Int
  bridgeType : String
  ownerToken : String
  stage : LeaseStage
deriving DecidableEq, Repr

def BridgeConnectionLease.pair (h : BridgeConnectionLease) : Int × String :=
  (h.userId, h.bridgeType)

structure LeaseState where
  clock : Int
  leases : ConnectionLeaseTable
  holders : Table BridgeConnectionLease String BridgeConnectionLease.ownerToken

inductive LeaseAction
  | tick (now : Int)
  /-- The caller read the clock at `now`. -/
  | acquire (request : LeaseRequest) (uuid : String) (userId : Int) (bridgeType : String)
      (now : Int)
  | renew (ownerToken : String)
  /-- The upsert of the holder runs, at the time `now` it reads itself. -/
  | execute (ownerToken : String) (now : Int) (fate : StatementFate)
  | release (ownerToken : String) (fate : StatementFate)
  /-- The process ends without dropping the guard. -/
  | crash (ownerToken : String)
deriving DecidableEq, Repr

/-! ## The steps -/

namespace LeaseState

def setStage (s : LeaseState) (ownerToken : String) (stage : LeaseStage) :
    Table BridgeConnectionLease String BridgeConnectionLease.ownerToken :=
  s.holders.updateWhere (fun h => h.ownerToken = ownerToken) (fun h => { h with stage := stage })
    (fun _ => rfl)

def forget (s : LeaseState) (ownerToken : String) :
    Table BridgeConnectionLease String BridgeConnectionLease.ownerToken :=
  s.holders.deleteWhere (fun h => h.ownerToken = ownerToken)

/-- A uuid is never drawn twice. -/
def fresh (s : LeaseState) (ownerToken : String) : Bool :=
  s.leases.rows.all (fun r => r.ownerToken ≠ ownerToken)

def acquire (s : LeaseState) (request : LeaseRequest) (uuid : String) (userId : Int)
    (bridgeType : String) (now : Int) : Option LeaseState :=
  let holder : BridgeConnectionLease :=
    ⟨userId, bridgeType, request.ownerToken uuid,
      .acquiring request.leaseKind now (saturatingAdd now connectionLeaseSecs)⟩
  if hfree : ¬ s.holders.HasKey holder.ownerToken then
    if now ≤ s.clock && s.fresh holder.ownerToken then
      some { s with holders := s.holders.insert holder hfree }
    else none
  else none

def renew (s : LeaseState) (h : BridgeConnectionLease) : Option LeaseState :=
  match h.stage with
  | .holding told =>
      some { s with
        holders := s.setStage h.ownerToken
          (.renewing told s.clock (saturatingAdd s.clock connectionLeaseSecs)) }
  | _ => none

/-- The upsert of a holder, and whether it returned a row. -/
def upsert (s : LeaseState) (h : BridgeConnectionLease) (now : Int) (leaseKind : String)
    (leaseUntil : Int) : Bool × ConnectionLeaseTable :=
  s.leases.tryAcquireBridgeConnectionLease now h.userId h.bridgeType leaseKind h.ownerToken
    leaseUntil

def execute (s : LeaseState) (h : BridgeConnectionLease) (now : Int) (fate : StatementFate) :
    Option LeaseState :=
  match h.stage with
  | .acquiring leaseKind askedAt leaseUntil =>
      let result := s.upsert h now leaseKind leaseUntil
      if askedAt ≤ now && now ≤ s.clock then
        some { s with
          leases := fate.after s.leases result.2
          -- Without an acquired lease no guard is built.
          holders :=
            if fate.answer result.1 = some true then s.setStage h.ownerToken (.holding leaseUntil)
            else s.forget h.ownerToken }
      else none
  | .renewing told askedAt leaseUntil =>
      let result := s.upsert h now "cleanup" leaseUntil
      if askedAt ≤ now && now ≤ s.clock then
        some { s with
          leases := fate.after s.leases result.2
          holders := s.setStage h.ownerToken
            (.holding (if fate.answer result.1 = some true then leaseUntil else told)) }
      else none
  | .holding _ => none

def release (s : LeaseState) (h : BridgeConnectionLease) (fate : StatementFate) :
    Option LeaseState :=
  match h.stage with
  | .holding _ =>
      some { s with
        leases := fate.after s.leases
          (s.leases.releaseBridgeConnectionLease h.userId h.bridgeType h.ownerToken)
        holders := s.forget h.ownerToken }
  | _ => none

def step (s : LeaseState) : LeaseAction → Option LeaseState
  | .tick now => if s.clock ≤ now then some { s with clock := now } else none
  | .acquire request uuid userId bridgeType now => s.acquire request uuid userId bridgeType now
  | .renew ownerToken => (s.holders.find? ownerToken).bind s.renew
  | .execute ownerToken now fate =>
      (s.holders.find? ownerToken).bind (fun h => s.execute h now fate)
  | .release ownerToken fate => (s.holders.find? ownerToken).bind (fun h => s.release h fate)
  | .crash ownerToken => some { s with holders := s.forget ownerToken }

end LeaseState

/-! ## The upsert and the delete -/

/-- The owner and the end of the lease on record. -/
def ConnectionLeaseTable.record (t : ConnectionLeaseTable) (pair : Int × String) :
    Option (String × Int) :=
  (t.find? pair).map (fun r => (r.ownerToken, r.leaseUntil))

namespace ConnectionLeaseTable

variable {t : ConnectionLeaseTable} {now userId leaseUntil : Int}
  {bridgeType leaseKind ownerToken : String}

theorem record_eq_some {pair : Int × String} {owner : String} {ends : Int}
    (h : t.record pair = some (owner, ends)) :
    ∃ r ∈ t, r.pair = pair ∧ r.ownerToken = owner ∧ r.leaseUntil = ends := by
  obtain ⟨r, hr, heq⟩ := Option.map_eq_some_iff.mp h
  obtain ⟨hmem, hpair⟩ := Table.find?_eq_some_iff.mp hr
  cases heq
  exact ⟨r, hmem, hpair, rfl, rfl⟩

theorem record_of_mem {r : ConnectionLeaseRow} (h : r ∈ t) :
    t.record r.pair = some (r.ownerToken, r.leaseUntil) := by
  have hfind : t.find? r.pair = some r := Table.find?_eq_some_iff.mpr ⟨h, rfl⟩
  rw [record, hfind, Option.map_some]

theorem upsertLease_iff {row : ConnectionLeaseRow} :
    (t.upsertLease row).1 = true ↔
      Lease.FreeFor row.updatedAt (t.record row.pair) row.ownerToken := by
  have hrefuses : ∀ r : ConnectionLeaseRow, row.refuses r = true ↔
      r.pair = row.pair ∧ ¬ (r.leaseUntil ≤ row.updatedAt ∨ r.ownerToken = row.ownerToken) := by
    intro r
    simp [ConnectionLeaseRow.refuses]
  unfold upsertLease
  constructor
  · intro h other ends hrecord
    obtain ⟨r, hr, hpair, rfl, rfl⟩ := record_eq_some hrecord
    split at h
    next => cases h
    next hnone =>
      by_contra hheld
      exact hnone (List.any_eq_true.mpr ⟨r, hr, (hrefuses r).mpr ⟨hpair, hheld⟩⟩)
  · intro hfree
    rw [if_neg]
    intro hany
    obtain ⟨r, hr, hrow⟩ := List.any_eq_true.mp hany
    obtain ⟨hpair, hheld⟩ := (hrefuses r).mp hrow
    have hrecord := record_of_mem hr
    rw [hpair] at hrecord
    exact hheld (hfree _ _ hrecord)

/-- The upsert returns a row exactly when no other owner holds the lease of the pair. -/
theorem tryAcquire_iff :
    (t.tryAcquireBridgeConnectionLease now userId bridgeType leaseKind ownerToken leaseUntil).1 =
      true ↔ Lease.FreeFor now (t.record (userId, bridgeType)) ownerToken :=
  upsertLease_iff

/-- A refused upsert leaves the rows as they are. -/
theorem upsertLease_refused {row : ConnectionLeaseRow} (h : (t.upsertLease row).1 = false) :
    (t.upsertLease row).2 = t := by
  unfold upsertLease at h ⊢
  split at h
  next hany => rw [if_pos hany]
  next => cases h

theorem record_upsertLease {row : ConnectionLeaseRow} (h : (t.upsertLease row).1 = true)
    (pair : Int × String) :
    (t.upsertLease row).2.record pair =
      if row.pair = pair then some (row.ownerToken, row.leaseUntil) else t.record pair := by
  unfold upsertLease at h ⊢
  split at h
  next => cases h
  next hnone =>
    rw [if_neg hnone]
    dsimp only [record]
    rw [Table.find?_upsert]
    split
    next => cases t.find? pair <;> rfl
    next => rfl

theorem record_release (pair : Int × String) :
    (t.releaseBridgeConnectionLease userId bridgeType ownerToken).record pair =
      (t.record pair).filter (fun r => !(pair = (userId, bridgeType) && r.1 = ownerToken)) := by
  unfold releaseBridgeConnectionLease
  rw [record, record, Table.find?_deleteWhere]
  cases hfind : t.find? pair with
  | none => rfl
  | some r =>
      have hpair : r.pair = pair := (Table.find?_eq_some_iff.mp hfind).2
      simp only [Option.map_some, Option.filter_some, hpair]
      split <;> rfl

/-- The delete names its owner: the rows of others stay. -/
theorem mem_release {r : ConnectionLeaseRow} (hr : r ∈ t) (hother : r.ownerToken ≠ ownerToken) :
    r ∈ t.releaseBridgeConnectionLease userId bridgeType ownerToken := by
  unfold releaseBridgeConnectionLease
  rw [Table.mem_deleteWhere]
  exact ⟨hr, by simp [hother]⟩

end ConnectionLeaseTable

/-! ## What a holder believes -/

namespace LeaseState

/-- The leases the holders of a pair were told they hold. -/
def claims (s : LeaseState) (pair : Int × String) (ownerToken : String) (ends : Int) : Prop :=
  ∃ h ∈ s.holders, h.pair = pair ∧ h.ownerToken = ownerToken ∧ h.stage.told = some ends

/-- Every lease is asked for from a clock reading that lies in the past. -/
def Timely (clock : Int) : LeaseStage → Prop
  | .acquiring _ askedAt leaseUntil =>
      askedAt ≤ clock ∧ leaseUntil = saturatingAdd askedAt connectionLeaseSecs
  | .holding told => told ≤ saturatingAdd clock connectionLeaseSecs
  | .renewing told askedAt leaseUntil =>
      askedAt ≤ clock ∧ told ≤ leaseUntil ∧ leaseUntil = saturatingAdd askedAt connectionLeaseSecs

structure Inv (s : LeaseState) : Prop where
  recorded : ∀ pair, Lease.Recorded s.clock (s.leases.record pair) (s.claims pair)
  timely : ∀ h ∈ s.holders, Timely s.clock h.stage

theorem saturatingAdd_mono {a b c : Int} (h : a ≤ b) : saturatingAdd a c ≤ saturatingAdd b c := by
  unfold saturatingAdd clampI32
  omega

theorem Timely.tick {clock now : Int} {stage : LeaseStage} (h : Timely clock stage)
    (hnow : clock ≤ now) : Timely now stage := by
  cases stage with
  | acquiring leaseKind askedAt leaseUntil => exact ⟨h.1.trans hnow, h.2⟩
  | holding told => exact le_trans h (saturatingAdd_mono hnow)
  | renewing told askedAt leaseUntil => exact ⟨h.1.trans hnow, h.2⟩

/-! ## The holder table -/

theorem mem_setStage {s : LeaseState} {ownerToken : String} {stage : LeaseStage}
    {h : BridgeConnectionLease} :
    h ∈ s.setStage ownerToken stage ↔
      ∃ old ∈ s.holders, h = if old.ownerToken = ownerToken then { old with stage := stage }
        else old := by
  unfold setStage
  simp [Table.mem_updateWhere]

theorem mem_forget {s : LeaseState} {ownerToken : String} {h : BridgeConnectionLease} :
    h ∈ s.forget ownerToken ↔ h ∈ s.holders ∧ h.ownerToken ≠ ownerToken := by
  unfold forget
  simp

theorem claims_forget {s next : LeaseState} {ownerToken : String}
    (hnext : next.holders = s.forget ownerToken) {pair : Int × String} {owner : String}
    {ends : Int} (h : next.claims pair owner ends) :
    s.claims pair owner ends ∧ owner ≠ ownerToken := by
  obtain ⟨holder, hmem, hpair, rfl, htold⟩ := h
  rw [hnext, mem_forget] at hmem
  exact ⟨⟨holder, hmem.1, hpair, rfl, htold⟩, hmem.2⟩

theorem claims_setStage {s next : LeaseState} {h : BridgeConnectionLease} (hmem : h ∈ s.holders)
    {stage : LeaseStage} (hnext : next.holders = s.setStage h.ownerToken stage)
    {pair : Int × String} {owner : String} {ends : Int} (hclaim : next.claims pair owner ends) :
    (s.claims pair owner ends ∧ owner ≠ h.ownerToken) ∨
      (pair = h.pair ∧ owner = h.ownerToken ∧ stage.told = some ends) := by
  obtain ⟨holder, hholder, hpair, rfl, htold⟩ := hclaim
  rw [hnext, mem_setStage] at hholder
  obtain ⟨old, hold, rfl⟩ := hholder
  by_cases hsame : old.ownerToken = h.ownerToken
  · have heq : old = h := Table.eq_of_key_eq hold hmem hsame
    subst heq
    rw [if_pos rfl] at hpair htold ⊢
    exact Or.inr ⟨hpair.symm, rfl, htold⟩
  · simp only [if_neg hsame] at hpair htold ⊢
    exact Or.inl ⟨⟨old, hold, hpair, rfl, htold⟩, hsame⟩

theorem timely_forget {s : LeaseState} (hinv : s.Inv) (ownerToken : String) :
    ∀ h ∈ s.forget ownerToken, Timely s.clock h.stage :=
  fun h hmem => hinv.timely h (mem_forget.1 hmem).1

theorem timely_setStage {s : LeaseState} (hinv : s.Inv) {ownerToken : String}
    {stage : LeaseStage} (hstage : Timely s.clock stage) :
    ∀ h ∈ s.setStage ownerToken stage, Timely s.clock h.stage := by
  intro h hmem
  obtain ⟨old, hold, rfl⟩ := mem_setStage.1 hmem
  split
  · exact hstage
  · exact hinv.timely old hold

/-! ## What a step keeps -/

theorem Inv.tick {s : LeaseState} (h : s.Inv) {now : Int} (hnow : s.clock ≤ now) :
    Inv { s with clock := now } where
  recorded pair := (h.recorded pair).tick hnow
  timely holder hmem := (h.timely holder hmem).tick hnow

/-- A holder that is gone claims nothing; the row it leaves behind may stay. -/
theorem Inv.forget {s : LeaseState} (h : s.Inv) (ownerToken : String) :
    Inv { s with holders := s.forget ownerToken } where
  recorded pair := (h.recorded pair).forget (fun _ _ hclaim => (claims_forget rfl hclaim).1)
  timely := timely_forget h ownerToken

theorem Inv.acquire {s next : LeaseState} {request : LeaseRequest} {uuid bridgeType : String}
    {userId now : Int} (h : s.Inv)
    (hstep : s.acquire request uuid userId bridgeType now = some next) : next.Inv := by
  simp only [LeaseState.acquire] at hstep
  split at hstep
  next hfree =>
    rw [Option.ite_none_right_eq_some, Bool.and_eq_true, decide_eq_true_eq] at hstep
    obtain ⟨⟨hnow, _⟩, heq⟩ := hstep
    cases heq
    constructor
    · intro pair
      refine (h.recorded pair).forget (fun owner ends hclaim => ?_)
      obtain ⟨holder, hmem, hpair, hown, htold⟩ := hclaim
      rcases (Table.mem_insert (h := hfree)).mp hmem with hold | rfl
      · exact ⟨holder, hold, hpair, hown, htold⟩
      · cases htold
    · intro holder hmem
      rcases (Table.mem_insert (h := hfree)).mp hmem with hold | rfl
      · exact h.timely holder hold
      · exact ⟨hnow, rfl⟩
  next => cases hstep

theorem Inv.renew {s next : LeaseState} {h : BridgeConnectionLease} (hinv : s.Inv)
    (hmem : h ∈ s.holders) (hstep : s.renew h = some next) : next.Inv := by
  simp only [LeaseState.renew] at hstep
  split at hstep
  next told hstage =>
    cases hstep
    have htimely := hinv.timely h hmem
    rw [hstage] at htimely
    constructor
    · intro pair
      refine (hinv.recorded pair).forget (fun owner ends hclaim => ?_)
      rcases claims_setStage hmem rfl hclaim with ⟨hold, _⟩ | ⟨rfl, rfl, htold⟩
      · exact hold
      · exact ⟨h, hmem, rfl, rfl, by rw [hstage]; exact htold⟩
    · exact timely_setStage hinv ⟨le_refl _, htimely, rfl⟩
  next => cases hstep

/-- An upsert that returned a row puts its owner's lease on record; one that returned none
changed nothing. -/
theorem Inv.upsert {s next : LeaseState} {h : BridgeConnectionLease} {now leaseUntil : Int}
    {leaseKind : String} {fate : StatementFate} (hinv : s.Inv) (hnow : now ≤ s.clock)
    (hclock : next.clock = s.clock)
    (hleases : next.leases = fate.after s.leases (s.upsert h now leaseKind leaseUntil).2)
    (hclaims : ∀ pair owner ends, next.claims pair owner ends →
      (s.claims pair owner ends ∧ (owner = h.ownerToken → ends ≤ leaseUntil)) ∨
        (pair = h.pair ∧ owner = h.ownerToken ∧ ends = leaseUntil ∧
          fate.answer (s.upsert h now leaseKind leaseUntil).1 = some true)) (pair : Int × String) :
    Lease.Recorded next.clock (next.leases.record pair) (next.claims pair) := by
  have hstill : next.leases = s.leases → fate.answer (s.upsert h now leaseKind leaseUntil).1 ≠
      some true → Lease.Recorded next.clock (next.leases.record pair) (next.claims pair) := by
    intro hsame hrefused
    rw [hclock, hsame]
    refine (hinv.recorded pair).forget (fun owner ends hclaim => ?_)
    rcases hclaims pair owner ends hclaim with ⟨hold, _⟩ | ⟨_, _, _, hgranted⟩
    · exact hold
    · exact absurd hgranted hrefused
  cases hreturned : (s.upsert h now leaseKind leaseUntil).1 with
  | false =>
      have hsame := ConnectionLeaseTable.upsertLease_refused hreturned
      refine hstill ?_ ?_
      · rw [hleases]
        rcases fate.after_cases s.leases (s.upsert h now leaseKind leaseUntil).2 with heq | heq
        · exact heq
        · exact heq.trans hsame
      · rw [hreturned]
        cases fate <;> simp [StatementFate.answer]
  | true =>
      have hfree : Lease.FreeFor now (s.leases.record h.pair) h.ownerToken :=
        ConnectionLeaseTable.upsertLease_iff.1 hreturned
      have hrecord : (s.upsert h now leaseKind leaseUntil).2.record pair =
          if h.pair = pair then some (h.ownerToken, leaseUntil) else s.leases.record pair :=
        ConnectionLeaseTable.record_upsertLease hreturned pair
      by_cases hfate : fate = .refused
      · subst hfate
        exact hstill hleases (by simp [StatementFate.answer])
      · have hwritten : next.leases = (s.upsert h now leaseKind leaseUntil).2 := by
          rw [hleases]
          cases fate with
          | refused => exact absurd rfl hfate
          | done => rfl
          | lost => rfl
        rw [hclock, hwritten, hrecord]
        by_cases hpair : h.pair = pair
        · rw [if_pos hpair]
          subst hpair
          refine (hinv.recorded h.pair).take hnow hfree ?_ ?_
          · intro ends hclaim
            rcases hclaims _ _ _ hclaim with ⟨_, hle⟩ | ⟨_, _, rfl, _⟩
            · exact hle rfl
            · exact le_refl _
          · intro owner ends hclaim hne
            rcases hclaims _ _ _ hclaim with ⟨hold, _⟩ | ⟨_, rfl, _⟩
            · exact hold
            · exact absurd rfl hne
        · rw [if_neg hpair]
          refine (hinv.recorded pair).forget (fun owner ends hclaim => ?_)
          rcases hclaims _ _ _ hclaim with ⟨hold, _⟩ | ⟨rfl, _⟩
          · exact hold
          · exact absurd rfl hpair

theorem Inv.execute {s next : LeaseState} {h : BridgeConnectionLease} {now : Int}
    {fate : StatementFate} (hinv : s.Inv) (hmem : h ∈ s.holders)
    (hstep : s.execute h now fate = some next) : next.Inv := by
  have htimely := hinv.timely h hmem
  cases hstage : h.stage with
  | holding told => simp [LeaseState.execute, hstage] at hstep
  | acquiring leaseKind askedAt leaseUntil =>
      rw [hstage] at htimely
      simp only [LeaseState.execute, hstage, Option.ite_none_right_eq_some, Bool.and_eq_true,
        decide_eq_true_eq, Option.some.injEq] at hstep
      obtain ⟨⟨_, hnow⟩, heq⟩ := hstep
      subst heq
      by_cases hgranted : fate.answer (s.upsert h now leaseKind leaseUntil).1 = some true
      · simp only [if_pos hgranted]
        constructor
        · refine hinv.upsert hnow rfl rfl (fun pair owner ends hclaim => ?_)
          rcases claims_setStage hmem rfl hclaim with ⟨hold, hne⟩ | ⟨rfl, rfl, htold⟩
          · exact Or.inl ⟨hold, fun heq => absurd heq hne⟩
          · exact Or.inr ⟨rfl, rfl, (Option.some.inj htold).symm, hgranted⟩
        · refine timely_setStage hinv ?_
          exact htimely.2.le.trans (saturatingAdd_mono htimely.1)
      · simp only [if_neg hgranted]
        constructor
        · refine hinv.upsert hnow rfl rfl (fun pair owner ends hclaim => ?_)
          obtain ⟨hold, hne⟩ := claims_forget rfl hclaim
          exact Or.inl ⟨hold, fun heq => absurd heq hne⟩
        · exact timely_forget hinv _
  | renewing told askedAt leaseUntil =>
      rw [hstage] at htimely
      simp only [LeaseState.execute, hstage, Option.ite_none_right_eq_some, Bool.and_eq_true,
        decide_eq_true_eq, Option.some.injEq] at hstep
      obtain ⟨⟨_, hnow⟩, heq⟩ := hstep
      subst heq
      constructor
      · refine hinv.upsert hnow rfl rfl (fun pair owner ends hclaim => ?_)
        rcases claims_setStage hmem rfl hclaim with ⟨hold, hne⟩ | ⟨rfl, rfl, htold⟩
        · exact Or.inl ⟨hold, fun heq => absurd heq hne⟩
        · have hends := Option.some.inj htold
          split at hends
          next hgranted => exact Or.inr ⟨rfl, rfl, hends.symm, hgranted⟩
          next =>
            -- The holder keeps the end it was told before.
            refine Or.inl ⟨⟨h, hmem, rfl, rfl, ?_⟩, fun _ => hends ▸ htimely.2.1⟩
            rw [hstage, ← hends]
            rfl
      · refine timely_setStage hinv ?_
        have huntil : leaseUntil ≤ saturatingAdd s.clock connectionLeaseSecs :=
          htimely.2.2.le.trans (saturatingAdd_mono htimely.1)
        change (if fate.answer (s.upsert h now "cleanup" leaseUntil).1 = some true then leaseUntil
          else told) ≤ saturatingAdd s.clock connectionLeaseSecs
        split
        · exact huntil
        · exact htimely.2.1.trans huntil

theorem Inv.release {s next : LeaseState} {h : BridgeConnectionLease} {fate : StatementFate}
    (hinv : s.Inv) (hstep : s.release h fate = some next) : next.Inv := by
  simp only [LeaseState.release] at hstep
  split at hstep
  next told hstage =>
    cases hstep
    refine ⟨fun pair => ?_, timely_forget hinv _⟩
    have hclaims : ∀ owner ends, LeaseState.claims
        ⟨s.clock, fate.after s.leases
          (s.leases.releaseBridgeConnectionLease h.userId h.bridgeType h.ownerToken),
          s.forget h.ownerToken⟩ pair owner ends →
        s.claims pair owner ends ∧ owner ≠ h.ownerToken :=
      fun owner ends hclaim => claims_forget rfl hclaim
    have hkept := (hinv.recorded pair).forget (fun owner ends hclaim => (hclaims owner ends hclaim).1)
    change Lease.Recorded s.clock ((fate.after s.leases
      (s.leases.releaseBridgeConnectionLease h.userId h.bridgeType h.ownerToken)).record pair) _
    rcases fate.after_cases s.leases
      (s.leases.releaseBridgeConnectionLease h.userId h.bridgeType h.ownerToken) with heq | heq
    · rw [heq]
      exact hkept
    · rw [heq, ConnectionLeaseTable.record_release]
      cases hrecord : s.leases.record pair with
      | none =>
          rw [hrecord] at hkept
          exact hkept
      | some held =>
          by_cases hown : pair = (h.userId, h.bridgeType) ∧ held.1 = h.ownerToken
          · rw [Option.filter_some_neg (by simp [hown])]
            refine (hinv.recorded pair).release ?_ hclaims
            intro other ends hother
            rw [hrecord] at hother
            cases hother
            exact hown.2
          · rw [Option.filter_some_pos (by simpa using not_and_or.mp hown),
              ← hrecord]
            exact hkept
  next => cases hstep

theorem Inv.step {s next : LeaseState} {a : LeaseAction} (h : s.Inv)
    (hstep : s.step a = some next) : next.Inv := by
  cases a with
  | tick now =>
      simp only [LeaseState.step, Option.ite_none_right_eq_some, Option.some.injEq] at hstep
      exact hstep.2 ▸ h.tick hstep.1
  | acquire request uuid userId bridgeType now => exact h.acquire hstep
  | renew ownerToken =>
      obtain ⟨holder, hfind, hrenew⟩ := Option.bind_eq_some_iff.mp hstep
      exact h.renew (Table.find?_eq_some_iff.mp hfind).1 hrenew
  | execute ownerToken now fate =>
      obtain ⟨holder, hfind, hexecute⟩ := Option.bind_eq_some_iff.mp hstep
      exact h.execute (Table.find?_eq_some_iff.mp hfind).1 hexecute
  | release ownerToken fate =>
      obtain ⟨holder, hfind, hrelease⟩ := Option.bind_eq_some_iff.mp hstep
      exact h.release hrelease
  | crash ownerToken =>
      cases hstep
      exact h.forget ownerToken

/-! ## Every run -/

/-- No process runs yet; rows of earlier processes may be left. -/
def start (clock : Int) (leases : ConnectionLeaseTable) : LeaseState := ⟨clock, leases, Table.empty⟩

theorem inv_start (clock : Int) (leases : ConnectionLeaseTable) : (start clock leases).Inv where
  recorded pair := by
    intro owner ends hclaim
    obtain ⟨holder, hmem, _⟩ := hclaim
    exact absurd hmem (Table.not_mem_empty _)
  timely holder hmem := absurd hmem (Table.not_mem_empty _)

/-- `held` is a lease that its holder was told it has and that has not run out. -/
def Holds (s : LeaseState) (h : BridgeConnectionLease) : Prop :=
  h ∈ s.holders ∧ ∃ told, h.stage.told = some told ∧ s.clock < told

instance (s : LeaseState) (h : BridgeConnectionLease) : Decidable (s.Holds h) :=
  match htold : h.stage.told with
  | none => isFalse (by simp [Holds, htold])
  | some told =>
      if hmem : h ∈ s.holders ∧ s.clock < told then isTrue ⟨hmem.1, told, htold, hmem.2⟩
      else isFalse (by
        rintro ⟨hh, told', heq, hlt⟩
        rw [htold] at heq
        cases heq
        exact hmem ⟨hh, hlt⟩)

/-- No owner but `h` has an unexpired lease of the pair on record. -/
def LeftTo (s : LeaseState) (h : BridgeConnectionLease) (now : Int) : Prop :=
  ∀ r ∈ s.leases, r.pair = h.pair → r.leaseUntil ≤ now ∨ r.ownerToken = h.ownerToken

theorem leftTo_iff {s : LeaseState} {h : BridgeConnectionLease} {now : Int} :
    s.LeftTo h now ↔ Lease.FreeFor now (s.leases.record h.pair) h.ownerToken := by
  constructor
  · intro hleft other ends hrecord
    obtain ⟨r, hr, hpair, rfl, rfl⟩ := ConnectionLeaseTable.record_eq_some hrecord
    exact hleft r hr hpair
  · intro hfree r hr hpair
    have hrecord := ConnectionLeaseTable.record_of_mem hr
    rw [hpair] at hrecord
    exact hfree _ _ hrecord

/-- The holder was told that it holds the lease until `ends`, and so says the record. -/
def Granted (s : LeaseState) (h : BridgeConnectionLease) (ends : Int) : Prop :=
  (∃ h' ∈ s.holders, h'.ownerToken = h.ownerToken ∧ h'.stage = .holding ends) ∧
    s.leases.record h.pair = some (h.ownerToken, ends)

theorem renew_granted_iff {s next : LeaseState} {h : BridgeConnectionLease}
    {told askedAt leaseUntil now : Int} (hmem : h ∈ s.holders)
    (hstage : h.stage = .renewing told askedAt leaseUntil)
    (hstep : s.step (.execute h.ownerToken now .done) = some next) :
    next.Granted h leaseUntil ↔ s.LeftTo h now := by
  have hfind : s.holders.find? h.ownerToken = some h := Table.find?_eq_some_iff.mpr ⟨hmem, rfl⟩
  simp only [LeaseState.step, hfind, Option.bind_some, LeaseState.execute, hstage,
    Option.ite_none_right_eq_some, Option.some.injEq] at hstep
  obtain ⟨_, rfl⟩ := hstep
  rw [leftTo_iff]
  cases hreturned : (s.upsert h now "cleanup" leaseUntil).1 with
  | true =>
      have hfree : Lease.FreeFor now (s.leases.record h.pair) h.ownerToken :=
        ConnectionLeaseTable.upsertLease_iff.1 hreturned
      have hrecord : (s.upsert h now "cleanup" leaseUntil).2.record h.pair =
          if h.pair = h.pair then some (h.ownerToken, leaseUntil) else s.leases.record h.pair :=
        ConnectionLeaseTable.record_upsertLease hreturned h.pair
      rw [if_pos rfl] at hrecord
      refine iff_of_true ⟨⟨{ h with stage := .holding leaseUntil }, ?_, rfl, rfl⟩, hrecord⟩ hfree
      refine mem_setStage.2 ⟨h, hmem, ?_⟩
      simp [StatementFate.answer]
  | false =>
      have hheld : ¬ Lease.FreeFor now (s.leases.record h.pair) h.ownerToken := by
        intro hfree
        have htrue : (s.upsert h now "cleanup" leaseUntil).1 = true :=
          ConnectionLeaseTable.upsertLease_iff.2 hfree
        rw [hreturned] at htrue
        cases htrue
      refine iff_of_false ?_ hheld
      intro hgranted
      have hsame : (s.upsert h now "cleanup" leaseUntil).2 = s.leases :=
        ConnectionLeaseTable.upsertLease_refused hreturned
      have hrecord : (s.upsert h now "cleanup" leaseUntil).2.record h.pair =
          some (h.ownerToken, leaseUntil) := hgranted.2
      rw [hsame] at hrecord
      refine hheld (fun other ends hother => Or.inr ?_)
      rw [hrecord] at hother
      cases hother
      rfl

/-- A release deletes the row of its own token only. -/
theorem release_keeps {s next : LeaseState} {h : BridgeConnectionLease} {fate : StatementFate}
    (hmem : h ∈ s.holders) (hstep : s.step (.release h.ownerToken fate) = some next)
    {r : ConnectionLeaseRow} (hr : r ∈ s.leases) (hother : r.ownerToken ≠ h.ownerToken) :
    r ∈ next.leases := by
  have hfind : s.holders.find? h.ownerToken = some h := Table.find?_eq_some_iff.mpr ⟨hmem, rfl⟩
  simp only [LeaseState.step, hfind, Option.bind_some, LeaseState.release] at hstep
  split at hstep
  next told hstage =>
    cases hstep
    change r ∈ fate.after s.leases
      (s.leases.releaseBridgeConnectionLease h.userId h.bridgeType h.ownerToken)
    have hkept : r ∈ s.leases.releaseBridgeConnectionLease h.userId h.bridgeType h.ownerToken :=
      ConnectionLeaseTable.mem_release hr hother
    cases fate with
    | done => exact hkept
    | refused => exact hr
    | lost => exact hkept
  next => cases hstep

theorem Inv.holds_unique {s : LeaseState} (hinv : s.Inv) {g h : BridgeConnectionLease}
    (hg : s.Holds g) (hh : s.Holds h) (hpair : g.pair = h.pair) : g.ownerToken = h.ownerToken := by
  obtain ⟨hgmem, gtold, hgt, hgu⟩ := hg
  obtain ⟨hhmem, htold, hht, hhu⟩ := hh
  have hgclaim : s.claims h.pair g.ownerToken gtold := ⟨g, hgmem, hpair, rfl, hgt⟩
  have hhclaim : s.claims h.pair h.ownerToken htold := ⟨h, hhmem, rfl, rfl, hht⟩
  exact (hinv.recorded h.pair).exclusive hgclaim hhclaim hgu hhu

end LeaseState

open LeaseState in
/-- In every state of a run: at most one owner holds the lease of a pair; a renewal that is
answered is granted exactly when no other owner's unexpired lease is on record; and a release
leaves the row of every other owner as it is. -/
theorem connection_lease_exclusive {clock : Int} {leases : ConnectionLeaseTable}
    {actions : List LeaseAction} {s : LeaseState}
    (hrun : Transition.run LeaseState.step (LeaseState.start clock leases) actions = some s) :
    (∀ g h : BridgeConnectionLease, s.Holds g → s.Holds h → g.pair = h.pair →
      g.ownerToken = h.ownerToken) ∧
    (∀ (h : BridgeConnectionLease) (told askedAt leaseUntil now : Int) (next : LeaseState),
      h ∈ s.holders → h.stage = .renewing told askedAt leaseUntil →
      s.step (.execute h.ownerToken now .done) = some next →
        (next.Granted h leaseUntil ↔ s.LeftTo h now)) ∧
    (∀ (h : BridgeConnectionLease) (fate : StatementFate) (next : LeaseState),
      h ∈ s.holders → s.step (.release h.ownerToken fate) = some next →
        ∀ r ∈ s.leases, r.ownerToken ≠ h.ownerToken → r ∈ next.leases) := by
  have hinv : s.Inv :=
    Transition.run_invariant_all (fun _ _ _ h hstep => h.step hstep) (inv_start clock leases) hrun
  refine ⟨fun g h => hinv.holds_unique, ?_, ?_⟩
  · intro h told askedAt leaseUntil now next hmem hstage hstep
    exact renew_granted_iff hmem hstage hstep
  · intro h fate next hmem hstep r hr hother
    exact release_keeps hmem hstep hr hother

/-! ## A run with a takeover -/

namespace LeaseExample

def cleanup : LeaseRequest := .cleanup 7
def token : String := cleanup.ownerToken "a"

/-- A cleanup job takes the lease, and a reconnect takes it over when it has run out. -/
def takenOver : List LeaseAction :=
  [.acquire cleanup "a" 1 "whatsapp" 0, .execute token 0 .done, .tick 301,
    .acquire .reconnect "b" 1 "whatsapp" 301, .execute (LeaseRequest.reconnect.ownerToken "b") 301 .done]

/-- The reconnect ends, and the job renews. -/
def renewed : List LeaseAction :=
  takenOver ++ [.release (LeaseRequest.reconnect.ownerToken "b") .done, .renew token]

def reached (actions : List LeaseAction) : LeaseState :=
  Transition.final LeaseState.step (LeaseState.start 0 Table.empty) actions

def job : BridgeConnectionLease := ⟨1, "whatsapp", token, .renewing 300 301 601⟩

/-- The two leases after the takeover. -/
def reconnected : BridgeConnectionLease :=
  ⟨1, "whatsapp", LeaseRequest.reconnect.ownerToken "b", .holding 601⟩

def expired : BridgeConnectionLease := ⟨1, "whatsapp", token, .holding 300⟩

end LeaseExample

open LeaseExample LeaseState in
theorem connection_lease_exclusive_takeover :
    (reached takenOver).Holds reconnected ∧ ¬ (reached takenOver).Holds expired := by
  have hrun : Transition.run LeaseState.step (LeaseState.start 0 Table.empty) takenOver =
      some (reached takenOver) := Transition.run_eq_final (by decide +kernel)
  have hholds : (reached takenOver).Holds reconnected := by decide +kernel
  refine ⟨hholds, fun hexpired => ?_⟩
  have htoken := (connection_lease_exclusive hrun).1 reconnected expired hholds hexpired rfl
  exact absurd htoken (by decide +kernel)

open LeaseExample LeaseState in
/-- A holder whose lease ran out and was taken over renews once the other holder has gone. -/
theorem renew_granted_without_row :
    ¬ ∀ (clock : Int) (leases : ConnectionLeaseTable) (actions : List LeaseAction)
      (s next : LeaseState) (h : BridgeConnectionLease) (told askedAt leaseUntil now : Int),
      Transition.run LeaseState.step (LeaseState.start clock leases) actions = some s →
      h ∈ s.holders → h.stage = .renewing told askedAt leaseUntil →
      s.step (.execute h.ownerToken now .done) = some next → next.Granted h leaseUntil →
        ∃ r ∈ s.leases, r.pair = h.pair ∧ r.ownerToken = h.ownerToken := by
  intro law
  have hmem : job ∈ (reached renewed).holders := by decide +kernel
  have hsome : ((reached renewed).step (.execute job.ownerToken 301 .done)).isSome = true := by
    decide +kernel
  obtain ⟨next, hstep⟩ := Option.isSome_iff_exists.mp hsome
  have hleft : (reached renewed).LeftTo job 301 := by
    unfold LeftTo
    decide +kernel
  obtain ⟨r, hr, _, _⟩ := law 0 Table.empty renewed (reached renewed) next job 300 301 601 301
    (Transition.run_eq_final (by decide +kernel)) hmem rfl hstep
    ((renew_granted_iff hmem rfl hstep).mpr hleft)
  have hempty : (reached renewed).leases.rows = [] := by decide +kernel
  rw [← Table.mem_rows, hempty] at hr
  exact absurd hr List.not_mem_nil

end Lightfriend.Bridge
