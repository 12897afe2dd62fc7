import Lightfriend.Core.Database
import Lightfriend.Core.Lease
import Lightfriend.Core.Machine
import Lightfriend.Core.Table
import Lightfriend.Core.Transition

/-! # The usage outbox

`flush_usage_outbox` reads the due events, claims them one by one, sends the
claimed ones and marks each by the answer. The claims of a flush hold for a
minute from the clock reading of its claim; the two marks name the event only.
Any number of flushes may run at once, and each may wait anywhere.
-/

namespace Lightfriend.Billing

/-! ## The rows -/

inductive UsageStatus
  | pending
  | sending
  | sent
  | failed
deriving DecidableEq, Repr

structure BillingUsageEvent where
  transactionId : String
  userId : Int
  eventType : String
  costMicrousd : Int
  occurredAt : Int
  status : UsageStatus
  attempts : Int
  nextAttemptAt : Int
  lastError : Option String
  createdAt : Int
  sentAt : Option Int
deriving DecidableEq, Repr

abbrev UsageTable : Type := Table BillingUsageEvent String BillingUsageEvent.transactionId

def usageLeaseSecs : Int := 60

/-- The wait after a number of failed attempts; a negative number is a huge `u32`. -/
def retryDelaySeconds (attempts : Int) : Int :=
  if attempts < 0 then 3600 else min (2 ^ (min attempts 10).toNat) 3600

namespace BillingUsageEvent

/-- The row of `enqueue_usage` and of a finalized intent. -/
def enqueued (transactionId : String) (userId : Int) (eventType : String)
    (costMicrousd occurredAt now : Int) : BillingUsageEvent where
  transactionId := transactionId
  userId := userId
  eventType := eventType
  costMicrousd := costMicrousd
  occurredAt := occurredAt
  status := .pending
  attempts := 0
  nextAttemptAt := now
  lastError := none
  createdAt := now
  sentAt := none

def isDue (now : Int) (r : BillingUsageEvent) : Bool :=
  [UsageStatus.pending, .failed, .sending].contains r.status && r.nextAttemptAt ≤ now

def claim (now : Int) (r : BillingUsageEvent) : BillingUsageEvent :=
  { r with status := .sending, nextAttemptAt := saturatingAdd now usageLeaseSecs }

def markSent (now : Int) (r : BillingUsageEvent) : BillingUsageEvent :=
  { r with status := .sent, sentAt := some now, lastError := none }

def markFailed (now previousAttempts : Int) (error : String) (r : BillingUsageEvent) :
    BillingUsageEvent :=
  { r with
    status := .failed
    attempts := saturatingAdd previousAttempts 1
    nextAttemptAt := saturatingAdd now (retryDelaySeconds (saturatingAdd previousAttempts 1))
    lastError := some error }

theorem claim_transactionId (now : Int) (r : BillingUsageEvent) :
    (r.claim now).transactionId = r.transactionId := rfl

theorem markSent_transactionId (now : Int) (r : BillingUsageEvent) :
    (r.markSent now).transactionId = r.transactionId := rfl

theorem markFailed_transactionId (now previousAttempts : Int) (error : String)
    (r : BillingUsageEvent) :
    (r.markFailed now previousAttempts error).transactionId = r.transactionId := rfl

/-- The event that a claim of `transactionId` matches. -/
def claimable (transactionId : String) (now : Int) (r : BillingUsageEvent) : Bool :=
  r.transactionId = transactionId && r.isDue now

end BillingUsageEvent

namespace UsageTable

/-- The candidates of `claim_due_usage`. -/
def dueUsage (t : UsageTable) (now : Int) (limit : Nat) : List BillingUsageEvent :=
  (orderBy (fun a b : BillingUsageEvent => a.createdAt ≤ b.createdAt)
    (t.rows.filter (BillingUsageEvent.isDue now))).take limit

def claimUsage (t : UsageTable) (transactionId : String) (now : Int) : UsageTable :=
  t.updateWhere (BillingUsageEvent.claimable transactionId now) (BillingUsageEvent.claim now)
    (BillingUsageEvent.claim_transactionId now)

def markUsageSent (t : UsageTable) (transactionId : String) (now : Int) : UsageTable :=
  t.updateWhere (fun r => r.transactionId = transactionId) (BillingUsageEvent.markSent now)
    (BillingUsageEvent.markSent_transactionId now)

def markUsageFailed (t : UsageTable) (transactionId : String) (now previousAttempts : Int)
    (error : String) : UsageTable :=
  t.updateWhere (fun r => r.transactionId = transactionId)
    (BillingUsageEvent.markFailed now previousAttempts error)
    (BillingUsageEvent.markFailed_transactionId now previousAttempts error)

end UsageTable

/-! ## The workers -/

/-- The claims one flush asks for; they fit into one chunk of the provider's request. -/
def flushLimit : Nat := 100

/-- Where a flush stands: it reads, claims what is left of the candidates, or marks what is left
of the claimed events after the answer. With no candidate left it waits for the answer. -/
inductive FlushStage
  | loading
  | claiming (candidates claimed : List BillingUsageEvent)
  | marking (error : Option String) (claimed : List BillingUsageEvent)
deriving DecidableEq, Repr

/-- The claimed events a flush has not reported on. -/
def FlushStage.unreported : FlushStage → List BillingUsageEvent
  | loading => []
  | claiming _ claimed => claimed
  | marking _ claimed => claimed

/-- The events a flush has in hand. -/
def FlushStage.inHand : FlushStage → List BillingUsageEvent
  | loading => []
  | claiming candidates claimed => claimed ++ candidates
  | marking _ claimed => claimed

structure FlushWorker where
  id : Nat
  now : Int
  stage : FlushStage
deriving DecidableEq, Repr

/-- The end of every lease of the flush. -/
def FlushWorker.leaseUntil (w : FlushWorker) : Int := saturatingAdd w.now usageLeaseSecs

structure OutboxState where
  clock : Int
  events : UsageTable
  workers : Table FlushWorker Nat FlushWorker.id
  /-- The flushes that claimed an event, the newest first. No code reads it. -/
  takers : List (String × Nat)

inductive OutboxAction
  | tick (now : Int)
  | enqueue (transactionId : String) (userId : Int) (eventType : String)
      (costMicrousd occurredAt now : Int)
  | start (id : Nat)
  | load (id : Nat) (ok : Bool)
  | claim (id : Nat) (fate : StatementFate)
  /-- The provider's answer arrives, or the request fails with an error code. -/
  | answer (id : Nat) (error : Option String)
  | mark (id : Nat) (now : Int) (fate : StatementFate)
  /-- The flush returns, or its process ends. -/
  | stop (id : Nat)
deriving DecidableEq, Repr

namespace OutboxState

def setStage (s : OutboxState) (id : Nat) (stage : FlushStage) :
    Table FlushWorker Nat FlushWorker.id :=
  s.workers.updateWhere (fun w => w.id = id) (fun w => { w with stage := stage }) (fun _ => rfl)

def forget (s : OutboxState) (id : Nat) : Table FlushWorker Nat FlushWorker.id :=
  s.workers.deleteWhere (fun w => w.id = id)

def taker (s : OutboxState) (transactionId : String) : Option Nat :=
  Lease.lastTaker s.takers transactionId

/-- A flush is never started under the number of an earlier one. -/
def start (s : OutboxState) (id : Nat) : Option OutboxState :=
  if hfree : ¬ s.workers.HasKey id then
    if s.takers.all (fun t => t.2 ≠ id) then
      some { s with workers := s.workers.insert ⟨id, s.clock, .loading⟩ hfree }
    else none
  else none

def load (s : OutboxState) (w : FlushWorker) (ok : Bool) : Option OutboxState :=
  match w.stage with
  | .loading =>
      some { s with
        workers :=
          if ok then s.setStage w.id (.claiming (UsageTable.dueUsage s.events w.now flushLimit) [])
          else s.forget w.id }
  | _ => none

/-- The update of one candidate. An error ends the flush and leaves its claims behind. -/
def claim (s : OutboxState) (w : FlushWorker) (fate : StatementFate) : Option OutboxState :=
  match w.stage with
  | .claiming (event :: candidates) claimed =>
      let affected := s.events.rows.any (BillingUsageEvent.claimable event.transactionId w.now)
      some { s with
        events := fate.after s.events (UsageTable.claimUsage s.events event.transactionId w.now)
        takers :=
          if affected then fate.after s.takers ((event.transactionId, w.id) :: s.takers)
          else s.takers
        workers :=
          match fate.answer affected with
          | some true => s.setStage w.id (.claiming candidates (claimed ++ [event]))
          | some false => s.setStage w.id (.claiming candidates claimed)
          | none => s.forget w.id }
  | _ => none

def answer (s : OutboxState) (w : FlushWorker) (error : Option String) : Option OutboxState :=
  match w.stage with
  | .claiming [] claimed => some { s with workers := s.setStage w.id (.marking error claimed) }
  | _ => none

/-- What a flush writes about an event after the answer. -/
def markTable (t : UsageTable) (event : BillingUsageEvent) (now : Int) : Option String → UsageTable
  | none => t.markUsageSent event.transactionId now
  | some error => t.markUsageFailed event.transactionId now event.attempts error

/-- An error of the statement is logged or ignored. -/
def mark (s : OutboxState) (w : FlushWorker) (now : Int) (fate : StatementFate) :
    Option OutboxState :=
  match w.stage with
  | .marking error (event :: claimed) =>
      if now ≤ s.clock then
        some { s with
          events := fate.after s.events (markTable s.events event now error)
          workers := s.setStage w.id (.marking error claimed) }
      else none
  | _ => none

def step (s : OutboxState) : OutboxAction → Option OutboxState
  | .tick now => if s.clock ≤ now then some { s with clock := now } else none
  | .enqueue transactionId userId eventType costMicrousd occurredAt now =>
      some { s with
        events := s.events.insertOrIgnore
          (.enqueued transactionId userId eventType costMicrousd occurredAt now) }
  | .start id => s.start id
  | .load id ok => (s.workers.find? id).bind (fun w => s.load w ok)
  | .claim id fate => (s.workers.find? id).bind (fun w => s.claim w fate)
  | .answer id error => (s.workers.find? id).bind (fun w => s.answer w error)
  | .mark id now fate => (s.workers.find? id).bind (fun w => s.mark w now fate)
  | .stop id => some { s with workers := s.forget id }

/-- No flush runs yet; the outbox holds any events. -/
def initial (clock : Int) (events : UsageTable) : OutboxState := ⟨clock, events, Table.empty, []⟩

/-! ## The law -/

/-- The flush claimed the event, has not reported on it, and its lease has not run out. -/
def Holds (s : OutboxState) (w : FlushWorker) (transactionId : String) : Prop :=
  w ∈ s.workers ∧ (∃ e ∈ w.stage.unreported, e.transactionId = transactionId) ∧
    s.clock < w.leaseUntil

/-- What has to hold of a step: an event that was marked sent stays sent, and afterwards at most
one flush holds a lease on an event. -/
structure OutboxLaw (s next : OutboxState) : Prop where
  sent : ∀ r ∈ s.events, r.status = .sent →
    ∃ r' ∈ next.events, r'.transactionId = r.transactionId ∧ r'.status = .sent
  exclusive : ∀ transactionId v w, next.Holds v transactionId → next.Holds w transactionId →
    v.id = w.id

/-- A failure is reported on an event that is not sent, by the last flush that claimed it, or
for a time at which the lease of the last one has run out. -/
def failsOwnClaim (s : OutboxState) (w : FlushWorker) (event : BillingUsageEvent) (now : Int)
    (error : String) : Bool :=
  s.events.rows.all (fun r => r.transactionId ≠ event.transactionId ||
    (r.status ≠ .sent && (s.taker event.transactionId = some w.id ||
      r.nextAttemptAt ≤ (r.markFailed now event.attempts error).nextAttemptAt)))

/-- No report of a failure meets a sent event or cuts the lease of another flush short. -/
def reportsInTime (s : OutboxState) : OutboxAction → Bool
  | .mark id now _ =>
      match s.workers.find? id with
      | none => true
      | some w =>
          match w.stage with
          | .marking (some error) (event :: _) => s.failsOwnClaim w event now error
          | _ => true
  | _ => true

/-! ## The record and the claims on it -/

/-- The flush that claimed the event last, and the time the event becomes due again. -/
def record (s : OutboxState) (transactionId : String) : Option (Nat × Int) :=
  match s.events.find? transactionId, s.taker transactionId with
  | some r, some id => some (id, r.nextAttemptAt)
  | _, _ => none

def claims (s : OutboxState) (transactionId : String) (id : Nat) (ends : Int) : Prop :=
  ∃ w ∈ s.workers, w.id = id ∧ w.leaseUntil = ends ∧
    ∃ e ∈ w.stage.unreported, e.transactionId = transactionId

structure Inv (s : OutboxState) : Prop where
  recorded : ∀ transactionId, Lease.Recorded s.clock (s.record transactionId) (s.claims transactionId)
  timely : ∀ w ∈ s.workers, w.now ≤ s.clock
  /-- No flush has an event twice. -/
  distinct : ∀ w ∈ s.workers, (w.stage.inHand.map BillingUsageEvent.transactionId).Nodup

theorem record_eq_some {s : OutboxState} {transactionId : String} {id : Nat} {ends : Int}
    (h : s.record transactionId = some (id, ends)) :
    ∃ r ∈ s.events, r.transactionId = transactionId ∧ r.nextAttemptAt = ends ∧
      s.taker transactionId = some id := by
  unfold record at h
  split at h
  next r id' hrow htaker =>
    obtain ⟨hmem, hid⟩ := Table.find?_eq_some_iff.mp hrow
    cases h
    exact ⟨r, hmem, hid, rfl, htaker⟩
  next => cases h

theorem record_of_same {s next : OutboxState} {transactionId : String}
    (hrow : (next.events.find? transactionId).map BillingUsageEvent.nextAttemptAt =
      (s.events.find? transactionId).map BillingUsageEvent.nextAttemptAt)
    (htakers : next.takers = s.takers) : next.record transactionId = s.record transactionId := by
  unfold record taker
  rw [htakers]
  cases hnext : next.events.find? transactionId with
  | none =>
      cases hs : s.events.find? transactionId with
      | none => rfl
      | some r => simp [hnext, hs] at hrow
  | some r' =>
      cases hs : s.events.find? transactionId with
      | none => simp [hnext, hs] at hrow
      | some r =>
          have hsame : r'.nextAttemptAt = r.nextAttemptAt := by simpa [hnext, hs] using hrow
          cases Lease.lastTaker s.takers transactionId with
          | none => rfl
          | some id => simp only [hsame]

theorem mem_setStage {s : OutboxState} {id : Nat} {stage : FlushStage} {w : FlushWorker} :
    w ∈ s.setStage id stage ↔
      ∃ old ∈ s.workers, w = if old.id = id then { old with stage := stage } else old := by
  unfold setStage
  simp [Table.mem_updateWhere]

theorem mem_forget {s : OutboxState} {id : Nat} {w : FlushWorker} :
    w ∈ s.forget id ↔ w ∈ s.workers ∧ w.id ≠ id := by
  unfold forget
  simp

theorem claims_forget {s next : OutboxState} {id : Nat} (hnext : next.workers = s.forget id)
    {transactionId : String} {other : Nat} {ends : Int}
    (h : next.claims transactionId other ends) :
    s.claims transactionId other ends ∧ other ≠ id := by
  obtain ⟨w, hmem, rfl, hends, hevent⟩ := h
  rw [hnext, mem_forget] at hmem
  exact ⟨⟨w, hmem.1, rfl, hends, hevent⟩, hmem.2⟩

/-- A claim after `w` moved on is another flush's, or one that `w` has in its new stage. -/
theorem claims_setStage {s next : OutboxState} {w : FlushWorker} (hmem : w ∈ s.workers)
    {stage : FlushStage} (hnext : next.workers = s.setStage w.id stage) {transactionId : String}
    {other : Nat} {ends : Int} (hclaim : next.claims transactionId other ends) :
    (s.claims transactionId other ends ∧ other ≠ w.id) ∨
      (other = w.id ∧ ends = w.leaseUntil ∧
        ∃ e ∈ stage.unreported, e.transactionId = transactionId) := by
  obtain ⟨v, hv, rfl, hends, hevent⟩ := hclaim
  rw [hnext, mem_setStage] at hv
  obtain ⟨old, hold, rfl⟩ := hv
  by_cases hsame : old.id = w.id
  · have heq : old = w := Table.eq_of_key_eq hold hmem hsame
    subst heq
    rw [if_pos rfl] at hends hevent ⊢
    exact Or.inr ⟨rfl, hends.symm, hevent⟩
  · rw [if_neg hsame] at hends hevent ⊢
    exact Or.inl ⟨⟨old, hold, rfl, hends, hevent⟩, hsame⟩

section Workers

variable {s : OutboxState}

theorem timely_setStage (hinv : s.Inv) (id : Nat) (stage : FlushStage) :
    ∀ w ∈ s.setStage id stage, w.now ≤ s.clock := by
  intro w hmem
  obtain ⟨old, hold, rfl⟩ := mem_setStage.1 hmem
  have hnow := hinv.timely old hold
  split <;> exact hnow

theorem distinct_setStage (hinv : s.Inv) (id : Nat) {stage : FlushStage}
    (hstage : (stage.inHand.map BillingUsageEvent.transactionId).Nodup) :
    ∀ w ∈ s.setStage id stage, (w.stage.inHand.map BillingUsageEvent.transactionId).Nodup := by
  intro w hmem
  obtain ⟨old, hold, rfl⟩ := mem_setStage.1 hmem
  have hdistinct := hinv.distinct old hold
  split
  · exact hstage
  · exact hdistinct

theorem dueUsage_distinct (t : UsageTable) (now : Int) (limit : Nat) :
    ((t.dueUsage now limit).map BillingUsageEvent.transactionId).Nodup := by
  refine List.Nodup.sublist ((List.take_sublist _ _).map _) ?_
  refine ((List.perm_insertionSort _ _).map _).nodup_iff.mpr ?_
  exact t.unique.sublist (List.filter_sublist.map _)

end Workers

/-! ## What a step keeps -/

section Steps

variable {s next : OutboxState} {w : FlushWorker}

/-- The workers after a flush moved on or ended, with the claims it still has. -/
theorem Inv.moved (hinv : s.Inv) (hmem : w ∈ s.workers) {stage : FlushStage}
    (hclock : next.clock = s.clock) (hworkers : next.workers = s.setStage w.id stage)
    (hdistinct : (stage.inHand.map BillingUsageEvent.transactionId).Nodup)
    (hrecorded : (∀ transactionId id ends, next.claims transactionId id ends →
        (s.claims transactionId id ends ∧ id ≠ w.id) ∨
          (id = w.id ∧ ends = w.leaseUntil ∧
            ∃ e ∈ stage.unreported, e.transactionId = transactionId)) →
      ∀ transactionId, Lease.Recorded s.clock (next.record transactionId)
        (next.claims transactionId)) : next.Inv where
  recorded := by
    rw [hclock]
    exact hrecorded (fun transactionId id ends hclaim => claims_setStage hmem hworkers hclaim)
  timely v hv := by
    rw [hclock]
    rw [hworkers] at hv
    exact timely_setStage hinv w.id stage v hv
  distinct v hv := by
    rw [hworkers] at hv
    exact distinct_setStage hinv w.id hdistinct v hv

/-- A step without a statement: the flush keeps claims it had. -/
theorem Inv.shifted (hinv : s.Inv) (hmem : w ∈ s.workers) {stage : FlushStage}
    (hclock : next.clock = s.clock) (hworkers : next.workers = s.setStage w.id stage)
    (hdistinct : (stage.inHand.map BillingUsageEvent.transactionId).Nodup)
    (hrecord : ∀ transactionId, next.record transactionId = s.record transactionId)
    (hclaims : ∀ e ∈ stage.unreported, e ∈ w.stage.unreported) : next.Inv := by
  refine hinv.moved hmem hclock hworkers hdistinct (fun hnext transactionId => ?_)
  rw [hrecord]
  refine (hinv.recorded transactionId).forget (fun id ends hclaim => ?_)
  rcases hnext _ _ _ hclaim with ⟨hold, _⟩ | ⟨rfl, rfl, e, he, hid⟩
  · exact hold
  · exact ⟨w, hmem, rfl, rfl, e, hclaims e he, hid⟩

theorem Inv.stopped (hinv : s.Inv) (id : Nat) (hclock : next.clock = s.clock)
    (hworkers : next.workers = s.forget id)
    (hrecorded : (∀ transactionId other ends, next.claims transactionId other ends →
        s.claims transactionId other ends ∧ other ≠ id) →
      ∀ transactionId, Lease.Recorded s.clock (next.record transactionId)
        (next.claims transactionId)) : next.Inv where
  recorded := by
    rw [hclock]
    exact hrecorded (fun transactionId other ends hclaim => claims_forget hworkers hclaim)
  timely v hv := by
    rw [hworkers, mem_forget] at hv
    rw [hclock]
    exact hinv.timely v hv.1
  distinct v hv := by
    rw [hworkers, mem_forget] at hv
    exact hinv.distinct v hv.1

theorem Inv.forgotten (hinv : s.Inv) (id : Nat) (hclock : next.clock = s.clock)
    (hworkers : next.workers = s.forget id)
    (hrecord : ∀ transactionId, next.record transactionId = s.record transactionId) :
    next.Inv := by
  refine hinv.stopped id hclock hworkers (fun hnext transactionId => ?_)
  rw [hrecord]
  exact (hinv.recorded transactionId).forget (fun other ends hclaim => (hnext _ _ _ hclaim).1)

theorem Inv.tick (hinv : s.Inv) {now : Int} (hnow : s.clock ≤ now) :
    Inv { s with clock := now } where
  recorded transactionId := (hinv.recorded transactionId).tick hnow
  timely v hv := (hinv.timely v hv).trans hnow
  distinct := hinv.distinct

theorem Inv.enqueue (hinv : s.Inv) (row : BillingUsageEvent) :
    Inv { s with events := s.events.insertOrIgnore row } where
  recorded := by
    intro transactionId id ends hclaim hends
    obtain ⟨recorded, hrecord, hle⟩ := hinv.recorded transactionId id ends hclaim hends
    obtain ⟨r, hr, hid, hnext, htaker⟩ := record_eq_some hrecord
    refine ⟨recorded, ?_, hle⟩
    rw [← hrecord]
    refine record_of_same ?_ rfl
    -- The event is in the outbox already.
    have hfind : s.events.find? transactionId = some r := Table.find?_eq_some_iff.mpr ⟨hr, hid⟩
    change ((Table.insertOrIgnore s.events row).find? transactionId).map _ = _
    rw [Table.find?_insertOrIgnore, hfind]
    split <;> rfl
  timely := hinv.timely
  distinct := hinv.distinct

theorem Inv.start (hinv : s.Inv) {id : Nat} (hstep : s.start id = some next) : next.Inv := by
  simp only [OutboxState.start] at hstep
  split at hstep
  next hfree =>
    rw [Option.ite_none_right_eq_some] at hstep
    cases hstep.2
    constructor
    · intro transactionId
      refine (hinv.recorded transactionId).forget (fun other ends hclaim => ?_)
      obtain ⟨v, hv, hid, hends, e, he, hevent⟩ := hclaim
      rcases (Table.mem_insert (h := hfree)).mp hv with hold | rfl
      · exact ⟨v, hold, hid, hends, e, he, hevent⟩
      · exact absurd he List.not_mem_nil
    · intro v hv
      rcases (Table.mem_insert (h := hfree)).mp hv with hold | rfl
      · exact hinv.timely v hold
      · exact le_refl _
    · intro v hv
      rcases (Table.mem_insert (h := hfree)).mp hv with hold | rfl
      · exact hinv.distinct v hold
      · exact List.nodup_nil
  next => cases hstep

theorem Inv.load (hinv : s.Inv) (hmem : w ∈ s.workers) {ok : Bool}
    (hstep : s.load w ok = some next) : next.Inv := by
  simp only [OutboxState.load] at hstep
  split at hstep
  next hstage =>
    cases hstep
    cases ok with
    | false => exact hinv.forgotten w.id rfl rfl (fun _ => rfl)
    | true =>
        refine hinv.shifted hmem rfl rfl ?_ (fun _ => rfl) (fun e he => absurd he List.not_mem_nil)
        exact dueUsage_distinct s.events w.now flushLimit
  next => cases hstep

theorem Inv.answer (hinv : s.Inv) (hmem : w ∈ s.workers) {error : Option String}
    (hstep : s.answer w error = some next) : next.Inv := by
  simp only [OutboxState.answer] at hstep
  split at hstep
  next claimed hstage =>
    cases hstep
    have hdistinct := hinv.distinct w hmem
    rw [hstage] at hdistinct
    refine hinv.shifted hmem rfl rfl ?_ (fun _ => rfl) (fun e he => ?_)
    · simpa [FlushStage.inHand] using hdistinct
    · rw [hstage]
      exact he
  next => cases hstep

/-! ## Claiming -/

theorem claimable_spec {transactionId : String} {now : Int} {r : BillingUsageEvent}
    (h : BillingUsageEvent.claimable transactionId now r = true) :
    r.transactionId = transactionId ∧ r.status ≠ .sent ∧ r.nextAttemptAt ≤ now := by
  simp only [BillingUsageEvent.claimable, BillingUsageEvent.isDue, Bool.and_eq_true,
    decide_eq_true_eq] at h
  obtain ⟨hid, hstatus, hnext⟩ := h
  refine ⟨hid, ?_, hnext⟩
  intro hsent
  rw [hsent] at hstatus
  exact absurd hstatus (by decide)

/-- A claim that matched puts the flush and its lease on record. -/
theorem record_claim {event r : BillingUsageEvent} (hr : r ∈ s.events)
    (hclaimable : BillingUsageEvent.claimable event.transactionId w.now r = true)
    (hevents : next.events = UsageTable.claimUsage s.events event.transactionId w.now)
    (htakers : next.takers = (event.transactionId, w.id) :: s.takers) (transactionId : String) :
    next.record transactionId =
      if event.transactionId = transactionId then some (w.id, w.leaseUntil)
      else s.record transactionId := by
  have hrow : next.events.find? transactionId = (s.events.find? transactionId).map (fun r =>
      if BillingUsageEvent.claimable event.transactionId w.now r then r.claim w.now else r) := by
    rw [hevents]
    exact Table.find?_updateWhere
  have htaker : next.taker transactionId =
      if event.transactionId = transactionId then some w.id else s.taker transactionId := by
    unfold taker
    rw [htakers]
    exact Lease.lastTaker_cons s.takers event.transactionId transactionId w.id
  obtain ⟨hid, _, _⟩ := claimable_spec hclaimable
  split
  next heq =>
    subst heq
    rw [Table.find?_eq_some_iff.mpr ⟨hr, hid⟩, Option.map_some, if_pos hclaimable] at hrow
    rw [if_pos rfl] at htaker
    unfold record
    rw [hrow, htaker]
    rfl
  next hne =>
    rw [if_neg hne] at htaker
    unfold record
    rw [hrow, htaker]
    cases hfind : s.events.find? transactionId with
    | none => rfl
    | some other =>
        have hother : other.transactionId = transactionId := (Table.find?_eq_some_iff.mp hfind).2
        have hnot : BillingUsageEvent.claimable event.transactionId w.now other = false := by
          rw [Bool.eq_false_iff]
          intro hc
          exact hne ((claimable_spec hc).1.symm.trans hother)
        rw [Option.map_some, hnot]
        rfl

/-- The lease was free for the flush, and is on record for it now. -/
theorem recorded_claim (hinv : s.Inv) (hmem : w ∈ s.workers) {event r : BillingUsageEvent}
    (hr : r ∈ s.events)
    (hclaimable : BillingUsageEvent.claimable event.transactionId w.now r = true)
    (hevents : next.events = UsageTable.claimUsage s.events event.transactionId w.now)
    (htakers : next.takers = (event.transactionId, w.id) :: s.takers)
    (hclaims : ∀ transactionId id ends, next.claims transactionId id ends →
      s.claims transactionId id ends ∨
        (id = w.id ∧ ends = w.leaseUntil ∧ transactionId = event.transactionId))
    (transactionId : String) :
    Lease.Recorded s.clock (next.record transactionId) (next.claims transactionId) := by
  obtain ⟨hid, _, hdue⟩ := claimable_spec hclaimable
  rw [record_claim hr hclaimable hevents htakers]
  by_cases heq : event.transactionId = transactionId
  · rw [if_pos heq]
    subst heq
    refine (hinv.recorded event.transactionId).take (hinv.timely w hmem) ?_ ?_ ?_
    · intro other ends hrecord
      obtain ⟨r', hr', hid', hnext, _⟩ := record_eq_some hrecord
      rw [Table.eq_of_key_eq hr' hr (hid'.trans hid.symm)] at hnext
      exact Or.inl (hnext ▸ hdue)
    · intro ends hclaim
      rcases hclaims _ _ _ hclaim with ⟨v, hv, hvid, hends, _⟩ | ⟨_, hends, _⟩
      · rw [Table.eq_of_key_eq hv hmem hvid] at hends
        exact hends.ge
      · exact hends.le
    · intro id ends hclaim hne
      rcases hclaims _ _ _ hclaim with hold | ⟨rfl, _⟩
      · exact hold
      · exact absurd rfl hne
  · rw [if_neg heq]
    refine (hinv.recorded transactionId).forget (fun id ends hclaim => ?_)
    rcases hclaims _ _ _ hclaim with hold | ⟨_, _, rfl⟩
    · exact hold
    · exact absurd rfl heq

theorem Inv.claim (hinv : s.Inv) (hmem : w ∈ s.workers) {fate : StatementFate}
    (hstep : s.claim w fate = some next) : next.Inv := by
  simp only [OutboxState.claim] at hstep
  split at hstep
  next event candidates claimed hstage =>
    have hdistinct := hinv.distinct w hmem
    rw [hstage] at hdistinct
    have hkept : ((claimed ++ candidates).map BillingUsageEvent.transactionId).Nodup := by
      refine hdistinct.sublist (List.Sublist.map _ ?_)
      exact (List.Sublist.refl claimed).append (List.sublist_cons_self event candidates)
    cases hany : s.events.rows.any (BillingUsageEvent.claimable event.transactionId w.now) with
    | false =>
        have hsame : UsageTable.claimUsage s.events event.transactionId w.now = s.events :=
          Table.updateWhere_of_none (fun r hr => Bool.eq_false_iff.mpr (List.any_eq_false.mp hany r hr))
        simp only [hany, Bool.false_eq_true, if_false, hsame, Option.some.injEq] at hstep
        subst hstep
        have hrecord : ∀ workers transactionId, OutboxState.record
            ⟨s.clock, fate.after s.events s.events, workers, s.takers⟩ transactionId =
              s.record transactionId := by
          intro workers transactionId
          exact record_of_same (by cases fate <;> rfl) rfl
        cases fate with
        | done =>
            refine hinv.shifted hmem rfl rfl hkept (hrecord _) (fun e he => ?_)
            rw [hstage]
            exact he
        | refused => exact hinv.forgotten w.id rfl rfl (hrecord _)
        | lost => exact hinv.forgotten w.id rfl rfl (hrecord _)
    | true =>
        obtain ⟨r, hr, hclaimable⟩ := List.any_eq_true.mp hany
        simp only [hany, if_true, Option.some.injEq] at hstep
        subst hstep
        cases fate with
        | refused => exact hinv.forgotten w.id rfl rfl (fun _ => rfl)
        | lost =>
            refine hinv.stopped w.id rfl rfl (fun hnext => ?_)
            refine recorded_claim hinv hmem hr hclaimable rfl rfl ?_
            exact fun transactionId id ends hclaim => Or.inl (hnext _ _ _ hclaim).1
        | done =>
            refine hinv.moved hmem rfl rfl ?_ (fun hnext => ?_)
            · simpa [FlushStage.inHand] using hdistinct
            · refine recorded_claim hinv hmem hr hclaimable rfl rfl ?_
              intro transactionId id ends hclaim
              rcases hnext _ _ _ hclaim with ⟨hold, _⟩ | ⟨rfl, rfl, e, he, hid⟩
              · exact Or.inl hold
              · rcases List.mem_append.mp he with hbefore | hlast
                · refine Or.inl ⟨w, hmem, rfl, rfl, e, ?_, hid⟩
                  rw [hstage]
                  exact hbefore
                · rw [List.mem_singleton] at hlast
                  exact Or.inr ⟨rfl, rfl, by rw [← hid, hlast]⟩
  next => cases hstep
/-! ## Marking -/

theorem failsOwnClaim_spec {event r : BillingUsageEvent} {now : Int} {error : String}
    (h : s.failsOwnClaim w event now error = true) (hr : r ∈ s.events)
    (hid : r.transactionId = event.transactionId) :
    r.status ≠ .sent ∧ (s.taker event.transactionId = some w.id ∨
      r.nextAttemptAt ≤ (r.markFailed now event.attempts error).nextAttemptAt) := by
  have hrow := List.all_eq_true.mp h r hr
  simpa [hid] using hrow

/-- The failure of a flush's own claim frees the event; another flush's lease is not cut short. -/
theorem recorded_failed (hinv : s.Inv) {event : BillingUsageEvent} {now : Int} {error : String}
    (hown : s.failsOwnClaim w event now error = true)
    (hevents : next.events =
      UsageTable.markUsageFailed s.events event.transactionId now event.attempts error)
    (htakers : next.takers = s.takers)
    (hclaims : ∀ transactionId id ends, next.claims transactionId id ends →
      s.claims transactionId id ends ∧ (transactionId = event.transactionId → id ≠ w.id))
    (transactionId : String) :
    Lease.Recorded s.clock (next.record transactionId) (next.claims transactionId) := by
  intro id ends hclaim hends
  obtain ⟨hold, hother⟩ := hclaims _ _ _ hclaim
  obtain ⟨recorded, hrecord, hle⟩ := hinv.recorded transactionId id ends hold hends
  obtain ⟨r, hr, hid, hnext, htaker⟩ := record_eq_some hrecord
  have hfind : s.events.find? transactionId = some r := Table.find?_eq_some_iff.mpr ⟨hr, hid⟩
  have hrow : next.events.find? transactionId = some
      (if decide (r.transactionId = event.transactionId) = true then
        r.markFailed now event.attempts error else r) := by
    rw [hevents, UsageTable.markUsageFailed, Table.find?_updateWhere, hfind]
    rfl
  have htaker' : next.taker transactionId = some id := by
    rw [← htaker]
    unfold taker
    rw [htakers]
  unfold record
  rw [hrow, htaker']
  by_cases hevent : r.transactionId = event.transactionId
  · simp only [hevent, decide_true, if_true]
    obtain ⟨_, hfails⟩ := failsOwnClaim_spec hown hr hevent
    rcases hfails with htook | hlater
    · rw [← hevent, hid, htaker] at htook
      exact absurd (Option.some.inj htook) (hother (hid.symm.trans hevent))
    · exact ⟨_, rfl, hle.trans (hnext ▸ hlater)⟩
  · simp only [hevent, decide_false, Bool.false_eq_true, if_false]
    exact ⟨_, rfl, hle.trans hnext.ge⟩

theorem Inv.mark (hinv : s.Inv) (hmem : w ∈ s.workers) {now : Int} {fate : StatementFate}
    (hown : ∀ error event claimed, w.stage = .marking (some error) (event :: claimed) →
      s.failsOwnClaim w event now error = true)
    (hstep : s.mark w now fate = some next) : next.Inv := by
  simp only [OutboxState.mark] at hstep
  split at hstep
  next error event claimed hstage =>
    rw [Option.ite_none_right_eq_some, Option.some.injEq] at hstep
    obtain ⟨_, heq⟩ := hstep
    have hclock : next.clock = s.clock := by rw [← heq]
    have htakers : next.takers = s.takers := by rw [← heq]
    have hworkers : next.workers = s.setStage w.id (.marking error claimed) := by rw [← heq]
    have hevents : next.events = s.events ∨ next.events = markTable s.events event now error := by
      rw [← heq]
      exact fate.after_cases _ _
    have hdistinct := hinv.distinct w hmem
    rw [hstage] at hdistinct
    have hkept : (claimed.map BillingUsageEvent.transactionId).Nodup :=
      (List.nodup_cons.mp hdistinct).2
    have hhanded : ∀ e ∈ claimed, e ∈ w.stage.unreported := by
      intro e he
      rw [hstage]
      exact List.mem_cons_of_mem _ he
    rcases hevents with hsame | hmarked
    · refine hinv.shifted hmem hclock hworkers hkept (fun _ => ?_) hhanded
      exact record_of_same (by rw [hsame]) htakers
    · cases error with
      | none =>
          refine hinv.shifted hmem hclock hworkers hkept (fun transactionId => ?_) hhanded
          refine record_of_same ?_ htakers
          rw [hmarked]
          simp only [markTable, UsageTable.markUsageSent]
          rw [Table.find?_updateWhere, Option.map_map]
          congr 1
          funext r
          simp only [Function.comp_apply]
          split <;> rfl
      | some error =>
          refine hinv.moved hmem hclock hworkers hkept (fun hnext => ?_)
          refine recorded_failed hinv (hown error event claimed hstage) hmarked htakers ?_
          intro transactionId id ends hclaim
          rcases hnext _ _ _ hclaim with ⟨hold, hne⟩ | ⟨rfl, rfl, e, he, hid⟩
          · exact ⟨hold, fun _ => hne⟩
          · refine ⟨⟨w, hmem, rfl, rfl, e, hhanded e he, hid⟩, ?_⟩
            intro htransaction
            refine absurd ?_ (List.nodup_cons.mp hdistinct).1
            exact List.mem_map.mpr ⟨e, he, hid.trans htransaction⟩
  next => cases hstep

theorem Inv.step (hinv : s.Inv) {a : OutboxAction} (hown : s.reportsInTime a = true)
    (hstep : s.step a = some next) : next.Inv := by
  cases a with
  | tick now =>
      simp only [OutboxState.step, Option.ite_none_right_eq_some, Option.some.injEq] at hstep
      exact hstep.2 ▸ hinv.tick hstep.1
  | enqueue transactionId userId eventType costMicrousd occurredAt now =>
      cases hstep
      exact hinv.enqueue _
  | start id => exact hinv.start hstep
  | load id ok =>
      obtain ⟨w, hfind, hload⟩ := Option.bind_eq_some_iff.mp hstep
      exact hinv.load (Table.find?_eq_some_iff.mp hfind).1 hload
  | claim id fate =>
      obtain ⟨w, hfind, hclaim⟩ := Option.bind_eq_some_iff.mp hstep
      exact hinv.claim (Table.find?_eq_some_iff.mp hfind).1 hclaim
  | answer id error =>
      obtain ⟨w, hfind, hanswer⟩ := Option.bind_eq_some_iff.mp hstep
      exact hinv.answer (Table.find?_eq_some_iff.mp hfind).1 hanswer
  | mark id now fate =>
      obtain ⟨w, hfind, hmark⟩ := Option.bind_eq_some_iff.mp hstep
      refine hinv.mark (Table.find?_eq_some_iff.mp hfind).1 ?_ hmark
      intro error event claimed hstage
      simpa only [reportsInTime, hfind, hstage] using hown
  | stop id =>
      cases hstep
      exact hinv.forgotten id rfl rfl (fun _ => rfl)

/-! ## Sent events -/

/-- Some row of the event is marked sent. -/
def IsSent (t : UsageTable) (transactionId : String) : Prop :=
  ∃ r ∈ t, r.transactionId = transactionId ∧ r.status = .sent

theorem isSent_updateWhere {t : UsageTable} {p : BillingUsageEvent → Bool}
    {set : BillingUsageEvent → BillingUsageEvent}
    (hkey : ∀ r, (set r).transactionId = r.transactionId) {transactionId : String}
    (h : IsSent t transactionId) (hset : ∀ r ∈ t, r.transactionId = transactionId →
      r.status = .sent → p r = true → (set r).status = .sent) :
    IsSent (t.updateWhere p set hkey) transactionId := by
  obtain ⟨r, hr, hid, hstatus⟩ := h
  refine ⟨_, Table.exists_updateWhere hkey hr, ?_, ?_⟩
  · split
    · exact (hkey r).trans hid
    · exact hid
  · split
    next hp => exact hset r hr hid hstatus hp
    next => exact hstatus

theorem isSent_after {t t' : UsageTable} {transactionId : String} (h : IsSent t transactionId)
    (h' : IsSent t' transactionId) (fate : StatementFate) :
    IsSent (fate.after t t') transactionId := by
  cases fate with
  | done => exact h'
  | refused => exact h
  | lost => exact h'

theorem sent_kept {a : OutboxAction} (hown : s.reportsInTime a = true)
    (hstep : s.step a = some next) {transactionId : String}
    (hsent : IsSent s.events transactionId) : IsSent next.events transactionId := by
  cases a with
  | tick now =>
      simp only [OutboxState.step, Option.ite_none_right_eq_some, Option.some.injEq] at hstep
      obtain ⟨_, rfl⟩ := hstep
      exact hsent
  | enqueue id userId eventType costMicrousd occurredAt now =>
      cases hstep
      obtain ⟨r, hr, hid, hstatus⟩ := hsent
      exact ⟨r, Table.mem_insertOrIgnore.mpr (Or.inl hr), hid, hstatus⟩
  | start id =>
      simp only [OutboxState.step, OutboxState.start] at hstep
      split at hstep
      · rw [Option.ite_none_right_eq_some] at hstep
        cases hstep.2
        exact hsent
      · cases hstep
  | load id ok =>
      obtain ⟨w, _, hload⟩ := Option.bind_eq_some_iff.mp hstep
      simp only [OutboxState.load] at hload
      split at hload
      · cases hload
        exact hsent
      · cases hload
  | claim id fate =>
      obtain ⟨w, _, hclaim⟩ := Option.bind_eq_some_iff.mp hstep
      simp only [OutboxState.claim] at hclaim
      split at hclaim
      · cases hclaim
        refine isSent_after hsent (isSent_updateWhere _ hsent ?_) fate
        intro r _ _ hstatus hclaimable
        exact absurd hstatus (claimable_spec hclaimable).2.1
      · cases hclaim
  | answer id error =>
      obtain ⟨w, _, hanswer⟩ := Option.bind_eq_some_iff.mp hstep
      simp only [OutboxState.answer] at hanswer
      split at hanswer
      · cases hanswer
        exact hsent
      · cases hanswer
  | mark id now fate =>
      obtain ⟨w, hfind, hmark⟩ := Option.bind_eq_some_iff.mp hstep
      simp only [OutboxState.mark] at hmark
      split at hmark
      next error event claimed hstage =>
        rw [Option.ite_none_right_eq_some] at hmark
        cases hmark.2
        refine isSent_after hsent ?_ fate
        cases error with
        | none =>
            exact isSent_updateWhere (BillingUsageEvent.markSent_transactionId now) hsent
              (fun _ _ _ _ _ => rfl)
        | some error =>
            refine isSent_updateWhere
              (BillingUsageEvent.markFailed_transactionId now event.attempts error) hsent ?_
            intro r hr _ hstatus hmatch
            simp only [reportsInTime, hfind, hstage] at hown
            exact absurd hstatus (failsOwnClaim_spec hown hr (of_decide_eq_true hmatch)).1
      next => cases hmark
  | stop id =>
      cases hstep
      exact hsent

theorem Inv.exclusive (hinv : s.Inv) {transactionId : String} {v w : FlushWorker}
    (hv : s.Holds v transactionId) (hw : s.Holds w transactionId) : v.id = w.id := by
  obtain ⟨hvmem, hvevent, hvends⟩ := hv
  obtain ⟨hwmem, hwevent, hwends⟩ := hw
  have hvclaim : s.claims transactionId v.id v.leaseUntil := ⟨v, hvmem, rfl, rfl, hvevent⟩
  have hwclaim : s.claims transactionId w.id w.leaseUntil := ⟨w, hwmem, rfl, rfl, hwevent⟩
  exact (hinv.recorded transactionId).exclusive hvclaim hwclaim hvends hwends

end Steps

/-! ## Every run -/

theorem inv_initial (clock : Int) (events : UsageTable) : (initial clock events).Inv where
  recorded transactionId := by
    intro id ends hclaim
    obtain ⟨w, hmem, _⟩ := hclaim
    exact absurd hmem (Table.not_mem_empty _)
  timely w hmem := absurd hmem (Table.not_mem_empty _)
  distinct w hmem := absurd hmem (Table.not_mem_empty _)

end OutboxState

open OutboxState in
/-- In every run whose failures are reported in time, an event that is sent at one moment is sent
at every later one, and no two flushes hold a lease on one event. -/
theorem usage_outbox_law {clock : Int} {events : UsageTable} {before after : List OutboxAction}
    {s final : OutboxState}
    (hown : Transition.Meets OutboxState.step (fun s a => s.reportsInTime a = true)
      (OutboxState.initial clock events) (before ++ after))
    (hbefore : Transition.run OutboxState.step (OutboxState.initial clock events) before = some s)
    (hafter : Transition.run OutboxState.step s after = some final) : s.OutboxLaw final := by
  obtain ⟨hfirst, hrest⟩ := hown.append
  have hinv : s.Inv :=
    Transition.run_invariant (fun _ _ _ h hok hstep => h.step hok hstep)
      (inv_initial clock events) hfirst hbefore
  have hfinal : final.Inv :=
    Transition.run_invariant (fun _ _ _ h hok hstep => h.step hok hstep) hinv (hrest s hbefore)
      hafter
  constructor
  · intro r hr hstatus
    have hkeep : ∀ (s : OutboxState) (a : OutboxAction) (next : OutboxState),
        IsSent s.events r.transactionId → s.reportsInTime a = true → s.step a = some next →
          IsSent next.events r.transactionId :=
      fun _ _ _ hsent hok hstep => sent_kept hok hstep hsent
    exact Transition.run_invariant hkeep ⟨r, hr, rfl, hstatus⟩ (hrest s hbefore) hafter
  · intro transactionId v w hv hw
    exact hfinal.exclusive hv hw

/-! ## Two runs -/

namespace OutboxExample

def usage : BillingUsageEvent := .enqueued "t1" 1 "sms" 8300 0 0

def outbox : UsageTable := Table.empty.insert usage (by decide)

/-- The first flush waits past its lease while the second one claims and sends the event. -/
def sentBySecond : List OutboxAction :=
  [.start 1, .load 1 true, .claim 1 .done, .tick 61, .start 2, .load 2 true, .claim 2 .done,
    .answer 2 none, .mark 2 61 .done]

/-- The request of the first flush times out. -/
def failedByFirst : List OutboxAction := [.answer 1 (some "timeout"), .mark 1 62 .done]

/-- The request of the first flush succeeds after all. -/
def sentByFirst : List OutboxAction := [.tick 62, .answer 1 none, .mark 1 62 .done]

def reached (s : OutboxState) (actions : List OutboxAction) : OutboxState :=
  Transition.final OutboxState.step s actions

def between : OutboxState := reached (OutboxState.initial 0 outbox) sentBySecond

end OutboxExample

open OutboxExample in
theorem usage_outbox_law_late_answer : between.OutboxLaw (reached between sentByFirst) :=
  @usage_outbox_law 0 outbox sentBySecond sentByFirst _ _ (by decide +kernel)
    (Transition.run_eq_final (by decide +kernel)) (Transition.run_eq_final (by decide +kernel))

open OutboxExample in
/-- A failure that is reported after another flush sent the event makes it due again. -/
theorem usage_outbox_law_fails_after_late_failure :
    ¬ ∀ (clock : Int) (events : UsageTable) (before after : List OutboxAction)
      (s final : OutboxState),
      Transition.run OutboxState.step (OutboxState.initial clock events) before = some s →
      Transition.run OutboxState.step s after = some final → s.OutboxLaw final := by
  intro law
  have hlaw : between.OutboxLaw (reached between (.tick 62 :: failedByFirst)) :=
    law 0 outbox sentBySecond _ _ _ (Transition.run_eq_final (by decide +kernel))
      (Transition.run_eq_final (by decide +kernel))
  have hsent : ∃ r ∈ between.events.rows, r.status = .sent := by decide +kernel
  have hnone : ∀ r ∈ (reached between (.tick 62 :: failedByFirst)).events.rows,
      r.status ≠ .sent := by decide +kernel
  obtain ⟨r, hr, hstatus⟩ := hsent
  obtain ⟨r', hr', _, hstatus'⟩ := hlaw.sent r hr hstatus
  exact hnone r' hr' hstatus'

end Lightfriend.Billing
