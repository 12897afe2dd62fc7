import Lightfriend.Core.Database
import Lightfriend.Core.Lease
import Lightfriend.Core.Machine
import Lightfriend.Core.Table
import Lightfriend.Core.Transition

/-! # Claiming a billing webhook

`claim_webhook` is up to three statements: an insert, a read and an update of a
row that is not processed and whose lease has ended. `complete_webhook` and
`fail_webhook` ask for a row in `processing`, whoever put it there. A handler
reads the clock once and may wait before each of its statements.
-/

namespace Lightfriend.Billing

/-! ## The rows -/

inductive WebhookStatus
  | processing
  | processed
  | failed
deriving DecidableEq, Repr

structure BillingWebhookEvent where
  eventId : String
  eventType : String
  receivedAt : Int
  status : WebhookStatus
  attempts : Int
  leaseUntil : Option Int
  processedAt : Option Int
  lastError : Option String
deriving DecidableEq, Repr

abbrev WebhookTable : Type := Table BillingWebhookEvent String BillingWebhookEvent.eventId

namespace BillingWebhookEvent

/-- The row a first delivery inserts. -/
def claimed (eventId eventType : String) (now leaseUntil : Int) : BillingWebhookEvent where
  eventId := eventId
  eventType := eventType
  receivedAt := now
  status := .processing
  attempts := 1
  leaseUntil := some leaseUntil
  processedAt := none
  lastError := none

/-- The filter of the takeover. -/
def claimable (eventId : String) (now : Int) (r : BillingWebhookEvent) : Bool :=
  r.eventId = eventId && r.status ≠ .processed &&
    match r.leaseUntil with
    | none => true
    | some ends => ends ≤ now

def reclaim (eventType : String) (leaseUntil : Int) (r : BillingWebhookEvent) :
    BillingWebhookEvent :=
  { r with
    status := .processing
    eventType := eventType
    attempts := r.attempts + 1
    leaseUntil := some leaseUntil
    lastError := none }

/-- The filter of both final updates. -/
def inProcess (eventId : String) (r : BillingWebhookEvent) : Bool :=
  r.eventId = eventId && r.status = .processing

def complete (now : Int) (r : BillingWebhookEvent) : BillingWebhookEvent :=
  { r with status := .processed, processedAt := some now, leaseUntil := none, lastError := none }

def fail (errorCode : String) (r : BillingWebhookEvent) : BillingWebhookEvent :=
  { r with status := .failed, leaseUntil := none, lastError := some errorCode }

end BillingWebhookEvent

/-! ## The handlers -/

/-- The statement a handler is about to run, or that it was told `Claimed`. -/
inductive ClaimStage
  | inserting
  | reading
  | updating
  | claimed
deriving DecidableEq, Repr

structure WebhookHandler where
  id : Nat
  eventId : String
  eventType : String
  now : Int
  leaseUntil : Int
  stage : ClaimStage
deriving DecidableEq, Repr

abbrev Handlers : Type := Table WebhookHandler Nat WebhookHandler.id

/-- How a handler ends its claim. -/
inductive WebhookResult
  | complete
  | fail (errorCode : String)
deriving DecidableEq, Repr

def WebhookResult.set (now : Int) : WebhookResult → BillingWebhookEvent → BillingWebhookEvent
  | complete => BillingWebhookEvent.complete now
  | fail errorCode => BillingWebhookEvent.fail errorCode

theorem WebhookResult.set_eventId (now : Int) (result : WebhookResult) (r : BillingWebhookEvent) :
    (result.set now r).eventId = r.eventId := by
  cases result <;> rfl

structure WebhookState where
  clock : Int
  events : WebhookTable
  handlers : Handlers
  /-- The handlers that took a record, the newest first. No code reads it. -/
  takers : List (String × Nat)

inductive WebhookAction
  | tick (now : Int)
  | deliver (id : Nat) (eventId eventType : String) (leaseSeconds : Int)
  | insert (id : Nat) (fate : StatementFate)
  | read (id : Nat) (ok : Bool)
  | update (id : Nat) (fate : StatementFate)
  | finish (id : Nat) (now : Int) (result : WebhookResult) (fate : StatementFate)
  | crash (id : Nat)
deriving DecidableEq, Repr

namespace WebhookState

def setStage (s : WebhookState) (id : Nat) (stage : ClaimStage) : Handlers :=
  s.handlers.updateWhere (fun h => h.id = id) (fun h => { h with stage := stage }) (fun _ => rfl)

def forget (s : WebhookState) (id : Nat) : Handlers := s.handlers.deleteWhere (fun h => h.id = id)

/-- The handler that took the record last. -/
def taker (s : WebhookState) (eventId : String) : Option Nat := Lease.lastTaker s.takers eventId

/-- The history after a statement that took the record of `h` or not. -/
def taken (s : WebhookState) (h : WebhookHandler) (took : Bool) (fate : StatementFate) :
    List (String × Nat) :=
  if took then fate.after s.takers ((h.eventId, h.id) :: s.takers) else s.takers

/-- A handler is never started under the number of an earlier one. -/
def deliver (s : WebhookState) (id : Nat) (eventId eventType : String) (leaseSeconds : Int) :
    Option WebhookState :=
  if hfree : ¬ s.handlers.HasKey id then
    if s.takers.all (fun t => t.2 ≠ id) then
      some { s with
        handlers := s.handlers.insert
          ⟨id, eventId, eventType, s.clock, saturatingAdd s.clock leaseSeconds, .inserting⟩ hfree }
    else none
  else none

def insert (s : WebhookState) (h : WebhookHandler) (fate : StatementFate) : Option WebhookState :=
  match h.stage with
  | .inserting =>
      let inserted : Bool := !s.events.HasKey h.eventId
      some { s with
        events := fate.after s.events (s.events.insertOrIgnore
          (BillingWebhookEvent.claimed h.eventId h.eventType h.now h.leaseUntil))
        takers := s.taken h inserted fate
        handlers :=
          match fate.answer inserted with
          | some true => s.setStage h.id .claimed
          | some false => s.setStage h.id .reading
          | none => s.forget h.id }
  | _ => none

def read (s : WebhookState) (h : WebhookHandler) (ok : Bool) : Option WebhookState :=
  match h.stage with
  | .reading =>
      some { s with
        handlers :=
          match s.events.find? h.eventId with
          | some r =>
              if ok && r.status ≠ .processed then s.setStage h.id .updating else s.forget h.id
          | none => s.forget h.id }
  | _ => none

def update (s : WebhookState) (h : WebhookHandler) (fate : StatementFate) : Option WebhookState :=
  match h.stage with
  | .updating =>
      let affected : Bool := s.events.rows.any (BillingWebhookEvent.claimable h.eventId h.now)
      some { s with
        events := fate.after s.events (s.events.updateWhere
          (BillingWebhookEvent.claimable h.eventId h.now)
          (BillingWebhookEvent.reclaim h.eventType h.leaseUntil) (fun _ => rfl))
        takers := s.taken h affected fate
        handlers :=
          match fate.answer affected with
          | some true => s.setStage h.id .claimed
          | _ => s.forget h.id }
  | _ => none

def finish (s : WebhookState) (h : WebhookHandler) (now : Int) (result : WebhookResult)
    (fate : StatementFate) : Option WebhookState :=
  match h.stage with
  | .claimed =>
      if now ≤ s.clock then
        some { s with
          events := fate.after s.events (s.events.updateWhere
            (BillingWebhookEvent.inProcess h.eventId) (result.set now) (result.set_eventId now))
          handlers := s.forget h.id }
      else none
  | _ => none

def step (s : WebhookState) : WebhookAction → Option WebhookState
  | .tick now => if s.clock ≤ now then some { s with clock := now } else none
  | .deliver id eventId eventType leaseSeconds => s.deliver id eventId eventType leaseSeconds
  | .insert id fate => (s.handlers.find? id).bind (fun h => s.insert h fate)
  | .read id ok => (s.handlers.find? id).bind (fun h => s.read h ok)
  | .update id fate => (s.handlers.find? id).bind (fun h => s.update h fate)
  | .finish id now result fate =>
      (s.handlers.find? id).bind (fun h => s.finish h now result fate)
  | .crash id => some { s with handlers := s.forget id }

/-- No handler runs yet; earlier deliveries may have left rows. -/
def start (clock : Int) (events : WebhookTable) : WebhookState :=
  ⟨clock, events, Table.empty, []⟩

/-! ## The law -/

/-- `h` was told that it claimed its event, and the claim has not run out. -/
def Holds (s : WebhookState) (h : WebhookHandler) : Prop :=
  h ∈ s.handlers ∧ h.stage = .claimed ∧ s.clock < h.leaseUntil

/-- The step ends the claim of the handler. -/
def finishes (id : Nat) : WebhookAction → Bool
  | .finish id' _ _ _ => id' = id
  | _ => false

/-- What has to hold of a step: at most one handler holds a claim afterwards; a processed row
stays as it is and is claimed by nobody; and the end of a claim that was taken over leaves the
rows alone. -/
structure ClaimLaw (s : WebhookState) (a : WebhookAction) (next : WebhookState) : Prop where
  exclusive : ∀ g h, next.Holds g → next.Holds h → g.eventId = h.eventId → g.id = h.id
  processed : ∀ r ∈ s.events, r.status = .processed → r ∈ next.events ∧
    ∀ h ∈ next.handlers, h.eventId = r.eventId → h.stage = .claimed → h ∈ s.handlers
  superseded : ∀ h ∈ s.handlers, finishes h.id a = true → s.taker h.eventId ≠ some h.id →
    next.events = s.events

/-- A handler ends its claim while it is the last to have taken the record, or finds nobody
processing the event. -/
def endsOwnClaim (s : WebhookState) : WebhookAction → Bool
  | .finish id _ _ _ =>
      match s.handlers.find? id with
      | none => true
      | some h => s.taker h.eventId = some id ||
          !s.events.rows.any (BillingWebhookEvent.inProcess h.eventId)
  | _ => true

/-! ## The record and the claims on it -/

/-- The handler that took the record last and the end of its lease, while it is processing. -/
def record (s : WebhookState) (eventId : String) : Option (Nat × Int) :=
  match s.events.find? eventId, s.taker eventId with
  | some r, some id => if r.status = .processing then r.leaseUntil.map (fun ends => (id, ends)) else none
  | _, _ => none

def claims (s : WebhookState) (eventId : String) (id : Nat) (ends : Int) : Prop :=
  ∃ h ∈ s.handlers, h.eventId = eventId ∧ h.id = id ∧ h.stage = .claimed ∧ h.leaseUntil = ends

structure Inv (s : WebhookState) : Prop where
  recorded : ∀ eventId, Lease.Recorded s.clock (s.record eventId) (s.claims eventId)
  timely : ∀ h ∈ s.handlers, h.now ≤ s.clock

theorem record_eq_some {s : WebhookState} {eventId : String} {id : Nat} {ends : Int}
    (h : s.record eventId = some (id, ends)) :
    ∃ r ∈ s.events, r.eventId = eventId ∧ r.status = .processing ∧ r.leaseUntil = some ends ∧
      s.taker eventId = some id := by
  unfold record at h
  split at h
  next r id' hrow htaker =>
    obtain ⟨hmem, hid⟩ := Table.find?_eq_some_iff.mp hrow
    split at h
    next hstatus =>
      obtain ⟨ends', hends, heq⟩ := Option.map_eq_some_iff.mp h
      cases heq
      exact ⟨r, hmem, hid, hstatus, hends, htaker⟩
    next => cases h
  next => cases h

theorem record_congr {s next : WebhookState} {eventId : String}
    (hrow : next.events.find? eventId = s.events.find? eventId)
    (htaker : next.taker eventId = s.taker eventId) : next.record eventId = s.record eventId := by
  unfold record
  rw [hrow, htaker]

/-- A row in process is on record for the handler that took it last. -/
theorem record_of_taken {s : WebhookState} {eventId : String} {r : BillingWebhookEvent} {id : Nat}
    {ends : Int} (hrow : s.events.find? eventId = some r) (hstatus : r.status = .processing)
    (hends : r.leaseUntil = some ends) (htaker : s.taker eventId = some id) :
    s.record eventId = some (id, ends) := by
  unfold record
  rw [hrow, htaker]
  simp only [hstatus, if_true, hends, Option.map_some]

theorem taker_cons {s next : WebhookState} {h : WebhookHandler}
    (hnext : next.takers = (h.eventId, h.id) :: s.takers) (eventId : String) :
    next.taker eventId = if h.eventId = eventId then some h.id else s.taker eventId := by
  unfold taker
  rw [hnext]
  exact Lease.lastTaker_cons s.takers h.eventId eventId h.id

theorem mem_setStage {s : WebhookState} {id : Nat} {stage : ClaimStage} {h : WebhookHandler} :
    h ∈ s.setStage id stage ↔
      ∃ old ∈ s.handlers, h = if old.id = id then { old with stage := stage } else old := by
  unfold setStage
  simp [Table.mem_updateWhere]

/-- Only the stage that is set makes a handler claimed. -/
theorem mem_of_setStage {s : WebhookState} {id : Nat} {stage : ClaimStage} {h : WebhookHandler}
    (hne : stage ≠ .claimed) (hclaimed : h.stage = .claimed) (hmem : h ∈ s.setStage id stage) :
    h ∈ s.handlers := by
  rw [mem_setStage] at hmem
  obtain ⟨old, hold, rfl⟩ := hmem
  by_cases hid : old.id = id
  · rw [if_pos hid] at hclaimed
    exact absurd hclaimed hne
  · rw [if_neg hid]
    exact hold

/-- A handler after one has been claimed is that one or an unchanged one. -/
theorem mem_setStage_claimed {s : WebhookState} {holder h : WebhookHandler}
    (hholder : holder ∈ s.handlers) (hmem : h ∈ s.setStage holder.id .claimed) :
    h ∈ s.handlers ∨ h.eventId = holder.eventId := by
  rw [mem_setStage] at hmem
  obtain ⟨old, hold, rfl⟩ := hmem
  by_cases hid : old.id = holder.id
  · rw [if_pos hid, Table.eq_of_key_eq hold hholder hid]
    exact Or.inr rfl
  · rw [if_neg hid]
    exact Or.inl hold

theorem mem_forget {s : WebhookState} {id : Nat} {h : WebhookHandler} :
    h ∈ s.forget id ↔ h ∈ s.handlers ∧ h.id ≠ id := by
  unfold forget
  simp

theorem timely_setStage {s : WebhookState} (hinv : s.Inv) (id : Nat) (stage : ClaimStage) :
    ∀ h ∈ s.setStage id stage, h.now ≤ s.clock := by
  intro h hmem
  rw [mem_setStage] at hmem
  obtain ⟨old, hold, rfl⟩ := hmem
  have hnow := hinv.timely old hold
  split <;> exact hnow

theorem timely_forget {s : WebhookState} (hinv : s.Inv) (id : Nat) :
    ∀ h ∈ s.forget id, h.now ≤ s.clock :=
  fun h hmem => hinv.timely h (mem_forget.1 hmem).1

theorem claims_forget {s next : WebhookState} {id : Nat} (hnext : next.handlers = s.forget id)
    {eventId : String} {other : Nat} {ends : Int} (h : next.claims eventId other ends) :
    s.claims eventId other ends ∧ other ≠ id := by
  obtain ⟨holder, hmem, hevent, rfl, hstage, hends⟩ := h
  rw [hnext, mem_forget] at hmem
  exact ⟨⟨holder, hmem.1, hevent, rfl, hstage, hends⟩, hmem.2⟩

theorem claims_setStage {s next : WebhookState} {h : WebhookHandler} (hmem : h ∈ s.handlers)
    {stage : ClaimStage} (hnext : next.handlers = s.setStage h.id stage) {eventId : String}
    {other : Nat} {ends : Int} (hclaim : next.claims eventId other ends) :
    (s.claims eventId other ends ∧ other ≠ h.id) ∨
      (stage = .claimed ∧ eventId = h.eventId ∧ other = h.id ∧ ends = h.leaseUntil) := by
  obtain ⟨holder, hholder, hevent, rfl, hstage, hends⟩ := hclaim
  rw [hnext, mem_setStage] at hholder
  obtain ⟨old, hold, rfl⟩ := hholder
  by_cases hsame : old.id = h.id
  · have heq : old = h := Table.eq_of_key_eq hold hmem hsame
    subst heq
    rw [if_pos rfl] at hevent hstage hends ⊢
    exact Or.inr ⟨hstage, hevent.symm, rfl, hends.symm⟩
  · rw [if_neg hsame] at hevent hstage hends ⊢
    exact Or.inl ⟨⟨old, hold, hevent, rfl, hstage, hends⟩, hsame⟩

/-! ## What the statements leave on record -/

section Statements

variable {s : WebhookState} {h : WebhookHandler}

/-- The record of `h`'s event is its own, and no other changed. -/
def TookRecord (s next : WebhookState) (h : WebhookHandler) : Prop :=
  ∀ eventId, next.record eventId =
    if h.eventId = eventId then some (h.id, h.leaseUntil) else s.record eventId

theorem insert_takes {next : WebhookState} (hfree : ¬ s.events.HasKey h.eventId)
    (hevents : next.events = s.events.insertOrIgnore
      (BillingWebhookEvent.claimed h.eventId h.eventType h.now h.leaseUntil))
    (htakers : next.takers = (h.eventId, h.id) :: s.takers) : TookRecord s next h := by
  intro eventId
  have hrow : ∀ e, next.events.find? e =
      if h.eventId = e then some ((s.events.find? e).getD
        (BillingWebhookEvent.claimed h.eventId h.eventType h.now h.leaseUntil))
      else s.events.find? e := by
    intro e
    rw [hevents]
    exact Table.find?_insertOrIgnore
  split
  next heq =>
    subst heq
    have hnone : s.events.find? h.eventId = none :=
      Table.find?_eq_none_iff.mpr (fun r hr hid => hfree (Table.hasKey_iff.mpr ⟨r, hr, hid⟩))
    have hself := hrow h.eventId
    rw [if_pos rfl, hnone, Option.getD_none] at hself
    exact record_of_taken hself rfl rfl ((taker_cons htakers h.eventId).trans (if_pos rfl))
  next hne =>
    refine record_congr ?_ ?_
    · rw [hrow, if_neg hne]
    · rw [taker_cons htakers, if_neg hne]

theorem claimable_spec {eventId : String} {now : Int} {r : BillingWebhookEvent}
    (h : BillingWebhookEvent.claimable eventId now r = true) :
    r.eventId = eventId ∧ r.status ≠ .processed ∧ ∀ ends, r.leaseUntil = some ends → ends ≤ now := by
  simp only [BillingWebhookEvent.claimable, Bool.and_eq_true, decide_eq_true_eq] at h
  obtain ⟨⟨hid, hstatus⟩, hlease⟩ := h
  refine ⟨hid, by simpa using hstatus, ?_⟩
  intro ends hends
  rw [hends] at hlease
  simpa using hlease

theorem update_takes {next : WebhookState} {r : BillingWebhookEvent} (hr : r ∈ s.events)
    (hclaimable : BillingWebhookEvent.claimable h.eventId h.now r = true)
    (hevents : next.events = s.events.updateWhere (BillingWebhookEvent.claimable h.eventId h.now)
      (BillingWebhookEvent.reclaim h.eventType h.leaseUntil) (fun _ => rfl))
    (htakers : next.takers = (h.eventId, h.id) :: s.takers) : TookRecord s next h := by
  intro eventId
  have hrow : ∀ e, next.events.find? e = (s.events.find? e).map (fun r =>
      if BillingWebhookEvent.claimable h.eventId h.now r then
        BillingWebhookEvent.reclaim h.eventType h.leaseUntil r else r) := by
    intro e
    rw [hevents]
    exact Table.find?_updateWhere
  obtain ⟨hid, _, _⟩ := claimable_spec hclaimable
  split
  next heq =>
    subst heq
    have hself := hrow h.eventId
    rw [Table.find?_eq_some_iff.mpr ⟨hr, hid⟩, Option.map_some, if_pos hclaimable] at hself
    exact record_of_taken hself rfl rfl ((taker_cons htakers h.eventId).trans (if_pos rfl))
  next hne =>
    refine record_congr ?_ ?_
    · rw [hrow]
      cases hfind : s.events.find? eventId with
      | none => rfl
      | some other =>
          have hother : other.eventId = eventId := (Table.find?_eq_some_iff.mp hfind).2
          have hnot : BillingWebhookEvent.claimable h.eventId h.now other = false := by
            rw [Bool.eq_false_iff]
            intro hc
            exact hne ((claimable_spec hc).1.symm.trans hother)
          rw [Option.map_some, hnot]
          rfl
    · rw [taker_cons htakers, if_neg hne]

/-- The final update leaves no record of the event, and the other records alone. -/
theorem record_finish (s : WebhookState) {next : WebhookState} {now : Int} {result : WebhookResult}
    (hevents : next.events = s.events.updateWhere (BillingWebhookEvent.inProcess h.eventId)
      (result.set now) (result.set_eventId now)) (htakers : next.takers = s.takers)
    (eventId : String) :
    next.record eventId = if h.eventId = eventId then none else s.record eventId := by
  have hrow : next.events.find? eventId = (s.events.find? eventId).map (fun r =>
      if BillingWebhookEvent.inProcess h.eventId r then result.set now r else r) := by
    rw [hevents]
    exact Table.find?_updateWhere
  have htaker : next.taker eventId = s.taker eventId := by
    unfold taker
    rw [htakers]
  unfold record
  rw [hrow, htaker]
  cases hfind : s.events.find? eventId with
  | none => simp
  | some r =>
      have hid : r.eventId = eventId := (Table.find?_eq_some_iff.mp hfind).2
      rw [Option.map_some]
      by_cases heq : h.eventId = eventId
      · rw [if_pos heq]
        by_cases hstatus : r.status = .processing
        · have hprocess : BillingWebhookEvent.inProcess h.eventId r = true := by
            simp [BillingWebhookEvent.inProcess, hid, heq, hstatus]
          rw [if_pos hprocess]
          cases s.taker eventId with
          | none => rfl
          | some id =>
              cases result <;> rfl
        · have hprocess : ¬ BillingWebhookEvent.inProcess h.eventId r = true := by
            simp [BillingWebhookEvent.inProcess, hstatus]
          rw [if_neg hprocess]
          cases s.taker eventId with
          | none => rfl
          | some id => exact if_neg hstatus
      · have hprocess : ¬ BillingWebhookEvent.inProcess h.eventId r = true := by
          simp [BillingWebhookEvent.inProcess, hid, Ne.symm heq]
        rw [if_neg hprocess, if_neg heq]

end Statements

/-! ## What a step keeps -/

section Steps

variable {s next : WebhookState} {h : WebhookHandler}

theorem Inv.tick (hinv : s.Inv) {now : Int} (hnow : s.clock ≤ now) :
    Inv { s with clock := now } where
  recorded eventId := (hinv.recorded eventId).tick hnow
  timely holder hmem := (hinv.timely holder hmem).trans hnow

/-- A step that leaves the records alone, and no claim that was not there. -/
theorem Inv.unchanged (hinv : s.Inv) (hclock : next.clock = s.clock)
    (hrecord : ∀ eventId, next.record eventId = s.record eventId)
    (hclaims : ∀ eventId id ends, next.claims eventId id ends → s.claims eventId id ends)
    (htimely : ∀ h ∈ next.handlers, h.now ≤ s.clock) : next.Inv where
  recorded eventId := by
    rw [hclock, hrecord]
    exact (hinv.recorded eventId).forget (hclaims eventId)
  timely holder hmem := hclock ▸ htimely holder hmem

theorem Inv.forgotten (hinv : s.Inv) (hclock : next.clock = s.clock)
    (hrecord : ∀ eventId, next.record eventId = s.record eventId)
    (hhandlers : next.handlers = s.forget h.id) : next.Inv := by
  refine hinv.unchanged hclock hrecord (fun _ _ _ hclaim => (claims_forget hhandlers hclaim).1) ?_
  rw [hhandlers]
  exact timely_forget hinv h.id

theorem Inv.moved (hinv : s.Inv) (hmem : h ∈ s.handlers) (stage : ClaimStage)
    (hstage : stage ≠ .claimed) (hclock : next.clock = s.clock)
    (hrecord : ∀ eventId, next.record eventId = s.record eventId)
    (hhandlers : next.handlers = s.setStage h.id stage) : next.Inv := by
  refine hinv.unchanged hclock hrecord (fun eventId id ends hclaim => ?_) ?_
  · rcases claims_setStage hmem hhandlers hclaim with ⟨hold, _⟩ | ⟨heq, _⟩
    · exact hold
    · exact absurd heq hstage
  · rw [hhandlers]
    exact timely_setStage hinv h.id stage

/-- The record was free for `h`, and is its own now, whether it was told so or not. -/
theorem Inv.took (hinv : s.Inv) (hmem : h ∈ s.handlers) (hclock : next.clock = s.clock)
    (hfree : Lease.FreeFor h.now (s.record h.eventId) h.id) (hrecord : TookRecord s next h)
    (hhandlers : next.handlers = s.setStage h.id .claimed ∨ next.handlers = s.forget h.id) :
    next.Inv := by
  have hclaims : ∀ eventId id ends, next.claims eventId id ends →
      (s.claims eventId id ends ∧ id ≠ h.id) ∨
        (eventId = h.eventId ∧ id = h.id ∧ ends = h.leaseUntil) := by
    intro eventId id ends hclaim
    rcases hhandlers with hset | hforget
    · rcases claims_setStage hmem hset hclaim with hold | ⟨_, hown⟩
      · exact Or.inl hold
      · exact Or.inr hown
    · exact Or.inl (claims_forget hforget hclaim)
  constructor
  · intro eventId
    rw [hclock, hrecord]
    by_cases heq : h.eventId = eventId
    · rw [if_pos heq]
      subst heq
      refine (hinv.recorded h.eventId).take (hinv.timely h hmem) hfree ?_ ?_
      · intro ends hclaim
        rcases hclaims _ _ _ hclaim with ⟨_, hne⟩ | ⟨_, _, rfl⟩
        · exact absurd rfl hne
        · exact le_refl _
      · intro id ends hclaim hne
        rcases hclaims _ _ _ hclaim with ⟨hold, _⟩ | ⟨_, rfl, _⟩
        · exact hold
        · exact absurd rfl hne
    · rw [if_neg heq]
      refine (hinv.recorded eventId).forget (fun id ends hclaim => ?_)
      rcases hclaims _ _ _ hclaim with ⟨hold, _⟩ | ⟨rfl, _⟩
      · exact hold
      · exact absurd rfl heq
  · intro holder hholder
    rw [hclock]
    rcases hhandlers with hset | hforget
    · exact timely_setStage hinv h.id .claimed holder (hset ▸ hholder)
    · exact timely_forget hinv h.id holder (hforget ▸ hholder)

theorem record_of_same {eventId : String} (hevents : next.events = s.events)
    (htakers : next.takers = s.takers) : next.record eventId = s.record eventId :=
  record_congr (by rw [hevents]) (by unfold taker; rw [htakers])

theorem Inv.insert (hinv : s.Inv) (hmem : h ∈ s.handlers) {fate : StatementFate}
    (hstep : s.insert h fate = some next) : next.Inv := by
  simp only [WebhookState.insert] at hstep
  split at hstep
  next hstage =>
    cases hstep
    by_cases hused : s.events.HasKey h.eventId
    · -- The insert does nothing.
      have hsame : s.events.insertOrIgnore
          (BillingWebhookEvent.claimed h.eventId h.eventType h.now h.leaseUntil) = s.events :=
        dif_pos hused
      have hrecord : ∀ eventId handlers, WebhookState.record ⟨s.clock,
          fate.after s.events (s.events.insertOrIgnore
            (BillingWebhookEvent.claimed h.eventId h.eventType h.now h.leaseUntil)), handlers,
          s.taken h (!decide (s.events.HasKey h.eventId)) fate⟩ eventId = s.record eventId := by
        intro eventId handlers
        refine record_of_same ?_ ?_
        · rw [hsame]
          cases fate <;> rfl
        · simp [taken, hused]
      cases fate with
      | done =>
          refine hinv.moved hmem .reading (by simp) rfl (fun e => hrecord e _) ?_
          simp [StatementFate.answer, hused]
      | refused => exact hinv.forgotten rfl (fun e => hrecord e _) rfl
      | lost => exact hinv.forgotten rfl (fun e => hrecord e _) rfl
    · have hfree : Lease.FreeFor h.now (s.record h.eventId) h.id := by
        intro other ends hrecord
        obtain ⟨r, hr, hid, _⟩ := record_eq_some hrecord
        exact absurd (Table.hasKey_iff.mpr ⟨r, hr, hid⟩) hused
      cases fate with
      | refused =>
          refine hinv.forgotten rfl (fun e => record_of_same rfl ?_) rfl
          simp [taken, StatementFate.after]
      | done =>
          refine hinv.took hmem rfl hfree (insert_takes hused rfl ?_) (Or.inl ?_)
          · simp [taken, hused, StatementFate.after]
          · simp [StatementFate.answer, hused]
      | lost =>
          refine hinv.took hmem rfl hfree (insert_takes hused rfl ?_) (Or.inr rfl)
          simp [taken, hused, StatementFate.after]
  next => cases hstep

theorem Inv.read (hinv : s.Inv) (hmem : h ∈ s.handlers) {ok : Bool}
    (hstep : s.read h ok = some next) : next.Inv := by
  simp only [WebhookState.read] at hstep
  split at hstep
  next hstage =>
    cases hstep
    split
    next r hfind =>
      split
      next => exact hinv.moved hmem .updating (by simp) rfl (fun _ => rfl) rfl
      next => exact hinv.forgotten rfl (fun _ => rfl) rfl
    next => exact hinv.forgotten rfl (fun _ => rfl) rfl
  next => cases hstep

theorem Inv.update (hinv : s.Inv) (hmem : h ∈ s.handlers) {fate : StatementFate}
    (hstep : s.update h fate = some next) : next.Inv := by
  simp only [WebhookState.update] at hstep
  split at hstep
  next hstage =>
    cases hstep
    cases hany : s.events.rows.any (BillingWebhookEvent.claimable h.eventId h.now) with
    | false =>
        have hsame : s.events.updateWhere (BillingWebhookEvent.claimable h.eventId h.now)
            (BillingWebhookEvent.reclaim h.eventType h.leaseUntil) (fun _ => rfl) = s.events :=
          Table.updateWhere_of_none (fun r hr => Bool.eq_false_iff.mpr (List.any_eq_false.mp hany r hr))
        refine hinv.forgotten (h := h) rfl (fun e => record_of_same ?_ ?_) ?_
        · rw [hsame]
          cases fate <;> rfl
        · simp [taken]
        · cases fate <;> simp [StatementFate.answer]
    | true =>
        obtain ⟨r, hr, hclaimable⟩ := List.any_eq_true.mp hany
        obtain ⟨hid, _, hlease⟩ := claimable_spec hclaimable
        have hfree : Lease.FreeFor h.now (s.record h.eventId) h.id := by
          intro other ends hrecord
          obtain ⟨r', hr', hid', _, hends, _⟩ := record_eq_some hrecord
          rw [Table.eq_of_key_eq hr' hr (hid'.trans hid.symm)] at hends
          exact Or.inl (hlease ends hends)
        cases fate with
        | refused =>
            refine hinv.forgotten rfl (fun e => record_of_same rfl ?_) rfl
            simp [taken, StatementFate.after]
        | done =>
            refine hinv.took hmem rfl hfree (update_takes hr hclaimable rfl ?_) (Or.inl ?_)
            · simp [taken, StatementFate.after]
            · simp [StatementFate.answer]
        | lost =>
            refine hinv.took hmem rfl hfree (update_takes hr hclaimable rfl ?_) (Or.inr ?_)
            · simp [taken, StatementFate.after]
            · simp [StatementFate.answer]
  next => cases hstep

/-- The rows while nobody processes the event. -/
theorem finish_nothing {eventId : String} {now : Int} {result : WebhookResult}
    (hnone : s.events.rows.any (BillingWebhookEvent.inProcess eventId) = false) :
    s.events.updateWhere (BillingWebhookEvent.inProcess eventId) (result.set now)
      (result.set_eventId now) = s.events :=
  Table.updateWhere_of_none (fun r hr => Bool.eq_false_iff.mpr (List.any_eq_false.mp hnone r hr))

theorem Inv.finish (hinv : s.Inv) {now : Int} {result : WebhookResult} {fate : StatementFate}
    (hown : s.taker h.eventId = some h.id ∨
      s.events.rows.any (BillingWebhookEvent.inProcess h.eventId) = false)
    (hstep : s.finish h now result fate = some next) : next.Inv := by
  simp only [WebhookState.finish] at hstep
  split at hstep
  next hstage =>
    rw [Option.ite_none_right_eq_some, Option.some.injEq] at hstep
    obtain ⟨_, heq⟩ := hstep
    have hclock : next.clock = s.clock := by rw [← heq]
    have htakers : next.takers = s.takers := by rw [← heq]
    have hhandlers : next.handlers = s.forget h.id := by rw [← heq]
    have hevents : next.events = s.events ∨
        next.events = s.events.updateWhere (BillingWebhookEvent.inProcess h.eventId)
          (result.set now) (result.set_eventId now) := by
      rw [← heq]
      exact fate.after_cases _ _
    rcases hevents with hsame | hupdated
    · exact hinv.forgotten hclock (fun e => record_of_same hsame htakers) hhandlers
    · rcases hown with htaker | hnone
      · refine ⟨fun eventId => ?_, ?_⟩
        · rw [hclock, record_finish s hupdated htakers]
          by_cases hsame : h.eventId = eventId
          · rw [if_pos hsame]
            refine (hinv.recorded eventId).release ?_
              (fun id ends hclaim => claims_forget hhandlers hclaim)
            intro other ends hrecord
            obtain ⟨_, _, _, _, _, hother⟩ := record_eq_some hrecord
            rw [← hsame, htaker] at hother
            exact (Option.some.inj hother).symm
          · rw [if_neg hsame]
            exact (hinv.recorded eventId).forget
              (fun id ends hclaim => (claims_forget hhandlers hclaim).1)
        · rw [hclock, hhandlers]
          exact timely_forget hinv h.id
      · rw [finish_nothing hnone] at hupdated
        exact hinv.forgotten hclock (fun e => record_of_same hupdated htakers) hhandlers
  next => cases hstep

theorem Inv.deliver (hinv : s.Inv) {id : Nat} {eventId eventType : String} {leaseSeconds : Int}
    (hstep : s.deliver id eventId eventType leaseSeconds = some next) : next.Inv := by
  simp only [WebhookState.deliver] at hstep
  split at hstep
  next hfree =>
    rw [Option.ite_none_right_eq_some] at hstep
    obtain ⟨_, heq⟩ := hstep
    cases heq
    refine hinv.unchanged rfl (fun _ => rfl) ?_ ?_
    · intro e other ends hclaim
      obtain ⟨holder, hmem, hevent, hid, hstage, hends⟩ := hclaim
      rcases (Table.mem_insert (h := hfree)).mp hmem with hold | rfl
      · exact ⟨holder, hold, hevent, hid, hstage, hends⟩
      · cases hstage
    · intro holder hmem
      rcases (Table.mem_insert (h := hfree)).mp hmem with hold | rfl
      · exact hinv.timely holder hold
      · exact le_refl _
  next => cases hstep

theorem Inv.step (hinv : s.Inv) {a : WebhookAction} (hown : s.endsOwnClaim a = true)
    (hstep : s.step a = some next) : next.Inv := by
  cases a with
  | tick now =>
      simp only [WebhookState.step, Option.ite_none_right_eq_some, Option.some.injEq] at hstep
      exact hstep.2 ▸ hinv.tick hstep.1
  | deliver id eventId eventType leaseSeconds => exact hinv.deliver hstep
  | insert id fate =>
      obtain ⟨holder, hfind, hinsert⟩ := Option.bind_eq_some_iff.mp hstep
      exact hinv.insert (Table.find?_eq_some_iff.mp hfind).1 hinsert
  | read id ok =>
      obtain ⟨holder, hfind, hread⟩ := Option.bind_eq_some_iff.mp hstep
      exact hinv.read (Table.find?_eq_some_iff.mp hfind).1 hread
  | update id fate =>
      obtain ⟨holder, hfind, hupdate⟩ := Option.bind_eq_some_iff.mp hstep
      exact hinv.update (Table.find?_eq_some_iff.mp hfind).1 hupdate
  | finish id now result fate =>
      obtain ⟨holder, hfind, hfinish⟩ := Option.bind_eq_some_iff.mp hstep
      have hid : holder.id = id := (Table.find?_eq_some_iff.mp hfind).2
      refine hinv.finish ?_ hfinish
      simpa [endsOwnClaim, hfind, hid] using hown
  | crash id =>
      cases hstep
      refine hinv.unchanged rfl (fun _ => rfl) (fun _ _ _ hclaim => (claims_forget rfl hclaim).1) ?_
      exact timely_forget hinv id

/-! ## Processed rows -/

theorem mem_insertOrIgnore_of_mem {t : WebhookTable} {r row : BillingWebhookEvent} (hr : r ∈ t) :
    r ∈ t.insertOrIgnore row :=
  Table.mem_insertOrIgnore.mpr (Or.inl hr)

theorem mem_updateWhere_of_not {t : WebhookTable} {p : BillingWebhookEvent → Bool}
    {set : BillingWebhookEvent → BillingWebhookEvent} {hkey : ∀ r, (set r).eventId = r.eventId}
    {r : BillingWebhookEvent} (hr : r ∈ t) (hp : p r = false) : r ∈ t.updateWhere p set hkey :=
  (Table.mem_updateWhere hkey).mpr ⟨r, hr, by simp [hp]⟩

theorem mem_after {t t' : WebhookTable} {r : BillingWebhookEvent} (hr : r ∈ t) (hr' : r ∈ t')
    (fate : StatementFate) : r ∈ fate.after t t' := by
  cases fate with
  | done => exact hr'
  | refused => exact hr
  | lost => exact hr'

/-- No statement selects a processed row. -/
theorem processed_kept {a : WebhookAction} (hstep : s.step a = some next)
    {r : BillingWebhookEvent} (hr : r ∈ s.events) (hstatus : r.status = .processed) :
    r ∈ next.events := by
  cases a with
  | tick now =>
      simp only [WebhookState.step, Option.ite_none_right_eq_some, Option.some.injEq] at hstep
      exact hstep.2 ▸ hr
  | deliver id eventId eventType leaseSeconds =>
      simp only [WebhookState.step, deliver] at hstep
      split at hstep
      · rw [Option.ite_none_right_eq_some] at hstep
        cases hstep.2
        exact hr
      · cases hstep
  | insert id fate =>
      obtain ⟨holder, _, hinsert⟩ := Option.bind_eq_some_iff.mp hstep
      simp only [WebhookState.insert] at hinsert
      split at hinsert
      · cases hinsert
        exact mem_after hr (mem_insertOrIgnore_of_mem hr) fate
      · cases hinsert
  | read id ok =>
      obtain ⟨holder, _, hread⟩ := Option.bind_eq_some_iff.mp hstep
      simp only [WebhookState.read] at hread
      split at hread
      · cases hread
        exact hr
      · cases hread
  | update id fate =>
      obtain ⟨holder, _, hupdate⟩ := Option.bind_eq_some_iff.mp hstep
      simp only [WebhookState.update] at hupdate
      split at hupdate
      · cases hupdate
        refine mem_after hr (mem_updateWhere_of_not hr ?_) fate
        simp [BillingWebhookEvent.claimable, hstatus]
      · cases hupdate
  | finish id now result fate =>
      obtain ⟨holder, _, hfinish⟩ := Option.bind_eq_some_iff.mp hstep
      simp only [WebhookState.finish] at hfinish
      split at hfinish
      · rw [Option.ite_none_right_eq_some] at hfinish
        cases hfinish.2
        refine mem_after hr (mem_updateWhere_of_not hr ?_) fate
        simp [BillingWebhookEvent.inProcess, hstatus]
      · cases hfinish
  | crash id =>
      cases hstep
      exact hr

/-- A handler that is told `Claimed` was told so before, or has just taken a record that was
free or not processed. -/
theorem claimed_of_step {a : WebhookAction} (hstep : s.step a = some next) {g : WebhookHandler}
    (hg : g ∈ next.handlers) (hclaimed : g.stage = .claimed) :
    g ∈ s.handlers ∨ ¬ s.events.HasKey g.eventId ∨
      ∃ r ∈ s.events, r.eventId = g.eventId ∧ r.status ≠ .processed := by
  cases a with
  | tick now =>
      simp only [WebhookState.step, Option.ite_none_right_eq_some, Option.some.injEq] at hstep
      obtain ⟨_, rfl⟩ := hstep
      exact Or.inl hg
  | deliver id eventId eventType leaseSeconds =>
      simp only [WebhookState.step, deliver] at hstep
      split at hstep
      next hfree =>
        rw [Option.ite_none_right_eq_some] at hstep
        cases hstep.2
        rcases (Table.mem_insert (h := hfree)).mp hg with hold | rfl
        · exact Or.inl hold
        · cases hclaimed
      next => cases hstep
  | insert id fate =>
      obtain ⟨holder, hfind, hinsert⟩ := Option.bind_eq_some_iff.mp hstep
      have hholder := (Table.find?_eq_some_iff.mp hfind).1
      simp only [WebhookState.insert] at hinsert
      split at hinsert
      next =>
        cases hinsert
        simp only at hg
        split at hg
        next heq =>
          obtain ⟨_, hinserted⟩ := StatementFate.answer_eq_some heq
          rcases mem_setStage_claimed hholder hg with hold | hevent
          · exact Or.inl hold
          · exact Or.inr (Or.inl (by rw [hevent]; simpa using hinserted))
        next => exact Or.inl (mem_of_setStage (by simp) hclaimed hg)
        next => exact Or.inl (mem_forget.1 hg).1
      next => cases hinsert
  | read id ok =>
      obtain ⟨holder, hfind, hread⟩ := Option.bind_eq_some_iff.mp hstep
      simp only [WebhookState.read] at hread
      split at hread
      next =>
        cases hread
        simp only at hg
        split at hg
        next =>
          split at hg
          · exact Or.inl (mem_of_setStage (by simp) hclaimed hg)
          · exact Or.inl (mem_forget.1 hg).1
        next => exact Or.inl (mem_forget.1 hg).1
      next => cases hread
  | update id fate =>
      obtain ⟨holder, hfind, hupdate⟩ := Option.bind_eq_some_iff.mp hstep
      have hholder := (Table.find?_eq_some_iff.mp hfind).1
      simp only [WebhookState.update] at hupdate
      split at hupdate
      next =>
        cases hupdate
        simp only at hg
        split at hg
        next heq =>
          obtain ⟨_, haffected⟩ := StatementFate.answer_eq_some heq
          obtain ⟨r, hr, hclaimable⟩ := List.any_eq_true.mp haffected
          obtain ⟨hid, hstatus, _⟩ := claimable_spec hclaimable
          rcases mem_setStage_claimed hholder hg with hold | hevent
          · exact Or.inl hold
          · exact Or.inr (Or.inr ⟨r, hr, hid.trans hevent.symm, hstatus⟩)
        next => exact Or.inl (mem_forget.1 hg).1
      next => cases hupdate
  | finish id now result fate =>
      obtain ⟨holder, _, hfinish⟩ := Option.bind_eq_some_iff.mp hstep
      simp only [WebhookState.finish] at hfinish
      split at hfinish
      · rw [Option.ite_none_right_eq_some] at hfinish
        cases hfinish.2
        exact Or.inl (mem_forget.1 hg).1
      · cases hfinish
  | crash id =>
      cases hstep
      exact Or.inl (mem_forget.1 hg).1

/-! ## The law of a step -/

theorem Inv.exclusive (hinv : s.Inv) {g h : WebhookHandler} (hg : s.Holds g) (hh : s.Holds h)
    (hevent : g.eventId = h.eventId) : g.id = h.id := by
  obtain ⟨hgmem, hgstage, hgends⟩ := hg
  obtain ⟨hhmem, hhstage, hhends⟩ := hh
  have hgclaim : s.claims h.eventId g.id g.leaseUntil := ⟨g, hgmem, hevent, rfl, hgstage, rfl⟩
  have hhclaim : s.claims h.eventId h.id h.leaseUntil := ⟨h, hhmem, rfl, rfl, hhstage, rfl⟩
  exact (hinv.recorded h.eventId).exclusive hgclaim hhclaim hgends hhends

theorem Inv.law (hinv : s.Inv) {a : WebhookAction} (hown : s.endsOwnClaim a = true)
    (hstep : s.step a = some next) : s.ClaimLaw a next where
  exclusive g h := (hinv.step hown hstep).exclusive
  processed := by
    intro r hr hstatus
    refine ⟨processed_kept hstep hr hstatus, ?_⟩
    intro g hg hevent hclaimed
    rcases claimed_of_step hstep hg hclaimed with hold | hfree | ⟨r', hr', hid, hother⟩
    · exact hold
    · exact absurd (Table.hasKey_iff.mpr ⟨r, hr, hevent.symm⟩) hfree
    · rw [Table.eq_of_key_eq hr' hr (hid.trans hevent)] at hother
      exact absurd hstatus hother
  superseded := by
    intro h hmem hfinishes htaker
    cases a with
    | finish id now result fate =>
        have hid : id = h.id := by simpa [finishes] using hfinishes
        subst hid
        have hfind : s.handlers.find? h.id = some h := Table.find?_eq_some_iff.mpr ⟨hmem, rfl⟩
        have hnone : s.events.rows.any (BillingWebhookEvent.inProcess h.eventId) = false := by
          simpa only [endsOwnClaim, hfind, Bool.or_eq_true, decide_eq_true_eq, htaker,
            decide_false, Bool.false_or, Bool.not_eq_true', false_or] using hown
        simp only [WebhookState.step, hfind, Option.bind_some, WebhookState.finish] at hstep
        split at hstep
        next =>
          rw [Option.ite_none_right_eq_some] at hstep
          cases hstep.2
          change fate.after s.events _ = s.events
          rw [finish_nothing hnone]
          cases fate <;> rfl
        next => cases hstep
    | _ => cases hfinishes

end Steps

theorem inv_start (clock : Int) (events : WebhookTable) : (start clock events).Inv where
  recorded eventId := by
    intro id ends hclaim
    obtain ⟨holder, hmem, _⟩ := hclaim
    exact absurd hmem (Table.not_mem_empty _)
  timely holder hmem := absurd hmem (Table.not_mem_empty _)

end WebhookState

open WebhookState in
/-- In every run whose handlers end only their own claims, every step is lawful. -/
theorem webhook_claim_law {clock : Int} {events : WebhookTable} {actions : List WebhookAction}
    {a : WebhookAction} {s next : WebhookState}
    (hown : Transition.Meets WebhookState.step (fun s a => s.endsOwnClaim a = true)
      (WebhookState.start clock events) (actions ++ [a]))
    (hrun : Transition.run WebhookState.step (WebhookState.start clock events) actions = some s)
    (hstep : s.step a = some next) : s.ClaimLaw a next := by
  obtain ⟨hbefore, hlast⟩ := hown.append
  have hinv : s.Inv :=
    Transition.run_invariant (fun _ _ _ h hok hstep => h.step hok hstep)
      (inv_start clock events) hbefore hrun
  exact hinv.law (hlast s hrun).head hstep

/-! ## Two runs -/

namespace WebhookExample

/-- The claim of the first handler runs out, and a second delivery takes the event over. -/
def takenOver : List WebhookAction :=
  [.deliver 1 "e1" "payment_gate.payment_status" 120, .insert 1 .done, .tick 121,
    .deliver 2 "e1" "payment_gate.payment_status" 120, .insert 2 .done, .read 2 true,
    .update 2 .done]

/-- The second handler is done before the first one fails. -/
def late : List WebhookAction := takenOver ++ [.finish 2 121 .complete .done]

def failFirst : WebhookAction := .finish 1 121 (.fail "processing_failed") .done

def reached (actions : List WebhookAction) : WebhookState :=
  Transition.final WebhookState.step (WebhookState.start 0 Table.empty) actions

def after (actions : List WebhookAction) (a : WebhookAction) : WebhookState :=
  ((reached actions).step a).getD (reached actions)

theorem step_eq_after {actions : List WebhookAction} {a : WebhookAction}
    (h : ((reached actions).step a).isSome = true) :
    (reached actions).step a = some (after actions a) := by
  obtain ⟨next, hnext⟩ := Option.isSome_iff_exists.mp h
  rw [after, hnext, Option.getD_some]

end WebhookExample

open WebhookExample in
theorem webhook_claim_law_late_failure :
    (reached late).ClaimLaw failFirst (after late failFirst) :=
  @webhook_claim_law 0 Table.empty late failFirst _ _ (by decide +kernel)
    (Transition.run_eq_final (by decide +kernel)) (step_eq_after (by decide +kernel))

open WebhookExample in
/-- The first handler fails after the takeover: the second handler's row is marked failed. -/
theorem webhook_claim_law_fails_after_takeover :
    ¬ ∀ (clock : Int) (events : WebhookTable) (actions : List WebhookAction) (a : WebhookAction)
      (s next : WebhookState),
      Transition.run WebhookState.step (WebhookState.start clock events) actions = some s →
      s.step a = some next → s.ClaimLaw a next := by
  intro law
  have hlaw : (reached takenOver).ClaimLaw failFirst (after takenOver failFirst) :=
    law 0 Table.empty takenOver failFirst _ _ (Transition.run_eq_final (by decide +kernel))
      (step_eq_after (by decide +kernel))
  have hfirst : ⟨1, "e1", "payment_gate.payment_status", 0, 120, .claimed⟩ ∈
      (reached takenOver).handlers := by decide +kernel
  have hevents := hlaw.superseded _ hfirst (by decide +kernel) (by decide +kernel)
  have hrows : (after takenOver failFirst).events.rows ≠ (reached takenOver).events.rows := by
    decide +kernel
  exact hrows (congrArg Table.rows hevents)

end Lightfriend.Billing
