import Lightfriend.Core.Concurrent
import Lightfriend.Core.Database
import Lightfriend.Core.Machine
import Lightfriend.Core.Table
import Lightfriend.Core.Transition

/-! # Reminders and their claims

A run of the event job leases a batch of due reminders in one transaction,
sends them one after the other and records each outcome on the row of the
event. Users cancel, change and reschedule events meanwhile, and further runs
take over the leases that have ended.
-/

namespace Lightfriend.Ontology

/-! ## The events -/

structure OntEvent where
  id : Int
  userId : Int
  description : String
  remindAt : Option Int
  dueAt : Option Int
  status : String
  reminderAttempts : Int
  reminderNextAttemptAt : Option Int
  reminderLeaseUntil : Option Int
  reminderLastError : Option String
  reminderDeliveredAt : Option Int
  reminderTimezone : Option String
  /-- How often the reminder was claimed, whether the last claim still stands, how often the event
  was changed, and whether it was cancelled. No code reads these. -/
  claims : Nat
  held : Bool
  changes : Nat
  cancelled : Bool
deriving DecidableEq, Repr

abbrev EventTable : Type := Table OntEvent Int (·.id)

namespace OntEvent

def isActive (r : OntEvent) : Bool := r.status = "active"

def isSending (r : OntEvent) : Bool := r.status = "reminder_sending"

/-- Due, and active or under a lease that has ended. -/
def claimable (now : Int) (r : OntEvent) : Bool :=
  r.remindAt.any (· ≤ now) && r.reminderNextAttemptAt.all (· ≤ now) &&
    (r.isActive || (r.isSending && r.reminderLeaseUntil.any (· ≤ now)))

def claim (now leaseSeconds : Int) (r : OntEvent) : OntEvent :=
  { r with
    status := "reminder_sending"
    reminderLeaseUntil := some (saturatingAdd now leaseSeconds)
    reminderAttempts := r.reminderAttempts + 1
    claims := r.claims + 1
    held := true }

def markDelivered (deliveredAt : Int) (r : OntEvent) : OntEvent :=
  { r with
    status := "notified"
    reminderDeliveredAt := some deliveredAt
    reminderLeaseUntil := none
    reminderLastError := none
    held := false }

def retryDelay (attempts : Int) : Int := min (2 ^ (max 1 (min 11 attempts)).toNat) 3600

def releaseForRetry (attempts : Int) (errorCode : String) (now : Int) (r : OntEvent) : OntEvent :=
  { r with
    status := "active"
    reminderNextAttemptAt := some (saturatingAdd now (retryDelay attempts))
    reminderLeaseUntil := none
    reminderLastError := some errorCode
    held := false }

def cancellable (userId : Int) (r : OntEvent) : Bool :=
  r.userId = userId && r.isActive && r.remindAt.isSome

def cancel (r : OntEvent) : OntEvent :=
  { r with
    status := "cancelled"
    reminderNextAttemptAt := none
    reminderLeaseUntil := none
    held := false
    cancelled := true }

/-- A write that makes the event another one than was claimed. -/
def changed (r : OntEvent) : OntEvent := { r with held := false, changes := r.changes + 1 }

def setStatus (status : String) (r : OntEvent) : OntEvent := { r.changed with status := status }

def setSchedule (remindAt dueAt : Option Int) (r : OntEvent) : OntEvent :=
  { r.changed with remindAt := remindAt, dueAt := dueAt, status := "active" }

def resetDelivery (timezone : String) (remindAt : Option Int) (r : OntEvent) : OntEvent :=
  { r.changed with
    reminderTimezone := some timezone
    reminderNextAttemptAt := remindAt
    reminderLeaseUntil := none
    reminderLastError := none
    reminderDeliveredAt := none
    reminderAttempts := 0
    status := "active" }

end OntEvent

/-- A send of the claimed copy, with the row of the event at that moment. -/
structure ReminderSend where
  event : OntEvent
  sentAt : Int
  row : Option OntEvent
deriving DecidableEq, Repr

/-- An outcome that a claimant has recorded, with the row that it was recorded on. -/
structure ReminderOutcome where
  event : OntEvent
  row : OntEvent
deriving DecidableEq, Repr

structure ReminderStore where
  rows : EventTable
  clock : Int
  sends : List ReminderSend
  outcomes : List ReminderOutcome

/-! ## The statements -/

inductive ReminderStatement
  | claimDue (now leaseSeconds : Int) (limit : Nat)
  | send (event : OntEvent)
  | markDelivered (event : OntEvent) (deliveredAt : Int)
  | release (event : OntEvent) (errorCode : String) (now : Int)
  | cancel (userId id : Int)
  | readEvent (userId id : Int)
  | setDescription (userId id : Int) (description : String)
  | setStatus (userId id : Int) (status : String)
  | setSchedule (userId id : Int) (remindAt dueAt : Option Int)
  | resetDelivery (userId id : Int) (timezone : String) (remindAt : Option Int)
deriving DecidableEq, Repr

abbrev ReminderAnswer : ReminderStatement → Type
  | .claimDue _ _ _ => Option (List OntEvent)
  | .send _ => Bool
  | .cancel _ _ => Option Bool
  | .readEvent _ _ => Option OntEvent
  | _ => Bool

structure ReminderInput where
  fate : StatementFate
  /-- The rows that another transaction has locked. -/
  locked : List Int
  delivered : Bool
deriving DecidableEq, Repr

namespace ReminderStore

/-- The ids of `ORDER BY remind_at .. FOR UPDATE SKIP LOCKED LIMIT ..`. -/
def candidates (t : ReminderStore) (now : Int) (limit : Nat) (locked : List Int) : List Int :=
  ((orderBy (fun r s : OntEvent => r.remindAt.getD 0 ≤ s.remindAt.getD 0)
    (t.rows.rows.filter (fun r => r.claimable now && !locked.contains r.id))).take limit).map (·.id)

def update (t : ReminderStore) (p : OntEvent → Bool) (set : OntEvent → OntEvent)
    (hkey : ∀ r, (set r).id = r.id) : ReminderStore :=
  { t with rows := t.rows.updateWhere p set hkey }

def claimAll (t : ReminderStore) (ids : List Int) (now leaseSeconds : Int) : ReminderStore :=
  t.update (fun r => ids.contains r.id) (·.claim now leaseSeconds) (fun _ => rfl)

/-- The row that an outcome of the claimed copy is recorded on. -/
def recordsOn (t : ReminderStore) (event : OntEvent) : Option OntEvent :=
  (t.rows.find? event.id).filter (fun r => r.userId = event.userId && r.isSending)

/-- An outcome is recorded while the event is in `reminder_sending`. -/
def record (t : ReminderStore) (event : OntEvent) (set : OntEvent → OntEvent)
    (hkey : ∀ r, (set r).id = r.id) : ReminderStore :=
  match t.recordsOn event with
  | none => t
  | some row =>
      { t.update (fun r => r.id = event.id) set hkey with
        outcomes := t.outcomes ++ [⟨event, row⟩] }

def updateOwn (t : ReminderStore) (userId id : Int) (set : OntEvent → OntEvent)
    (hkey : ∀ r, (set r).id = r.id) : ReminderStore :=
  t.update (fun r => r.id = id && r.userId = userId) set hkey

def cancel (t : ReminderStore) (userId id : Int) : ReminderStore :=
  t.update (fun r => r.id = id && r.cancellable userId) (·.cancel) (fun _ => rfl)

end ReminderStore

def ReminderStatement.exec : Exec ReminderStatement ReminderAnswer ReminderInput ReminderStore :=
  fun s input t =>
    match s with
    | claimDue now leaseSeconds limit =>
        (input.fate.after t
            (t.claimAll (t.candidates now limit input.locked) now leaseSeconds),
          input.fate.answer
            ((t.claimAll (t.candidates now limit input.locked) now leaseSeconds).rows.rows.filter
              (fun r => (t.candidates now limit input.locked).contains r.id)))
    | send event =>
        ({ t with sends := t.sends ++ [⟨event, t.clock, t.rows.find? event.id⟩] },
          input.delivered)
    | markDelivered event deliveredAt =>
        (input.fate.after t (t.record event (·.markDelivered deliveredAt) (fun _ => rfl)),
          (input.fate.answer ()).isSome)
    | release event errorCode now =>
        (input.fate.after t (t.record event
            (·.releaseForRetry event.reminderAttempts errorCode now) (fun _ => rfl)),
          (input.fate.answer ()).isSome)
    | cancel userId id =>
        (input.fate.after t (t.cancel userId id),
          input.fate.answer ((t.rows.find? id).any (·.cancellable userId)))
    | readEvent userId id =>
        (t, match input.fate with
          | .done => (t.rows.find? id).filter (fun r => r.userId = userId)
          | _ => none)
    | setDescription userId id description =>
        (input.fate.after t (t.updateOwn userId id (fun r => { r with description := description })
          (fun _ => rfl)), (input.fate.answer ()).isSome)
    | setStatus userId id status =>
        (input.fate.after t (t.updateOwn userId id (·.setStatus status) (fun _ => rfl)),
          (input.fate.answer ()).isSome)
    | setSchedule userId id remindAt dueAt =>
        (input.fate.after t (t.updateOwn userId id (·.setSchedule remindAt dueAt) (fun _ => rfl)),
          (input.fate.answer ()).isSome)
    | resetDelivery userId id timezone remindAt =>
        (input.fate.after t
            (t.updateOwn userId id (·.resetDelivery timezone remindAt) (fun _ => rfl)),
          (input.fate.answer ()).isSome)

/-- The claimed copy whose outcome the statement records. -/
def ReminderStatement.recorded : ReminderStatement → Option OntEvent
  | markDelivered event _ => some event
  | release event _ _ => some event
  | _ => none

/-! ## The calls -/

inductive ReminderResult
  | job
  | cancel (result : Option Bool)
  | update (event : Option OntEvent)

abbrev ReminderProgram (ρ : Type) : Type := Program ReminderStatement ReminderAnswer ρ

/-- The claimed batch is sent one after the other, with the clock of the job's start. -/
def deliverReminders (now : Int) : List OntEvent → ReminderProgram ReminderResult
  | [] => .done .job
  | event :: rest => .issue (.send event) (fun delivered =>
      if delivered then
        .issue (.markDelivered event now) (fun _ => deliverReminders now rest)
      else
        .issue (.release event "notification_delivery_failed" now)
          (fun _ => deliverReminders now rest))

/-- The reminders of the event job. -/
def reminderJob (now : Int) : ReminderProgram ReminderResult :=
  .issue (.claimDue now 120 100) (fun claimed => deliverReminders now (claimed.getD []))

def cancelReminder (userId id : Int) : ReminderProgram ReminderResult :=
  .issue (.cancel userId id) (fun changed => .done (.cancel changed))

section UpdateEvent

variable (userId id : Int)

def readBack : ReminderProgram ReminderResult :=
  .issue (.readEvent userId id) (fun event => .done (.update event))

def updateSchedule (remindAt dueAt : Option Int) : ReminderProgram ReminderResult :=
  if remindAt.isSome || dueAt.isSome then
    .issue (.readEvent userId id) (fun current =>
      match current with
      | none => .done (.update none)
      | some current =>
          .issue (.setSchedule userId id (remindAt.or current.remindAt) (dueAt.or current.dueAt))
            (fun ok => if ok then readBack userId id else .done (.update none)))
  else readBack userId id

def updateStatus (status : Option String) (remindAt dueAt : Option Int) :
    ReminderProgram ReminderResult :=
  match status with
  | none => updateSchedule userId id remindAt dueAt
  | some status => .issue (.setStatus userId id status) (fun ok =>
      if ok then updateSchedule userId id remindAt dueAt else .done (.update none))

/-- `append.strip_prefix("Update: ")`. -/
def stripUpdate (append : String) : String :=
  if startsWithText append "Update: " then String.ofList (append.toList.drop 8) else append

def mergedDescription (description append : String) : String :=
  if description = "" then stripUpdate append else description ++ "\nUpdate: " ++ stripUpdate append

def updateEvent (appendDescription status : Option String) (remindAt dueAt : Option Int) :
    ReminderProgram ReminderResult :=
  match appendDescription with
  | none => updateStatus userId id status remindAt dueAt
  | some append => .issue (.readEvent userId id) (fun current =>
      match current with
      | none => .done (.update none)
      | some current =>
          .issue (.setDescription userId id (mergedDescription current.description append))
            (fun ok => if ok then updateStatus userId id status remindAt dueAt
              else .done (.update none)))

def resetEventReminderDelivery (timezone : String) : ReminderProgram ReminderResult :=
  .issue (.readEvent userId id) (fun event =>
    match event with
    | none => .done (.update none)
    | some event => .issue (.resetDelivery userId id timezone event.remindAt) (fun ok =>
        if ok then readBack userId id else .done (.update none)))

end UpdateEvent

/-! ## What a call knows -/

structure ReminderKnown where
  /-- The clock that a job has read. -/
  now : Int
  /-- The copies that it has claimed and not recorded an outcome for. -/
  pending : List OntEvent
deriving DecidableEq, Repr

namespace ReminderKnown

def record (k : ReminderKnown) (event : OntEvent) : ReminderKnown :=
  { k with pending := k.pending.filter (fun c => c.id ≠ event.id) }

def next (k : ReminderKnown) (s : ReminderStatement) (input : ReminderInput)
    (t : ReminderStore) : ReminderKnown :=
  match s with
  | .claimDue now leaseSeconds limit =>
      { k with
        pending := (ReminderStatement.exec (.claimDue now leaseSeconds limit) input t).2.getD [] }
  | .markDelivered event _ => k.record event
  | .release event _ _ => k.record event
  | _ => k

def allows (k : ReminderKnown) : ReminderStatement → Prop
  | .claimDue now _ _ => now = k.now
  | .send event => event ∈ k.pending
  | .markDelivered event _ => event ∈ k.pending
  | .release event _ _ => event ∈ k.pending
  | _ => True

/-- No claim is held twice. -/
def Apart (k k' : ReminderKnown) : Prop :=
  ∀ c ∈ k.pending, ∀ c' ∈ k'.pending, c.id = c'.id → c.claims ≠ c'.claims

theorem Apart.symm {k k' : ReminderKnown} (h : Apart k k') : Apart k' k :=
  fun c hc c' hc' heq hclaims => h c' hc' c hc heq.symm hclaims.symm

end ReminderKnown

def reminderProtocol : Protocol ReminderStatement.exec ReminderKnown where
  allows := ReminderKnown.allows
  admits _ := True
  next := ReminderKnown.next

abbrev ReminderObeys (k : ReminderKnown) (p : ReminderProgram ReminderResult) : Prop :=
  reminderProtocol.Obeys (fun _ _ => True) k p

section Obeys

variable {k : ReminderKnown} {userId id : Int}

theorem obeys_deliverReminders {now : Int} {events : List OntEvent}
    (hnodup : (events.map (·.id)).Nodup) (hpending : ∀ e ∈ events, e ∈ k.pending) :
    ReminderObeys k (deliverReminders now events) := by
  induction events generalizing k with
  | nil => trivial
  | cons event rest ih =>
      rw [List.map_cons, List.nodup_cons] at hnodup
      have hmem : event ∈ k.pending := hpending event List.mem_cons_self
      have hrest : ∀ e ∈ rest, e ∈ (k.record event).pending := by
        intro e he
        refine List.mem_filter.mpr ⟨hpending e (List.mem_cons_of_mem _ he), ?_⟩
        have hne : e.id ≠ event.id := fun heq => hnodup.1 (List.mem_map.mpr ⟨e, he, heq⟩)
        simpa using hne
      refine ⟨hmem, fun input t _ => ?_⟩
      change ReminderObeys k (if input.delivered then _ else _)
      split
      · exact ⟨hmem, fun _ _ _ => ih hnodup.2 hrest⟩
      · exact ⟨hmem, fun _ _ _ => ih hnodup.2 hrest⟩

theorem claimed_nodup (input : ReminderInput) (t : ReminderStore) (now leaseSeconds : Int)
    (limit : Nat) : (((ReminderStatement.exec (.claimDue now leaseSeconds limit) input t).2.getD
      []).map (·.id)).Nodup := by
  have hrows := (t.claimAll (t.candidates now limit input.locked) now leaseSeconds).rows.unique
  change ((((input.fate.answer _ : Option (List OntEvent))).getD []).map _).Nodup
  cases input.fate with
  | done => exact hrows.sublist (List.filter_sublist.map _)
  | refused => exact List.nodup_nil
  | lost => exact List.nodup_nil

theorem obeys_reminderJob : ReminderObeys k (reminderJob k.now) :=
  ⟨rfl, fun input t _ =>
    obeys_deliverReminders (claimed_nodup input t k.now 120 100) (fun _ he => he)⟩

theorem obeys_cancelReminder : ReminderObeys k (cancelReminder userId id) :=
  ⟨trivial, fun _ _ _ => trivial⟩

theorem obeys_readBack : ReminderObeys k (readBack userId id) := ⟨trivial, fun _ _ _ => trivial⟩

/-- A statement of a user, after which the call goes on or ends. -/
theorem obeys_readBack_or (ok : Bool) :
    ReminderObeys k (if ok then readBack userId id else .done (.update none)) := by
  cases ok with
  | false => trivial
  | true => exact obeys_readBack

theorem obeys_updateSchedule {remindAt dueAt : Option Int} :
    ReminderObeys k (updateSchedule userId id remindAt dueAt) := by
  unfold updateSchedule
  split
  · refine ⟨trivial, fun input t _ => ?_⟩
    change ReminderObeys k (match (ReminderStatement.exec (.readEvent userId id) input t).2 with
      | none => .done (.update none)
      | some current => _)
    split
    · trivial
    · exact ⟨trivial, fun _ _ _ => obeys_readBack_or _⟩
  · exact obeys_readBack

theorem obeys_updateStatus {status : Option String} {remindAt dueAt : Option Int} :
    ReminderObeys k (updateStatus userId id status remindAt dueAt) := by
  cases status with
  | none => exact obeys_updateSchedule
  | some status =>
      refine ⟨trivial, fun input t _ => ?_⟩
      change ReminderObeys k (if (input.fate.answer ()).isSome then _ else _)
      split
      · exact obeys_updateSchedule
      · trivial

theorem obeys_updateEvent {appendDescription status : Option String} {remindAt dueAt : Option Int} :
    ReminderObeys k (updateEvent userId id appendDescription status remindAt dueAt) := by
  cases appendDescription with
  | none => exact obeys_updateStatus
  | some append =>
      refine ⟨trivial, fun input t _ => ?_⟩
      change ReminderObeys k (match (ReminderStatement.exec (.readEvent userId id) input t).2 with
        | none => .done (.update none)
        | some current => _)
      split
      · trivial
      · refine ⟨trivial, fun input t _ => ?_⟩
        change ReminderObeys k (if (input.fate.answer ()).isSome then _ else _)
        split
        · exact obeys_updateStatus
        · trivial

theorem obeys_resetEventReminderDelivery {timezone : String} :
    ReminderObeys k (resetEventReminderDelivery userId id timezone) := by
  refine ⟨trivial, fun input t _ => ?_⟩
  change ReminderObeys k (match (ReminderStatement.exec (.readEvent userId id) input t).2 with
    | none => .done (.update none)
    | some event => _)
  split
  · trivial
  · exact ⟨trivial, fun _ _ _ => obeys_readBack_or _⟩

end Obeys

/-! ## What a claimed copy says about its row -/

namespace OntEvent

/-- As long as the event is not changed, the claim stands under its lease, or another one was made
after the lease had ended. -/
structure Fit (clock : Int) (c r : OntEvent) : Prop where
  claims : c.claims ≤ r.claims
  changes : c.changes ≤ r.changes
  stands : r.changes = c.changes →
    (r.claims = c.claims ∧ r.held = true ∧ r.isSending = true ∧
      r.reminderLeaseUntil = c.reminderLeaseUntil) ∨
        (c.claims < r.claims ∧ ∀ l, c.reminderLeaseUntil = some l → l ≤ clock)

variable {clock : Int} {c r : OntEvent}

theorem not_active_of_sending (h : r.isSending = true) : r.isActive = false := by
  have hstatus : r.status = "reminder_sending" := of_decide_eq_true h
  simp [isActive, hstatus]

/-- A write of other columns. -/
theorem Fit.same {r' : OntEvent} (h : Fit clock c r) (hclaims : r'.claims = r.claims)
    (hchanges : r'.changes = r.changes) (hheld : r'.held = r.held)
    (hstatus : r'.status = r.status) (hlease : r'.reminderLeaseUntil = r.reminderLeaseUntil) :
    Fit clock c r' := by
  have hsending : r'.isSending = r.isSending := by simp [isSending, hstatus]
  refine ⟨by rw [hclaims]; exact h.claims, by rw [hchanges]; exact h.changes, fun heq => ?_⟩
  rw [hclaims, hheld, hsending, hlease]
  exact h.stands (hchanges.symm.trans heq)

theorem Fit.tick (h : Fit clock c r) {now : Int} (hnow : clock ≤ now) : Fit now c r := by
  refine ⟨h.claims, h.changes, fun heq => ?_⟩
  rcases h.stands heq with hstands | ⟨hlater, hended⟩
  · exact Or.inl hstands
  · exact Or.inr ⟨hlater, fun l hl => le_trans (hended l hl) hnow⟩

theorem Fit.claim (h : Fit clock c r) {now : Int} (hnow : now ≤ clock)
    (hclaimable : r.claimable now = true) (leaseSeconds : Int) :
    Fit clock c (r.claim now leaseSeconds) := by
  refine ⟨le_trans h.claims (Nat.le_succ _), h.changes, fun heq => Or.inr ⟨?_, ?_⟩⟩
  · exact lt_of_le_of_lt h.claims (Nat.lt_succ_self _)
  · rcases h.stands heq with ⟨_, _, hsending, hlease⟩ | ⟨_, hended⟩
    · intro l hl
      simp only [claimable, Bool.and_eq_true, Bool.or_eq_true] at hclaimable
      rcases hclaimable.2 with hactive | ⟨_, hlease'⟩
      · rw [not_active_of_sending hsending] at hactive
        cases hactive
      · rw [hlease, hl] at hlease'
        have hended : l ≤ now := by simpa using hlease'
        omega
    · exact hended

/-- The event is another one from now on. -/
theorem Fit.changed (h : Fit clock c r) {r' : OntEvent} (hclaims : r'.claims = r.claims)
    (hchanges : r'.changes = r.changes + 1) : Fit clock c r' := by
  have hle := h.changes
  refine ⟨by rw [hclaims]; exact h.claims, by omega, fun heq => ?_⟩
  omega

/-- A claim that does not stand any more is not touched. -/
theorem Fit.other (h : Fit clock c r) {r' : OntEvent} (hclaims : r'.claims = r.claims)
    (hchanges : r'.changes = r.changes)
    (hother : r.claims = c.claims → r.isSending = false) : Fit clock c r' := by
  refine ⟨by rw [hclaims]; exact h.claims, by rw [hchanges]; exact h.changes, fun heq => ?_⟩
  rcases h.stands (hchanges.symm.trans heq) with ⟨hsame, _, hsending, _⟩ | hlater
  · rw [hother hsame] at hsending
    cases hsending
  · rw [hclaims]
    exact Or.inr hlater

end OntEvent

/-! ## What the table keeps -/

/-- The sender holds the unexpired claim of the event as it is. -/
def ReminderSend.Held (e : ReminderSend) : Prop :=
  ∃ r, e.row = some r ∧ (r.held = true ∧ r.claims = e.event.claims ∧ r.changes = e.event.changes ∧
    r.isSending = true) ∧ (∃ l, r.reminderLeaseUntil = some l ∧ e.sentAt < l) ∧
      r.cancelled = false

/-- The outcome is recorded on the claim it belongs to. -/
def ReminderOutcome.Held (o : ReminderOutcome) : Prop :=
  o.row.held = true ∧ o.row.claims = o.event.claims

namespace ReminderStore

/-- A send begins under its lease, of an event that was not changed since its claim; an outcome
that is recorded is that of the last claim, of an event that was not changed since; and an event
that was cancelled is not changed. -/
def inOrder (t : ReminderStore) : ReminderStatement → Bool
  | .send event =>
      (t.rows.find? event.id).all (fun r => r.changes = event.changes) &&
        event.reminderLeaseUntil.any (t.clock < ·)
  | .markDelivered event _ =>
      (t.recordsOn event).all (fun r => r.claims = event.claims && r.changes = event.changes)
  | .release event _ _ =>
      (t.recordsOn event).all (fun r => r.claims = event.claims && r.changes = event.changes)
  | .setStatus _ id _ => (t.rows.find? id).all (fun r => !r.cancelled)
  | .setSchedule _ id _ _ => (t.rows.find? id).all (fun r => !r.cancelled)
  | .resetDelivery _ id _ _ => (t.rows.find? id).all (fun r => !r.cancelled)
  | _ => true

structure Kept (t : ReminderStore) : Prop where
  cancelled : ∀ r ∈ t.rows, r.cancelled = true → r.status = "cancelled"
  sends : ∀ e ∈ t.sends, e.Held
  outcomes : ∀ o ∈ t.outcomes, o.Held

/-- The row of a claimed copy. -/
def Traces (t : ReminderStore) (c : OntEvent) : Prop :=
  ∃ r, t.rows.find? c.id = some r ∧ OntEvent.Fit t.clock c r

structure Fits (k : ReminderKnown) (t : ReminderStore) : Prop where
  now : k.now ≤ t.clock
  traces : ∀ c ∈ k.pending, t.Traces c

variable {t : ReminderStore} {k k' : ReminderKnown} {c : OntEvent} {p : OntEvent → Bool}
  {set : OntEvent → OntEvent} {hkey : ∀ r, (set r).id = r.id}

theorem Kept.update (h : t.Kept) (hset : ∀ r ∈ t.rows, p r = true →
    (r.cancelled = true → r.status = "cancelled") →
      (set r).cancelled = true → (set r).status = "cancelled") : (t.update p set hkey).Kept := by
  refine ⟨fun r' hr' => ?_, h.sends, h.outcomes⟩
  obtain ⟨r, hr, rfl⟩ := (Table.mem_updateWhere hkey).mp hr'
  split
  next hmatch => exact hset r hr hmatch (h.cancelled r hr)
  next => exact h.cancelled r hr

theorem Traces.update (h : t.Traces c) (hset : ∀ r, t.rows.find? c.id = some r → p r = true →
    OntEvent.Fit t.clock c r → OntEvent.Fit t.clock c (set r)) : (t.update p set hkey).Traces c := by
  obtain ⟨r, hr, hfit⟩ := h
  refine ⟨if p r then set r else r, ?_, ?_⟩
  · change (t.rows.updateWhere p set hkey).find? c.id = _
    rw [Table.find?_updateWhere, hr, Option.map_some]
  · split
    next hmatch => exact hset r hr hmatch hfit
    next => exact hfit

/-- Only a claimable row is a candidate. -/
theorem claimable_of_candidate {now : Int} {limit : Nat} {locked : List Int} {r : OntEvent}
    (hr : r ∈ t.rows) (h : (t.candidates now limit locked).contains r.id = true) :
    r.claimable now = true := by
  rw [List.contains_iff_mem] at h
  obtain ⟨r', hr', heq⟩ := List.mem_map.mp h
  have hselected := List.mem_filter.mp (mem_orderBy.mp (List.mem_of_mem_take hr'))
  have hsame : r' = r := Table.eq_of_key_eq hselected.1 hr heq
  rw [← hsame]
  exact (Bool.and_eq_true_iff.mp hselected.2).1

theorem status_of_claimable {r : OntEvent} {now : Int} (h : r.claimable now = true) :
    r.status ≠ "cancelled" := by
  intro hcancelled
  simp [OntEvent.claimable, OntEvent.isActive, OntEvent.isSending, hcancelled] at h

section Claim

variable {now leaseSeconds : Int} {limit : Nat} {locked : List Int}

theorem Kept.claimAll (h : t.Kept) :
    (t.claimAll (t.candidates now limit locked) now leaseSeconds).Kept := by
  refine h.update (fun r hr hmatch hcancelled hflag => ?_)
  exact absurd (hcancelled hflag) (status_of_claimable (claimable_of_candidate hr hmatch))

theorem Traces.claimAll (h : t.Traces c) (hnow : now ≤ t.clock) :
    (t.claimAll (t.candidates now limit locked) now leaseSeconds).Traces c := by
  refine h.update (fun r hr hmatch hfit => ?_)
  have hmem : r ∈ t.rows := (Table.find?_eq_some_iff.mp hr).1
  exact hfit.claim hnow (claimable_of_candidate hmem hmatch) leaseSeconds

/-- A copy that is claimed is the row after the claim. -/
theorem claimed_spec
    (hmem : c ∈ (t.claimAll (t.candidates now limit locked) now leaseSeconds).rows.rows.filter
      (fun r => (t.candidates now limit locked).contains r.id)) :
    ∃ r ∈ t.rows, c = r.claim now leaseSeconds ∧
      (t.claimAll (t.candidates now limit locked) now leaseSeconds).rows.find? c.id = some c := by
  obtain ⟨hrow, hid⟩ := List.mem_filter.mp hmem
  have hwritten : c ∈ t.rows.updateWhere (fun r => (t.candidates now limit locked).contains r.id)
      (·.claim now leaseSeconds) (fun _ => rfl) := hrow
  obtain ⟨r, hr, heq⟩ := (Table.mem_updateWhere _).mp hwritten
  have hid' : c.id = r.id := by
    rw [heq]
    split <;> rfl
  rw [hid'] at hid
  rw [if_pos hid] at heq
  exact ⟨r, hr, heq, Table.find?_eq_some_iff.mpr ⟨hrow, rfl⟩⟩

end Claim

section Record

variable {event row : OntEvent}

theorem recordsOn_spec (h : t.recordsOn event = some row) :
    t.rows.find? event.id = some row ∧ row.isSending = true := by
  obtain ⟨hfound, hmatch⟩ := Option.filter_eq_some_iff.mp h
  exact ⟨hfound, (Bool.and_eq_true_iff.mp hmatch).2⟩

/-- The outcome of a claim that stands. -/
theorem Kept.record (h : t.Kept) (htraces : t.Traces event)
    (horder : (t.recordsOn event).all (fun r => r.claims = event.claims && r.changes = event.changes)
      = true) (hset : ∀ r, (set r).cancelled = r.cancelled) : (t.record event set hkey).Kept := by
  unfold ReminderStore.record
  cases hrow : t.recordsOn event with
  | none => exact h
  | some row =>
      obtain ⟨hfound, hsending⟩ := recordsOn_spec hrow
      have hmem : row ∈ t.rows := (Table.find?_eq_some_iff.mp hfound).1
      have hupdated : (t.update (fun r => r.id = event.id) set hkey).Kept := by
        refine h.update (fun r hr hmatch hcancelled hflag => ?_)
        have hsame : r = row := Table.eq_of_key_eq hr hmem
          ((of_decide_eq_true hmatch).trans (Table.find?_eq_some_iff.mp hfound).2.symm)
        rw [hset] at hflag
        have hstatus := hcancelled hflag
        rw [hsame] at hstatus
        simp [OntEvent.isSending, hstatus] at hsending
      refine ⟨hupdated.cancelled, hupdated.sends, fun o ho => ?_⟩
      rcases List.mem_append.mp ho with hold | hnew
      · exact h.outcomes o hold
      · rw [List.mem_singleton.mp hnew]
        obtain ⟨r, hr, hfit⟩ := htraces
        rw [hfound] at hr
        cases hr
        rw [hrow] at horder
        simp only [Option.all_some, Bool.and_eq_true, decide_eq_true_eq] at horder
        rcases hfit.stands horder.2 with ⟨hclaims, hheld, _⟩ | ⟨hlater, _⟩
        · exact ⟨hheld, hclaims⟩
        · omega

/-- Another claim of the event does not stand any more. -/
theorem Traces.record (h : t.Traces c)
    (horder : (t.recordsOn event).all (fun r => r.claims = event.claims && r.changes = event.changes)
      = true) (hother : c.id = event.id → c.claims ≠ event.claims)
    (hclaims : ∀ r, (set r).claims = r.claims) (hchanges : ∀ r, (set r).changes = r.changes) :
    (t.record event set hkey).Traces c := by
  unfold ReminderStore.record
  cases hrow : t.recordsOn event with
  | none => exact h
  | some row =>
      have hupdated : (t.update (fun r => r.id = event.id) set hkey).Traces c := by
        refine h.update (fun r hr hmatch hfit => hfit.other (hclaims r) (hchanges r) ?_)
        intro hsame
        have hid : c.id = event.id :=
          (Table.find?_eq_some_iff.mp hr).2.symm.trans (of_decide_eq_true hmatch)
        obtain ⟨hfound, _⟩ := recordsOn_spec hrow
        rw [hid, hfound] at hr
        cases hr
        rw [hrow] at horder
        simp only [Option.all_some, Bool.and_eq_true, decide_eq_true_eq] at horder
        exact absurd (hsame.symm.trans horder.1) (hother hid)
      exact hupdated

end Record

/-- A send of a claim whose lease has not ended. -/
theorem Kept.send (h : t.Kept) {event : OntEvent} (htraces : t.Traces event)
    (horder : t.inOrder (.send event) = true) :
    ReminderSend.Held ⟨event, t.clock, t.rows.find? event.id⟩ := by
  obtain ⟨r, hr, hfit⟩ := htraces
  obtain ⟨hchanges, hlease⟩ := Bool.and_eq_true_iff.mp horder
  rw [hr] at hchanges
  have hsame : r.changes = event.changes := of_decide_eq_true hchanges
  obtain ⟨l, hl, hunexpired⟩ : ∃ l, event.reminderLeaseUntil = some l ∧ t.clock < l := by
    cases hlease' : event.reminderLeaseUntil with
    | none => simp [hlease'] at hlease
    | some l => exact ⟨l, rfl, by simpa [hlease'] using hlease⟩
  rcases hfit.stands hsame with ⟨hclaims, hheld, hsending, hrow⟩ | ⟨_, hended⟩
  · refine ⟨r, hr, ⟨hheld, hclaims, hsame, hsending⟩, ⟨l, hrow.trans hl, hunexpired⟩, ?_⟩
    cases hcancelled : r.cancelled with
    | false => rfl
    | true =>
        have hstatus := h.cancelled r (Table.find?_eq_some_iff.mp hr).1 hcancelled
        simp [OntEvent.isSending, hstatus] at hsending
  · have hle := hended l hl
    omega

section User

variable {userId id : Int}

/-- A change of an event that was not cancelled. -/
theorem Kept.updateOwn (h : t.Kept)
    (horder : (t.rows.find? id).all (fun r => !r.cancelled) = true)
    (hset : ∀ r, (set r).cancelled = r.cancelled) : (t.updateOwn userId id set hkey).Kept := by
  refine h.update (fun r hr hmatch _ hflag => ?_)
  have hid : r.id = id := of_decide_eq_true (Bool.and_eq_true_iff.mp hmatch).1
  have hfound : t.rows.find? id = some r := Table.find?_eq_some_iff.mpr ⟨hr, hid⟩
  rw [hfound, Option.all_some, ← hset r, hflag] at horder
  cases horder

theorem Traces.updateOwn (h : t.Traces c) (hclaims : ∀ r, (set r).claims = r.claims)
    (hchanges : ∀ r, (set r).changes = r.changes + 1) :
    (t.updateOwn userId id set hkey).Traces c :=
  h.update (fun r _ _ hfit => hfit.changed (hclaims r) (hchanges r))

theorem Kept.cancel (h : t.Kept) (userId id : Int) : (t.cancel userId id).Kept :=
  h.update (fun _ _ _ _ _ => rfl)

theorem Traces.cancel (h : t.Traces c) (userId id : Int) : (t.cancel userId id).Traces c := by
  refine h.update (fun r _ hmatch hfit => hfit.other rfl rfl (fun _ => ?_))
  have hcancellable : r.cancellable userId = true := (Bool.and_eq_true_iff.mp hmatch).2
  simp only [OntEvent.cancellable, Bool.and_eq_true] at hcancellable
  have hactive := hcancellable.1.2
  cases hsending : r.isSending with
  | false => rfl
  | true =>
      rw [OntEvent.not_active_of_sending hsending] at hactive
      cases hactive

end User

/-! ### Every statement -/

variable {stmt : ReminderStatement} {input : ReminderInput}

theorem Kept.exec (h : t.Kept) (hallows : k.allows stmt) (hfits : Fits k t)
    (horder : t.inOrder stmt = true) : (ReminderStatement.exec stmt input t).1.Kept := by
  have hafter : ∀ written : ReminderStore, written.Kept → (input.fate.after t written).Kept :=
    fun _ hwritten => input.fate.after_keeps ReminderStore.Kept h hwritten
  cases stmt with
  | claimDue now leaseSeconds limit => exact hafter _ h.claimAll
  | send event =>
      refine ⟨h.cancelled, fun e he => ?_, h.outcomes⟩
      rcases List.mem_append.mp he with hold | hnew
      · exact h.sends e hold
      · rw [List.mem_singleton.mp hnew]
        exact h.send (hfits.traces event hallows) horder
  | markDelivered event deliveredAt =>
      exact hafter _ (h.record (hfits.traces event hallows) horder (fun _ => rfl))
  | release event errorCode now =>
      exact hafter _ (h.record (hfits.traces event hallows) horder (fun _ => rfl))
  | cancel userId id => exact hafter _ (h.cancel userId id)
  | readEvent userId id => exact h
  | setDescription userId id description =>
      exact hafter _ (h.update (fun _ _ _ hcancelled => hcancelled))
  | setStatus userId id status => exact hafter _ (h.updateOwn horder (fun _ => rfl))
  | setSchedule userId id remindAt dueAt => exact hafter _ (h.updateOwn horder (fun _ => rfl))
  | resetDelivery userId id timezone remindAt => exact hafter _ (h.updateOwn horder (fun _ => rfl))

/-- A copy whose claim is not the one that is recorded keeps track of its row. -/
theorem Traces.exec (h : t.Traces c) (hallows : k.allows stmt) (hfits : Fits k t)
    (horder : t.inOrder stmt = true)
    (hother : ∀ event, stmt.recorded = some event → c.id = event.id → c.claims ≠ event.claims) :
    (ReminderStatement.exec stmt input t).1.Traces c := by
  have hafter : ∀ written : ReminderStore, written.Traces c →
      (input.fate.after t written).Traces c :=
    fun _ hwritten => input.fate.after_keeps (fun u : ReminderStore => u.Traces c) h hwritten
  cases stmt with
  | claimDue now leaseSeconds limit =>
      cases hallows
      exact hafter _ (h.claimAll hfits.now)
  | send event => exact h
  | markDelivered event deliveredAt =>
      exact hafter _ (h.record horder (hother event rfl) (fun _ => rfl) (fun _ => rfl))
  | release event errorCode now =>
      exact hafter _ (h.record horder (hother event rfl) (fun _ => rfl) (fun _ => rfl))
  | cancel userId id => exact hafter _ (h.cancel userId id)
  | readEvent userId id => exact h
  | setDescription userId id description =>
      exact hafter _ (h.update (fun _ _ _ hfit => hfit.same rfl rfl rfl rfl rfl))
  | setStatus userId id status => exact hafter _ (h.updateOwn (fun _ => rfl) (fun _ => rfl))
  | setSchedule userId id remindAt dueAt =>
      exact hafter _ (h.updateOwn (fun _ => rfl) (fun _ => rfl))
  | resetDelivery userId id timezone remindAt =>
      exact hafter _ (h.updateOwn (fun _ => rfl) (fun _ => rfl))

theorem recorded_mem (hallows : k.allows stmt) {event : OntEvent}
    (h : stmt.recorded = some event) : event ∈ k.pending := by
  cases stmt with
  | markDelivered event' deliveredAt =>
      cases h
      exact hallows
  | release event' errorCode now =>
      cases h
      exact hallows
  | _ => cases h

theorem clock_exec (stmt : ReminderStatement) (input : ReminderInput) (t : ReminderStore) :
    (ReminderStatement.exec stmt input t).1.clock = t.clock := by
  have hafter : ∀ written : ReminderStore, written.clock = t.clock →
      (input.fate.after t written).clock = t.clock :=
    fun _ hwritten => input.fate.after_keeps (fun u : ReminderStore => u.clock = t.clock) rfl hwritten
  have hrecord : ∀ event set hkey, (t.record event set hkey).clock = t.clock := by
    intro event set hkey
    unfold ReminderStore.record
    split
    · rfl
    · rfl
  cases stmt with
  | send event => rfl
  | readEvent userId id => rfl
  | markDelivered event deliveredAt => exact hafter _ (hrecord _ _ _)
  | release event errorCode now => exact hafter _ (hrecord _ _ _)
  | _ => exact hafter _ rfl

/-- What another call knows stays so. -/
theorem Fits.exec (h : Fits k' t) (hallows : k.allows stmt) (hfits : Fits k t)
    (horder : t.inOrder stmt = true) (hapart : ReminderKnown.Apart k k') :
    Fits k' (ReminderStatement.exec stmt input t).1 := by
  refine ⟨by rw [clock_exec]; exact h.now, fun c hc => ?_⟩
  refine (h.traces c hc).exec hallows hfits horder (fun event hevent hid hclaims => ?_)
  exact hapart event (recorded_mem hallows hevent) c hc hid.symm hclaims.symm

theorem now_next (k : ReminderKnown) (stmt : ReminderStatement) (input : ReminderInput)
    (t : ReminderStore) : (k.next stmt input t).now = k.now := by
  cases stmt <;> rfl

theorem mem_claimed {now leaseSeconds : Int} {limit : Nat}
    (h : c ∈ (k.next (.claimDue now leaseSeconds limit) input t).pending) : input.fate = .done ∧
      c ∈ (t.claimAll (t.candidates now limit input.locked) now leaseSeconds).rows.rows.filter
        (fun r => (t.candidates now limit input.locked).contains r.id) := by
  change c ∈ (input.fate.answer _ : Option (List OntEvent)).getD [] at h
  cases hfate : input.fate with
  | done =>
      rw [hfate] at h
      exact ⟨rfl, h⟩
  | refused =>
      rw [hfate] at h
      cases h
  | lost =>
      rw [hfate] at h
      cases h

/-- What the call itself knows afterwards is so. -/
theorem Fits.next (h : Fits k t) (hallows : k.allows stmt) (horder : t.inOrder stmt = true) :
    Fits (k.next stmt input t) (ReminderStatement.exec stmt input t).1 := by
  refine ⟨by rw [clock_exec, now_next]; exact h.now, fun c hc => ?_⟩
  have hrecord : ∀ event : OntEvent, c ∈ (k.record event).pending →
      c ∈ k.pending ∧ c.id ≠ event.id := by
    intro event hmem
    obtain ⟨hmem, hne⟩ := List.mem_filter.mp hmem
    exact ⟨hmem, by simpa using hne⟩
  have hkeep : c ∈ k.pending → (∀ event, stmt.recorded = some event → c.id ≠ event.id) →
      (ReminderStatement.exec stmt input t).1.Traces c := fun hmem hne =>
    (h.traces c hmem).exec hallows h horder (fun event hevent hid => absurd hid (hne event hevent))
  cases stmt with
  | claimDue now leaseSeconds limit =>
      obtain ⟨hfate, hmem⟩ := mem_claimed hc
      obtain ⟨r, hr, hclaim, hfound⟩ := claimed_spec hmem
      refine ⟨c, ?_, le_refl _, le_refl _, fun _ => Or.inl ⟨rfl, ?_, ?_, rfl⟩⟩
      · simp only [ReminderStatement.exec, hfate]
        exact hfound
      · rw [hclaim]
        rfl
      · rw [hclaim]
        rfl
  | markDelivered event deliveredAt =>
      obtain ⟨hmem, hne⟩ := hrecord event hc
      refine hkeep hmem (fun event' hevent => ?_)
      cases hevent
      exact hne
  | release event errorCode now =>
      obtain ⟨hmem, hne⟩ := hrecord event hc
      refine hkeep hmem (fun event' hevent => ?_)
      cases hevent
      exact hne
  | _ => exact hkeep hc (fun event hevent => by cases hevent)

theorem apart_next (hapart : ReminderKnown.Apart k k') (h : Fits k' t) :
    ReminderKnown.Apart (k.next stmt input t) k' := by
  have hrecord : ∀ event : OntEvent, ReminderKnown.Apart (k.record event) k' :=
    fun event c hc => hapart c (List.mem_filter.mp hc).1
  cases stmt with
  | claimDue now leaseSeconds limit =>
      intro c hc c' hc' hid hclaims
      obtain ⟨_, hmem⟩ := mem_claimed hc
      obtain ⟨r, hr, hclaim, _⟩ := claimed_spec hmem
      obtain ⟨r', hr', hfit⟩ := h.traces c' hc'
      have hrow : c.id = r.id := by
        rw [hclaim]
        rfl
      have hsame : r' = r := Table.eq_of_key_eq (Table.find?_eq_some_iff.mp hr').1 hr
        ((Table.find?_eq_some_iff.mp hr').2.trans (hid.symm.trans hrow))
      have hle := hfit.claims
      rw [hsame] at hle
      have hnew : c.claims = r.claims + 1 := by
        rw [hclaim]
        rfl
      omega
  | markDelivered event deliveredAt => exact hrecord event
  | release event errorCode now => exact hrecord event
  | _ => exact hapart

def tick (t : ReminderStore) (seconds : Nat) : ReminderStore :=
  { t with clock := t.clock + seconds }

theorem Fits.tick (h : Fits k t) (seconds : Nat) : Fits k (t.tick seconds) := by
  have hle : t.clock ≤ (t.tick seconds).clock := by
    change t.clock ≤ t.clock + seconds
    omega
  refine ⟨le_trans h.now hle, fun c hc => ?_⟩
  obtain ⟨r, hr, hfit⟩ := h.traces c hc
  exact ⟨r, hr, hfit.tick hle⟩

end ReminderStore

/-! ## Every run -/

abbrev ReminderState : Type :=
  Concurrent ReminderStatement ReminderAnswer ReminderStore ReminderKnown ReminderResult

inductive ReminderAction
  | tick (seconds : Nat)
  /-- A worker starts the event job. -/
  | job
  | cancelReminder (userId id : Int)
  | updateEvent (userId id : Int) (appendDescription status : Option String)
      (remindAt dueAt : Option Int)
  | resetDelivery (userId id : Int) (timezone : String)
  | issue (i : Nat) (input : ReminderInput)
deriving DecidableEq, Repr

namespace ReminderState

/-- Events that nobody has claimed or cancelled yet. -/
structure IsFresh (rows : EventTable) : Prop where
  cancelled : ∀ r ∈ rows, r.cancelled = false

def start (rows : EventTable) (clock : Int) : ReminderState :=
  ⟨⟨rows, clock, [], []⟩, []⟩

def begin (s : ReminderState) (program : ReminderProgram ReminderResult) : ReminderState :=
  Concurrent.start s ⟨s.store.clock, []⟩ program

def step (s : ReminderState) : ReminderAction → Option ReminderState
  | .tick seconds => some { s with store := s.store.tick seconds }
  | .job => some (s.begin (reminderJob s.store.clock))
  | .cancelReminder userId id => some (s.begin (Ontology.cancelReminder userId id))
  | .updateEvent userId id appendDescription status remindAt dueAt =>
      some (s.begin (Ontology.updateEvent userId id appendDescription status remindAt dueAt))
  | .resetDelivery userId id timezone =>
      some (s.begin (resetEventReminderDelivery userId id timezone))
  | .issue i input => Concurrent.issue reminderProtocol s i input

def inOrder (s : ReminderState) : ReminderAction → Bool
  | .issue i _ => s.nextMeets (fun _ stmt => s.store.inOrder stmt) i
  | _ => true

structure Inv (s : ReminderState) : Prop where
  sound : s.Sound reminderProtocol ReminderStore.Kept ReminderStore.Fits
  apart : s.Apart ReminderKnown.Apart

variable {s next : ReminderState} {a : ReminderAction}

theorem Inv.begin (h : s.Inv) {program : ReminderProgram ReminderResult}
    (hobeys : ReminderObeys ⟨s.store.clock, []⟩ program) : Inv (s.begin program) := by
  have hfits : ReminderStore.Fits ⟨s.store.clock, []⟩ s.store :=
    ⟨le_refl _, fun c hc => by cases hc⟩
  refine ⟨h.sound.start hfits hobeys, h.apart.start (fun _ _ hapart => hapart.symm) ?_⟩
  intro r _ c hc
  cases hc

theorem Inv.step (h : s.Inv) (horder : s.inOrder a = true) (hstep : s.step a = some next) :
    next.Inv := by
  have hkept := h.sound.store
  cases a with
  | tick seconds =>
      cases hstep
      exact ⟨⟨⟨hkept.cancelled, hkept.sends, hkept.outcomes⟩,
        fun r hr => (h.sound.fits r hr).tick seconds, h.sound.obeys⟩, h.apart⟩
  | job =>
      cases hstep
      exact h.begin obeys_reminderJob
  | cancelReminder userId id =>
      cases hstep
      exact h.begin obeys_cancelReminder
  | updateEvent userId id appendDescription status remindAt dueAt =>
      cases hstep
      exact h.begin obeys_updateEvent
  | resetDelivery userId id timezone =>
      cases hstep
      exact h.begin obeys_resetEventReminderDelivery
  | issue i input =>
      have hmeets : s.nextMeets (fun _ stmt => s.store.inOrder stmt) i = true := horder
      obtain ⟨hsound, hapart⟩ := h.sound.issue_apart h.apart (fun _ _ hapart => hapart.symm)
        trivial hmeets (fun _ _ hallows horder hfits => hkept.exec hallows hfits horder)
        (fun _ _ hallows horder hfits => hfits.next hallows horder)
        (fun _ _ _ hallows horder hapart hfits hfits' =>
          hfits'.exec hallows hfits horder hapart)
        (fun _ _ _ _ hapart _ hfits' => ReminderStore.apart_next hapart hfits') hstep
      exact ⟨hsound, hapart⟩

/-- Every send was made under the claim of its sender, and every outcome recorded on its claim. -/
structure ReminderLaw (s : ReminderState) : Prop where
  sends : ∀ e ∈ s.store.sends, e.Held
  outcomes : ∀ o ∈ s.store.outcomes, o.Held

theorem inv_start {rows : EventTable} (hfresh : IsFresh rows) (clock : Int) :
    (start rows clock).Inv := by
  refine ⟨Concurrent.sound_of_none_running ⟨fun r hr hcancelled => ?_, ?_, ?_⟩, ?_⟩
  · rw [hfresh.cancelled r hr] at hcancelled
    cases hcancelled
  · intro e he
    cases he
  · intro o ho
    cases ho
  · intro i j r r' _ hr
    cases hr

end ReminderState

namespace ReminderExample

def due (id : Int) : OntEvent where
  id := id
  userId := 1
  description := "call"
  remindAt := some 50
  dueAt := none
  status := "active"
  reminderAttempts := 0
  reminderNextAttemptAt := none
  reminderLeaseUntil := none
  reminderLastError := none
  reminderDeliveredAt := none
  reminderTimezone := none
  claims := 0
  held := false
  changes := 0
  cancelled := false

def rows : EventTable := ⟨[due 1, due 2], by decide⟩

def done : ReminderInput := ⟨.done, [], true⟩

/-- One worker sends both reminders in time. -/
def sentInTime : List ReminderAction := .job :: List.replicate 5 (.issue 0 done)

/-- The first send of a batch takes 130 seconds, after which another worker takes over the second
reminder. -/
def takenOver : List ReminderAction :=
  [.job, .issue 0 done, .issue 0 done, .tick 130, .job, .issue 1 done, .issue 0 done,
    .issue 0 done]

def reached (actions : List ReminderAction) : ReminderState :=
  Transition.final ReminderState.step (ReminderState.start rows 100) actions

end ReminderExample

end Lightfriend.Ontology
