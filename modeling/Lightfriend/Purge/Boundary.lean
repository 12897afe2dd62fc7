import Lightfriend.Purge.Homeserver

/-! # Completion and the timeline

A completed boundary marks every open row of its room whose `enqueued_at` is not
later than its own. The column follows the timeline of the room only while every
write of it does: `StampsInOrder` says so for one statement, and
`BoundaryUntied` says that a boundary is not chosen in the second of a later
event. Under both the marked rows lie at or before the boundary in the timeline.
-/

namespace Lightfriend.Purge

/-! ## Boundaries the worker holds -/

structure Boundary where
  eventId : String
  roomId : String
  enqueuedAt : Int
deriving DecidableEq, Repr

def CleanupEvent.boundary (c : CleanupEvent) : Boundary := ⟨c.eventId, c.roomId, c.enqueuedAt⟩

/-- The boundary that a pending write completes. -/
def PurgeWrite.completing : PurgeWrite → Option Boundary
  | eventSucceededThrough boundaryEventId roomId enqueuedAt =>
      some ⟨boundaryEventId, roomId, enqueuedAt⟩
  | _ => none

def PurgeWrite.submitting : PurgeWrite → Option String
  | eventSubmitted eventId _ => some eventId
  | _ => none

namespace Stage

def completing : Stage → Option Boundary
  | pollWrite write _ _ => write.completing
  | settle write _ _ => write.completing
  | _ => none

/-- The boundaries in the local variables of the cycle. -/
def boundaries : Stage → List Boundary
  | listSubmittedRooms submitted => submitted.map CleanupEvent.boundary
  | poll submitted _ => submitted.map CleanupEvent.boundary
  | pollWrite write submitted _ =>
      write.completing.toList ++ submitted.map CleanupEvent.boundary
  | listDueRooms _ due => due.map CleanupEvent.boundary
  | submit due _ => due.map CleanupEvent.boundary
  | prepare candidate _ due _ => candidate.boundary :: due.map CleanupEvent.boundary
  | send candidate _ _ due _ => candidate.boundary :: due.map CleanupEvent.boundary
  | probe candidate _ due _ => candidate.boundary :: due.map CleanupEvent.boundary
  | settle write due _ => write.completing.toList ++ due.map CleanupEvent.boundary
  | _ => []

/-- The event whose task id is about to be recorded. -/
def submitting : Stage → Option String
  | pollWrite write _ _ => write.submitting
  | settle write _ _ => write.submitting
  | _ => none

end Stage

/-- Rows whose `enqueued_at` a completion will be measured by. -/
def PurgeState.isLive (s : PurgeState) (r : CleanupEvent) : Bool :=
  decide (r.status = .purgeSubmitted) ||
    (s.stage.boundaries.map Boundary.eventId).contains r.eventId ||
    decide (s.stage.submitting = some r.eventId)

/-! ## Writes of `enqueued_at` -/

namespace EventStatement

def clock : EventStatement → Int
  | ingesting now _ _ _ _ _ => now
  | enqueued now _ _ _ _ _ _ => now
  | discarded now _ _ _ _ _ => now
  | unproven now _ _ _ _ _ => now
  | recoverStale now _ _ => now
  | audit now _ _ _ => now
  | enqueueVerified now _ _ => now
  | enqueueForced now _ _ => now
  | _ => 0

/-- The existing rows whose `enqueued_at` the statement sets to its clock. -/
def restamps (store : OntologyStore) (t : EventTable) (r : CleanupEvent) : EventStatement → Bool
  | recoverStale _ cutoff limit =>
      (EventTable.ontologyIdOf store r.eventId).isSome && r.status.isIngestBlocker &&
        ((t.staleBlockers cutoff limit).map CleanupEvent.eventId).contains r.eventId
  | enqueueVerified _ c _ => EventTable.inAuditState c .backfillAuditVerified r
  | enqueueForced _ c _ => EventTable.inAuditState c .backfillAuditBlocked r
  | _ => false

theorem newRow_enqueuedAt {stmt : EventStatement} {r : CleanupEvent} (h : stmt.newRow = some r) :
    r.enqueuedAt = stmt.clock := by
  cases stmt <;> cases h <;> rfl

theorem rewrite_enqueuedAt (store : OntologyStore) (t : EventTable) (stmt : EventStatement)
    (r : CleanupEvent) :
    (stmt.rewrite store t r).enqueuedAt =
      if stmt.restamps store t r then stmt.clock else r.enqueuedAt := by
  cases stmt with
  | recoverStale now cutoff limit =>
      simp only [rewrite]
      by_cases hstamp : restamps store t r (recoverStale now cutoff limit) = true
      · have hcond := hstamp
        simp only [restamps, Bool.and_eq_true, List.contains_iff_mem] at hcond
        obtain ⟨id, hid⟩ := Option.isSome_iff_exists.mp hcond.1.1
        rw [if_pos hstamp, EventTable.recoverRow_of_blocker hid ⟨hcond.2, hcond.1.2⟩]
        rfl
      · rw [if_neg hstamp]
        rcases EventTable.recoverRow_spec store now
          ((t.staleBlockers cutoff limit).map CleanupEvent.eventId) r with
          heq | ⟨id, hid, hmem, hblocker, _⟩
        · rw [heq]
        · refine absurd ?_ hstamp
          simp only [restamps, hid, hblocker, Option.isSome_some, Bool.true_and,
            List.contains_iff_mem]
          exact hmem
  | enqueueVerified now c summary => exact apply_ite CleanupEvent.enqueuedAt _ _ _
  | enqueueForced now c summary => exact apply_ite CleanupEvent.enqueuedAt _ _ _
  | _ =>
      simp only [rewrite, restamps, Bool.false_eq_true, if_false]
      repeat' split
      all_goals rfl

theorem restamps_status {store : OntologyStore} {t : EventTable} {stmt : EventStatement}
    {r : CleanupEvent} (h : stmt.restamps store t r = true) :
    (stmt.rewrite store t r).status = .pendingPurge := by
  cases stmt with
  | recoverStale now cutoff limit =>
      simp only [restamps, Bool.and_eq_true, List.contains_iff_mem] at h
      obtain ⟨id, hid⟩ := Option.isSome_iff_exists.mp h.1.1
      simp only [rewrite, EventTable.recoverRow_of_blocker hid ⟨h.2, h.1.2⟩]
      rfl
  | enqueueVerified now c summary =>
      simp only [restamps] at h
      simp only [rewrite, h, if_true]
      rfl
  | enqueueForced now c summary =>
      simp only [restamps] at h
      simp only [rewrite, h, if_true]
      rfl
  | _ => cases h

end EventStatement

/-! ## What the worker carries from one step to the next -/

section Carried

variable {codec : PurgeCodec} {s : PurgeState} {a : Action} {p : Plan}

theorem completing_recordPurgeFailure (maxAttempts : Int) (candidate : CleanupEvent)
    (attempt : Int) (error : String) :
    (recordPurgeFailure maxAttempts candidate attempt error).completing = none := by
  unfold recordPurgeFailure
  split <;> rfl

theorem submitting_recordPurgeFailure (maxAttempts : Int) (candidate : CleanupEvent)
    (attempt : Int) (error : String) :
    (recordPurgeFailure maxAttempts candidate attempt error).submitting = none := by
  unfold recordPurgeFailure
  split <;> rfl

theorem completing_afterSubmitRoom (maxAttempts : Int) (candidate : RoomHistoryPurge)
    (attempt : Int) (outcome : HttpOutcome) :
    (afterSubmitRoom codec maxAttempts candidate attempt outcome).completing = none := by
  unfold afterSubmitRoom
  split
  · rfl
  · split <;> rfl

theorem submitting_afterSubmitRoom (maxAttempts : Int) (candidate : RoomHistoryPurge)
    (attempt : Int) (outcome : HttpOutcome) :
    (afterSubmitRoom codec maxAttempts candidate attempt outcome).submitting = none := by
  unfold afterSubmitRoom
  split
  · rfl
  · split <;> rfl

/-- A pending completion is among the boundaries held. -/
theorem mem_boundaries_of_completing {stage : Stage} {b : Boundary}
    (h : stage.completing = some b) : b ∈ stage.boundaries := by
  cases stage with
  | pollWrite write submitted submittedRooms =>
      have hwrite : write.completing = some b := h
      simp [Stage.boundaries, hwrite]
  | settle write due dueRooms =>
      have hwrite : write.completing = some b := h
      simp [Stage.boundaries, hwrite]
  | _ => cases h

/-- A boundary enters the cycle from the list of submitted rows or from the list of due
rooms. -/
theorem planned_boundaries (h : Planned codec s a p) {b : Boundary}
    (hb : b ∈ p.stage.boundaries) :
    b ∈ s.stage.boundaries ∨
      (p.events = .keep ∧ ∃ c ∈ s.events, c.status = .purgeSubmitted ∧ c.boundary = b) ∨
      (p.events = .keep ∧ ∃ now slots, a = .advance now ∧ s.stage = .listDue slots ∧
        ∃ c ∈ s.dueBoundaries slots, c.boundary = b) := by
  cases h with
  | begin config now runBackfill hstage =>
      simp only at hb
      split at hb <;> cases hb
  | requeueRooms now runBackfill hstage =>
      simp only at hb
      split at hb <;> cases hb
  | audit now verified summary candidate queue scanned recorded hstage =>
      simp only at hb
      split at hb <;> cases hb
  | listSubmitted now hstage =>
      obtain ⟨c, hc, rfl⟩ := List.mem_map.mp hb
      obtain ⟨hmem, hstatus⟩ := EventTable.listSubmitted_spec hc
      exact Or.inr (Or.inl ⟨rfl, c, hmem, hstatus, rfl⟩)
  | listDue now slots hstage =>
      obtain ⟨c, hc, rfl⟩ := List.mem_map.mp hb
      exact Or.inr (Or.inr ⟨rfl, now, slots, rfl, hstage, c, hc, rfl⟩)
  | listSubmittedRooms now submitted hstage => exact Or.inl (hstage ▸ hb)
  | listDueRooms now slots due hstage => exact Or.inl (hstage ▸ hb)
  | pollKept outcome candidate submitted submittedRooms hstage hpoll =>
      exact Or.inl (hstage ▸ List.mem_cons_of_mem _ hb)
  | polled outcome candidate submitted submittedRooms write hstage hpoll =>
      rw [hstage]
      refine Or.inl ?_
      rcases pollSubmittedPurge_spec hpoll with ⟨rfl, _, _⟩ | ⟨error, rfl⟩
      · exact hb
      · simp only [Stage.boundaries, completing_recordPurgeFailure, Option.toList_none,
          List.nil_append] at hb
        exact List.mem_cons_of_mem _ hb
  | pollRoomKept outcome candidate submittedRooms hstage hpoll => exact Or.inl (hstage ▸ hb)
  | polledRoom outcome candidate submittedRooms write hstage hpoll =>
      rcases pollSubmittedRoomHistoryPurge_spec hpoll with ⟨rfl, _, _⟩ | ⟨error, rfl⟩ <;>
        cases hb
  | pollWrite now ok write submitted submittedRooms hstage =>
      exact Or.inl (hstage ▸ List.mem_append_right _ hb)
  | attempt now candidate due dueRooms hstage => exact Or.inl (hstage ▸ hb)
  | attemptFailed now candidate due dueRooms hstage =>
      exact Or.inl (hstage ▸ List.mem_cons_of_mem _ hb)
  | attemptRoomFailed now candidate dueRooms hstage => exact Or.inl (hstage ▸ hb)
  | prepared now candidate attempt request due dueRooms hstage hrequest =>
      exact Or.inl (hstage ▸ hb)
  | sent outcome accepted candidate attempt request due dueRooms hstage =>
      rw [hstage]
      refine Or.inl ?_
      simp only [afterSubmit] at hb
      split at hb
      · exact List.mem_cons_of_mem _ hb
      · split at hb
        · exact hb
        · simp only [Stage.boundaries, completing_recordPurgeFailure, Option.toList_none,
            List.nil_append] at hb
          exact List.mem_cons_of_mem _ hb
  | sentRoom outcome accepted candidate attempt dueRooms hstage =>
      simp [Stage.boundaries, completing_afterSubmitRoom] at hb
  | failed action candidate attempt error due dueRooms hstage =>
      simp only [Stage.boundaries, completing_recordPurgeFailure, Option.toList_none,
        List.nil_append] at hb
      rcases hstage with hstage | hstage <;>
        exact Or.inl (hstage ▸ List.mem_cons_of_mem _ hb)
  | probed now candidate attempt due dueRooms hstage hnewer => exact Or.inl (hstage ▸ hb)
  | settle now ok write due dueRooms hstage =>
      exact Or.inl (hstage ▸ List.mem_append_right _ hb)
  | ingest stmt hingest => exact Or.inl hb
  | storeMessage msg => exact Or.inl hb
  | census stmt hcensus => exact Or.inl hb
  | reorderEvents rows => exact Or.inl hb
  | reorderRooms rows => exact Or.inl hb
  | finish purgeId outcome => exact Or.inl hb
  | _ => cases hb

/-- A task id is recorded for a boundary that was held. -/
theorem planned_submitting (h : Planned codec s a p) {eventId : String}
    (he : p.stage.submitting = some eventId) :
    s.stage.submitting = some eventId ∨ ∃ b ∈ s.stage.boundaries, b.eventId = eventId := by
  cases h with
  | begin config now runBackfill hstage =>
      simp only at he
      split at he <;> cases he
  | requeueRooms now runBackfill hstage =>
      simp only at he
      split at he <;> cases he
  | audit now verified summary candidate queue scanned recorded hstage =>
      simp only at he
      split at he <;> cases he
  | polled outcome candidate submitted submittedRooms write hstage hpoll =>
      rcases pollSubmittedPurge_spec hpoll with ⟨rfl, _, _⟩ | ⟨error, rfl⟩
      · cases he
      · simp only [Stage.submitting, submitting_recordPurgeFailure] at he
        cases he
  | polledRoom outcome candidate submittedRooms write hstage hpoll =>
      rcases pollSubmittedRoomHistoryPurge_spec hpoll with ⟨rfl, _, _⟩ | ⟨error, rfl⟩ <;>
        cases he
  | sent outcome accepted candidate attempt request due dueRooms hstage =>
      simp only [afterSubmit] at he
      split at he
      · cases he
        exact Or.inr ⟨candidate.boundary, hstage ▸ List.mem_cons_self, rfl⟩
      · split at he
        · cases he
        · simp only [Stage.submitting, submitting_recordPurgeFailure] at he
          cases he
  | sentRoom outcome accepted candidate attempt dueRooms hstage =>
      simp only [Stage.submitting, submitting_afterSubmitRoom] at he
      cases he
  | failed action candidate attempt error due dueRooms hstage =>
      simp only [Stage.submitting, submitting_recordPurgeFailure] at he
      cases he
  | ingest stmt hingest => exact Or.inl he
  | storeMessage msg => exact Or.inl he
  | census stmt hcensus => exact Or.inl he
  | reorderEvents rows => exact Or.inl he
  | reorderRooms rows => exact Or.inl he
  | finish purgeId outcome => exact Or.inl he
  | _ => cases he

theorem onEvents_submitted {write : PurgeWrite} {now now' : Int} {eventId purgeId : String}
    (h : write.onEvents now = .submitted now' eventId purgeId) :
    write = .eventSubmitted eventId purgeId := by
  cases write <;> cases h
  rfl

/-- The worker makes a row submitted only where it records a task id. -/
theorem planned_submitted (h : Planned codec s a p) {now : Int} {eventId purgeId : String}
    (he : p.events = .submitted now eventId purgeId) : s.stage.submitting = some eventId := by
  cases h with
  | ingest stmt hingest =>
      simp only at he
      rw [he] at hingest
      cases hingest
  | enqueue now' candidate kind summary queue hstage => cases kind <;> cases he
  | pollWrite now' ok write submitted submittedRooms hstage =>
      rw [hstage]
      cases ok with
      | true => rw [onEvents_submitted he]; rfl
      | false => cases he
  | settle now' ok write due dueRooms hstage =>
      rw [hstage]
      cases ok with
      | true => rw [onEvents_submitted he]; rfl
      | false => cases he
  | _ => cases he

theorem planned_completing (h : Planned codec s a p) {now enqueuedAt : Int} {roomId : String}
    (he : p.events = .succeededThrough now roomId enqueuedAt) :
    ∃ b, s.stage.completing = some b ∧ b.roomId = roomId ∧ b.enqueuedAt = enqueuedAt := by
  cases h with
  | ingest stmt hingest =>
      simp only at he
      rw [he] at hingest
      cases hingest
  | enqueue now' candidate kind summary queue hstage => cases kind <;> cases he
  | pollWrite now' ok write submitted submittedRooms hstage =>
      rw [hstage]
      cases ok with
      | true => cases write <;> cases he; exact ⟨_, rfl, rfl, rfl⟩
      | false => cases he
  | settle now' ok write due dueRooms hstage =>
      rw [hstage]
      cases ok with
      | true => cases write <;> cases he; exact ⟨_, rfl, rfl, rfl⟩
      | false => cases he
  | _ => cases he

/-- Rows are restamped only while the worker holds no boundary. -/
theorem planned_restamps (h : Planned codec s a p) {store : OntologyStore} {t : EventTable}
    {r : CleanupEvent} (hr : p.events.restamps store t r = true) :
    p.stage.boundaries = [] ∧ p.stage.submitting = none := by
  cases h with
  | ingest stmt hingest => cases stmt <;> first | cases hr | cases hingest
  | recover now runBackfill hstage => exact ⟨rfl, rfl⟩
  | enqueue now candidate kind summary queue hstage => exact ⟨rfl, rfl⟩
  | pollWrite now ok write submitted submittedRooms hstage =>
      cases ok <;> cases write <;> cases hr
  | settle now ok write due dueRooms hstage => cases ok <;> cases write <;> cases hr
  | _ => cases hr

end Carried

/-! ## The timeline -/

section Timeline

variable (position : String → Nat)

/-- The clock of a statement lies between the rows before and the rows after `x` in the
timeline of its room, and after every live boundary before `x`. -/
def StampInOrder (s : PurgeState) (stmt : EventStatement) (x : CleanupEvent) : Prop :=
  ∀ y ∈ s.events.rows, y.roomId = x.roomId → stmt.restamps s.messages s.events y = false →
    (position y.eventId < position x.eventId →
      y.enqueuedAt ≤ stmt.clock ∧ (s.isLive y = true → y.enqueuedAt < stmt.clock)) ∧
    (position x.eventId < position y.eventId → stmt.clock ≤ y.enqueuedAt)

/-- Every `enqueued_at` that the statement writes is in order. -/
def StampsInOrder (s : PurgeState) (stmt : EventStatement) : Prop :=
  (∀ x ∈ s.events.rows, stmt.restamps s.messages s.events x = true →
    StampInOrder position s stmt x) ∧
  ∀ row ∈ stmt.newRow.toList, ¬ s.events.HasKey row.eventId → StampInOrder position s stmt row

/-- No boundary is chosen in the second of a later row of its room. -/
def BoundaryUntied (s : PurgeState) (slots : Nat) : Prop :=
  ∀ c ∈ s.dueBoundaries slots, ∀ y ∈ s.events.rows, y.roomId = c.roomId →
    position c.eventId < position y.eventId → y.enqueuedAt ≠ c.enqueuedAt

instance (s : PurgeState) (stmt : EventStatement) (x : CleanupEvent) :
    Decidable (StampInOrder position s stmt x) := by
  unfold StampInOrder
  infer_instance

instance (s : PurgeState) (stmt : EventStatement) : Decidable (StampsInOrder position s stmt) := by
  unfold StampsInOrder
  infer_instance

instance (s : PurgeState) (slots : Nat) : Decidable (BoundaryUntied position s slots) := by
  unfold BoundaryUntied
  infer_instance

/-- The condition on a step: its stamps are in order, and where it lists the due rooms the
boundaries chosen are untied. -/
def inTimelineOrder (codec : PurgeCodec) (s : PurgeState) (a : Action) : Bool :=
  (match plan codec s a with
    | none => true
    | some p => decide (StampsInOrder position s p.events)) &&
  (match a, s.stage with
    | .advance _, .listDue slots => decide (BoundaryUntied position s slots)
    | _, _ => true)

structure BoundaryInv (s : PurgeState) : Prop where
  ordered : ∀ x ∈ s.events, ∀ y ∈ s.events, x.roomId = y.roomId →
    position x.eventId < position y.eventId → x.enqueuedAt ≤ y.enqueuedAt
  live : ∀ r ∈ s.events, s.isLive r = true → ∀ y ∈ s.events, y.roomId = r.roomId →
    position r.eventId < position y.eventId → r.enqueuedAt < y.enqueuedAt
  held : ∀ b ∈ s.stage.boundaries, ∃ r ∈ s.events, r.boundary = b
  submitting : ∀ eventId, s.stage.submitting = some eventId → ∃ r ∈ s.events, r.eventId = eventId

section Step

variable {position} {codec : PurgeCodec} {s : PurgeState} {a : Action} {p : Plan}

theorem isLive_iff {s : PurgeState} {r : CleanupEvent} :
    s.isLive r = true ↔ r.status = .purgeSubmitted ∨
      (∃ b ∈ s.stage.boundaries, b.eventId = r.eventId) ∨
        s.stage.submitting = some r.eventId := by
  simp [PurgeState.isLive, or_assoc]

/-- A row is live after a step only where it was live before, or becomes a boundary. -/
theorem isLive_of_step (h : Planned codec s a p) {r : CleanupEvent} (hr : r ∈ s.events)
    (hlive : (s.perform p).isLive (p.events.rewrite s.messages s.events r) = true) :
    s.isLive r = true ∨ (p.events = .keep ∧ ∃ now slots, a = .advance now ∧
      s.stage = .listDue slots ∧ ∃ c ∈ s.dueBoundaries slots, c.eventId = r.eventId) := by
  rw [isLive_iff, EventStatement.rewrite_eventId] at hlive
  rcases hlive with hstatus | ⟨b, hb, hid⟩ | hsubmitting
  · rcases EventStatement.submitted_of_rewrite hstatus with hsame | ⟨now, purgeId, hstmt⟩
    · rw [hsame] at hstatus
      exact Or.inl (isLive_iff.2 (Or.inl hstatus))
    · exact Or.inl (isLive_iff.2 (Or.inr (Or.inr (planned_submitted h hstmt))))
  · rcases planned_boundaries h hb with hold | ⟨_, c, hc, hstatus, hcb⟩ |
      ⟨hkeep, now, slots, ha, hstage, c, hc, hcb⟩
    · exact Or.inl (isLive_iff.2 (Or.inr (Or.inl ⟨b, hold, hid⟩)))
    · have heq : c = r := Table.eq_of_key_eq hc hr (by rw [← hid, ← hcb]; rfl)
      exact Or.inl (isLive_iff.2 (Or.inl (heq ▸ hstatus)))
    · exact Or.inr ⟨hkeep, now, slots, ha, hstage, c, hc, by rw [← hid, ← hcb]; rfl⟩
  · rcases planned_submitting h hsubmitting with hold | ⟨b, hb, hid⟩
    · exact Or.inl (isLive_iff.2 (Or.inr (Or.inr hold)))
    · exact Or.inl (isLive_iff.2 (Or.inr (Or.inl ⟨b, hb, hid⟩)))

theorem not_isLive_of_restamps (h : Planned codec s a p) {r : CleanupEvent}
    (hstamp : p.events.restamps s.messages s.events r = true) :
    (s.perform p).isLive (p.events.rewrite s.messages s.events r) = false := by
  obtain ⟨hboundaries, hsubmitting⟩ := planned_restamps h hstamp
  simp [PurgeState.isLive, PurgeState.perform, hboundaries, hsubmitting,
    EventStatement.restamps_status hstamp]

/-- A row just inserted is not live: no boundary is held for an event without a row. -/
theorem not_isLive_of_newRow (h : Planned codec s a p) (hinv : BoundaryInv position s)
    {row : CleanupEvent} (hnew : p.events.newRow = some row)
    (hfree : ¬ s.events.HasKey row.eventId) : ¬ (s.perform p).isLive row = true := by
  intro hlive
  have hheld : ∀ b ∈ s.stage.boundaries, b.eventId ≠ row.eventId := by
    intro b hb hid
    obtain ⟨r, hr, hrb⟩ := hinv.held b hb
    exact hfree (Table.hasKey_iff.mpr ⟨r, hr, by rw [← hid, ← hrb]; rfl⟩)
  have hrecording : s.stage.submitting ≠ some row.eventId := by
    intro hsub
    obtain ⟨r, hr, hid⟩ := hinv.submitting _ hsub
    exact hfree (Table.hasKey_iff.mpr ⟨r, hr, hid⟩)
  rcases isLive_iff.1 hlive with hstatus | ⟨b, hb, hid⟩ | hsubmitting
  · exact (EventStatement.newRow_status hnew).1 hstatus
  · rcases planned_boundaries h hb with hold | ⟨hkeep, _⟩ | ⟨hkeep, _⟩
    · exact hheld b hold hid
    · rw [hkeep] at hnew
      cases hnew
    · rw [hkeep] at hnew
      cases hnew
  · rcases planned_submitting h hsubmitting with hold | ⟨b, hb, hid⟩
    · exact hrecording hold
    · exact hheld b hb hid

/-! ## The invariant -/

theorem stamps_of_guard (hplan : plan codec s a = some p)
    (hguard : inTimelineOrder position codec s a = true) : StampsInOrder position s p.events := by
  simp only [inTimelineOrder, hplan, Bool.and_eq_true, decide_eq_true_eq] at hguard
  exact hguard.1

/-- How two rows of the table after a step compare: each is an old row, stamped or not, or the
row inserted. -/
theorem rows_of_step (h : StampsInOrder position s p.events) {r : CleanupEvent}
    (hr : r ∈ (s.perform p).events) :
    (∃ old ∈ s.events, r.eventId = old.eventId ∧ r.roomId = old.roomId ∧
      r = p.events.rewrite s.messages s.events old ∧ r.enqueuedAt = old.enqueuedAt ∧
        p.events.restamps s.messages s.events old = false) ∨
      (r.enqueuedAt = p.events.clock ∧ StampInOrder position s p.events r ∧
        ((∃ old ∈ s.events, r = p.events.rewrite s.messages s.events old ∧
          p.events.restamps s.messages s.events old = true) ∨
          (p.events.newRow = some r ∧ ¬ s.events.HasKey r.eventId))) := by
  rcases EventStatement.mem_apply.mp hr with ⟨old, hold, rfl⟩ | ⟨hnew, hfree⟩
  · have hid := EventStatement.rewrite_eventId s.messages s.events p.events old
    have hroom := EventStatement.rewrite_roomId s.messages s.events p.events old
    have henq := EventStatement.rewrite_enqueuedAt s.messages s.events p.events old
    cases hstamp : p.events.restamps s.messages s.events old with
    | false =>
        rw [hstamp, if_neg (by simp)] at henq
        exact Or.inl ⟨old, hold, hid, hroom, rfl, henq, hstamp⟩
    | true =>
        rw [hstamp, if_pos rfl] at henq
        have horder := h.1 old hold hstamp
        rw [StampInOrder] at horder
        refine Or.inr ⟨henq, ?_, Or.inl ⟨old, hold, rfl, hstamp⟩⟩
        rw [StampInOrder, hid, hroom]
        exact horder
  · refine Or.inr ⟨EventStatement.newRow_enqueuedAt hnew, h.2 r ?_ hfree, Or.inr ⟨hnew, hfree⟩⟩
    simp [hnew]

theorem ordered_step (hinv : BoundaryInv position s) (hstamps : StampsInOrder position s p.events) :
    ∀ x ∈ (s.perform p).events, ∀ y ∈ (s.perform p).events, x.roomId = y.roomId →
      position x.eventId < position y.eventId → x.enqueuedAt ≤ y.enqueuedAt := by
  intro x hx y hy hroom hbefore
  rcases rows_of_step hstamps hx with ⟨xo, hxo, hxid, hxroom, _, hxenq, hxstamp⟩ | ⟨hxenq, hxord, _⟩
  · rcases rows_of_step hstamps hy with ⟨yo, hyo, hyid, hyroom, _, hyenq, _⟩ | ⟨hyenq, hyord, _⟩
    · rw [hxenq, hyenq]
      rw [hxid, hyid] at hbefore
      rw [hxroom, hyroom] at hroom
      exact hinv.ordered xo hxo yo hyo hroom hbefore
    · rw [hxenq, hyenq]
      rw [hxid] at hbefore
      rw [hxroom] at hroom
      exact ((hyord xo hxo hroom hxstamp).1 hbefore).1
  · rcases rows_of_step hstamps hy with ⟨yo, hyo, hyid, hyroom, _, hyenq, hystamp⟩ | ⟨hyenq, _, _⟩
    · rw [hxenq, hyenq]
      rw [hyid] at hbefore
      rw [hyroom] at hroom
      exact (hxord yo hyo hroom.symm hystamp).2 hbefore
    · rw [hxenq, hyenq]

/-- A boundary listed as due has every later row of its room in a later second. -/
theorem live_of_due (hinv : BoundaryInv position s) {now : Int} {slots : Nat}
    (hstage : s.stage = .listDue slots)
    (hguard : inTimelineOrder position codec s (.advance now) = true) {c : CleanupEvent}
    (hc : c ∈ s.dueBoundaries slots) :
    ∀ y ∈ s.events, y.roomId = c.roomId → position c.eventId < position y.eventId →
      c.enqueuedAt < y.enqueuedAt := by
  intro y hy hroom hbefore
  simp only [inTimelineOrder, hstage, Bool.and_eq_true, decide_eq_true_eq] at hguard
  have hne := hguard.2 c hc y hy hroom hbefore
  have hle := hinv.ordered c (EventTable.listDueRoomBoundaries_spec hc).1 y hy hroom.symm hbefore
  omega

theorem live_step (hplan : Planned codec s a p) (hinv : BoundaryInv position s)
    (hstamps : StampsInOrder position s p.events)
    (hguard : inTimelineOrder position codec s a = true) :
    ∀ r ∈ (s.perform p).events, (s.perform p).isLive r = true →
      ∀ y ∈ (s.perform p).events, y.roomId = r.roomId →
        position r.eventId < position y.eventId → r.enqueuedAt < y.enqueuedAt := by
  intro r hr hlive y hy hroom hbefore
  rcases rows_of_step hstamps hr with
    ⟨ro, hro, hrid, hrroom, rfl, hrenq, hrstamp⟩ | ⟨_, _, ⟨ro, hro, rfl, hrstamp⟩ | ⟨hnew, hfree⟩⟩
  · rw [hrenq]
    rw [hrid] at hbefore
    rw [hrroom] at hroom
    rcases isLive_of_step hplan hro hlive with hold | ⟨hkeep, now, slots, rfl, hstage, c, hc, hid⟩
    · rcases rows_of_step hstamps hy with
        ⟨yo, hyo, hyid, hyroom, _, hyenq, _⟩ | ⟨hyenq, hyord, _⟩
      · rw [hyenq]
        rw [hyid] at hbefore
        rw [hyroom] at hroom
        exact hinv.live ro hro hold yo hyo hroom hbefore
      · rw [hyenq]
        exact ((hyord ro hro hroom.symm hrstamp).1 hbefore).2 hold
    · -- the step that lists the boundary writes no row
      have heq : c = ro :=
        Table.eq_of_key_eq (EventTable.listDueRoomBoundaries_spec hc).1 hro hid
      have hyold : y ∈ s.events := by
        rw [PurgeState.perform, hkeep] at hy
        exact hy
      exact heq ▸ live_of_due hinv hstage hguard hc y hyold (heq ▸ hroom) (heq ▸ hbefore)
  · rw [not_isLive_of_restamps hplan hrstamp] at hlive
    cases hlive
  · exact absurd hlive (not_isLive_of_newRow hplan hinv hnew hfree)

theorem held_step (hplan : Planned codec s a p) (hinv : BoundaryInv position s) :
    ∀ b ∈ p.stage.boundaries, ∃ r ∈ (s.perform p).events, r.boundary = b := by
  intro b hb
  have hnostamp : ∀ r : CleanupEvent, p.events.restamps s.messages s.events r = false := by
    intro r
    cases hstamp : p.events.restamps s.messages s.events r with
    | false => rfl
    | true =>
        rw [(planned_restamps hplan hstamp).1] at hb
        cases hb
  have hold : ∃ r ∈ s.events, r.boundary = b := by
    rcases planned_boundaries hplan hb with hb | ⟨_, c, hc, _, hcb⟩ | ⟨_, _, _, _, _, c, hc, hcb⟩
    · exact hinv.held b hb
    · exact ⟨c, hc, hcb⟩
    · exact ⟨c, (EventTable.listDueRoomBoundaries_spec hc).1, hcb⟩
  obtain ⟨r, hr, rfl⟩ := hold
  refine ⟨_, EventStatement.mem_apply.mpr (Or.inl ⟨r, hr, rfl⟩), ?_⟩
  simp only [CleanupEvent.boundary, EventStatement.rewrite_eventId, EventStatement.rewrite_roomId,
    EventStatement.rewrite_enqueuedAt, hnostamp r, Bool.false_eq_true, if_false]

theorem submitting_step (hplan : Planned codec s a p) (hinv : BoundaryInv position s) :
    ∀ eventId, p.stage.submitting = some eventId →
      ∃ r ∈ (s.perform p).events, r.eventId = eventId := by
  intro eventId hsubmitting
  have hold : ∃ r ∈ s.events, r.eventId = eventId := by
    rcases planned_submitting hplan hsubmitting with h | ⟨b, hb, rfl⟩
    · exact hinv.submitting eventId h
    · obtain ⟨r, hr, rfl⟩ := hinv.held b hb
      exact ⟨r, hr, rfl⟩
  obtain ⟨r, hr, rfl⟩ := hold
  exact ⟨_, EventStatement.mem_apply.mpr (Or.inl ⟨r, hr, rfl⟩),
    EventStatement.rewrite_eventId _ _ _ _⟩

theorem boundaryInv_step {next : PurgeState} (hinv : BoundaryInv position s)
    (hguard : inTimelineOrder position codec s a = true) (hstep : step codec s a = some next) :
    BoundaryInv position next := by
  obtain ⟨p, hp, rfl⟩ := Option.map_eq_some_iff.mp hstep
  have hplan := plan_spec hp
  have hstamps := stamps_of_guard hp hguard
  exact ⟨ordered_step hinv hstamps, live_step hplan hinv hstamps hguard, held_step hplan hinv,
    submitting_step hplan hinv⟩

theorem boundaryInv_initial : BoundaryInv position PurgeState.initial where
  ordered := fun x hx => (Table.not_mem_empty x hx).elim
  live := fun r hr => (Table.not_mem_empty r hr).elim
  held := fun _ hb => by cases hb
  submitting := fun _ h => by cases h

/-- A step that completes a row does so for a boundary at or after it in the timeline. -/
theorem completed_of_step {next : PurgeState} (hinv : BoundaryInv position s)
    (hstep : step codec s a = some next) {r r' : CleanupEvent} (hr : r ∈ s.events)
    (hr' : r' ∈ next.events) (hid : r'.eventId = r.eventId) (hopen : r.status ≠ .purgeSucceeded)
    (hdone : r'.status = .purgeSucceeded) :
    ∃ b, s.stage.completing = some b ∧ r.roomId = b.roomId ∧
      position r.eventId ≤ position b.eventId := by
  obtain ⟨p, hplan, rfl⟩ := step_spec hstep
  have hrow : r' = p.events.rewrite s.messages s.events r := by
    refine Table.eq_of_key_eq hr' (EventStatement.mem_apply.mpr (Or.inl ⟨r, hr, rfl⟩)) ?_
    rw [hid, EventStatement.rewrite_eventId]
  rw [hrow] at hdone
  rcases EventStatement.succeeded_of_rewrite hdone with hsame | ⟨now, room, enq, hstmt, hcomp⟩
  · rw [hsame] at hdone
    exact absurd hdone hopen
  · obtain ⟨b, hb, rfl, rfl⟩ := planned_completing hplan hstmt
    simp only [EventTable.completes, Bool.and_eq_true, decide_eq_true_eq] at hcomp
    refine ⟨b, hb, hcomp.1.1, ?_⟩
    have hmem := mem_boundaries_of_completing hb
    obtain ⟨row, hrow, rfl⟩ := hinv.held b hmem
    have hlive : s.isLive row = true :=
      isLive_iff.2 (Or.inr (Or.inl ⟨row.boundary, hmem, rfl⟩))
    refine Nat.le_of_not_lt (fun hlater => ?_)
    have hlt := hinv.live row hrow hlive r hr hcomp.1.1 hlater
    have hle : r.enqueuedAt ≤ row.enqueuedAt := hcomp.1.2
    omega

end Step

end Timeline

/-! ## Completion in every run -/

/-- In every run whose stamps follow the timeline and whose boundaries are untied, a step that
moves a row to succeeded completes a boundary of its room at or after the row. -/
theorem completed_rows_covered {codec : PurgeCodec} {position : String → Nat}
    {actions : List Action} {s next : PurgeState} {a : Action}
    (hguard : Transition.Meets (step codec) (fun s a => inTimelineOrder position codec s a = true)
      PurgeState.initial actions)
    (hrun : Transition.run (step codec) PurgeState.initial actions = some s)
    (hstep : step codec s a = some next) :
    ∀ r ∈ s.events, ∀ r' ∈ next.events, r'.eventId = r.eventId → r.status ≠ .purgeSucceeded →
      r'.status = .purgeSucceeded → ∃ b, s.stage.completing = some b ∧ r.roomId = b.roomId ∧
        position r.eventId ≤ position b.eventId := by
  have hinv : BoundaryInv position s := Transition.run_invariant
    (fun s a next hinv hok hstep => boundaryInv_step hinv hok hstep) boundaryInv_initial hguard
    hrun
  intro r hr r' hr' hid hopen hdone
  exact completed_of_step hinv hstep hr hr' hid hopen hdone

/-! ## Two runs -/

/-- The assumption on the timeline: a marker inserted for a new event comes after every row of
its room. -/
def markersInOrder (position : String → Nat) (s : PurgeState) : Action → Bool
  | .ingest stmt =>
      match stmt.newRow with
      | none => true
      | some row =>
          decide (s.events.HasKey row.eventId) || s.events.rows.all (fun y =>
            !decide (y.roomId = row.roomId) || decide (position y.eventId < position row.eventId))
  | _ => true

namespace TimelineExample

def position (eventId : String) : Nat :=
  if eventId = "$e1" then 1 else if eventId = "$e2" then 2 else 0

def message (eventId content : String) (createdAt : Int) : NewOntMessage where
  userId := 1
  roomId := "!r:s"
  platform := "whatsapp"
  senderName := "Ada"
  senderKey := none
  content := content
  personId := none
  createdAt := createdAt
  matrixEventId := some eventId

/-- A cycle up to the list of due rooms, with nothing to poll. -/
def cycle (now : Int) : List Action :=
  .begin EventPurgeConfig.default now false :: List.replicate 9 (.advance now)

def submission (now : Int) (purgeId body : String) : List Action :=
  [.write now true, .advance now, .submit (.response 200 (.ok body)) (some purgeId),
    .write now true, .advance now]

/-- The next cycle polls the submitted boundary and finds it complete. -/
def completion (now : Int) (purgeId : String) : List Action :=
  .finish purgeId .complete :: .begin EventPurgeConfig.default now false ::
    List.replicate 5 (.advance now) ++
      [.poll (.response 200 (.ok "\x7b\"status\":\"complete\"\x7d"))]

/-- Both events are stored and enqueued; the later one is the boundary. -/
def orderly : List Action :=
  [.ingest (.ingesting 10 1 "whatsapp" "!r:s" "$e1" true),
    .ingest (.ingesting 20 1 "whatsapp" "!r:s" "$e2" true),
    .storeMessage (message "$e1" "hello" 10), .storeMessage (message "$e2" "again" 20),
    .ingest (.enqueued 21 1 1 "whatsapp" "!r:s" "$e1" true),
    .ingest (.enqueued 22 1 2 "whatsapp" "!r:s" "$e2" true)] ++
  cycle 200 ++ submission 200 "p1" "\x7b\"purge_id\":\"p1\"\x7d" ++ completion 300 "p1"

/-- The first event is stored but its marker is left behind, say by a restart; when it is
recovered it gets a later `enqueued_at` than the second event. -/
def recovered : List Action :=
  [.ingest (.ingesting 10 1 "whatsapp" "!r:s" "$e1" true),
    .storeMessage (message "$e1" "hello" 10),
    .ingest (.ingesting 350 1 "whatsapp" "!r:s" "$e2" true),
    .storeMessage (message "$e2" "again" 350),
    .ingest (.enqueued 351 1 2 "whatsapp" "!r:s" "$e2" true)] ++
  cycle 400 ++ .advance 400 :: cycle 500 ++
  submission 500 "p1" "\x7b\"purge_id\":\"p1\"\x7d" ++ completion 600 "p1"

def reached (actions : List Action) : PurgeState :=
  Transition.final (step PollExample.codec) PurgeState.initial actions

def completedNext (actions : List Action) : PurgeState :=
  Transition.final (step PollExample.codec) (reached actions) [.write 600 true]

end TimelineExample

open TimelineExample in
theorem completed_rows_covered_in_order :
    ∃ r ∈ (reached orderly).events, r.eventId = "$e1" ∧
      ∃ b, (reached orderly).stage.completing = some b ∧ r.roomId = b.roomId ∧
        position r.eventId ≤ position b.eventId := by
  have hmarked : ∃ r ∈ (reached orderly).events.rows, ∃ r' ∈ (completedNext orderly).events.rows,
      r.eventId = "$e1" ∧ r'.eventId = r.eventId ∧ r.status ≠ .purgeSucceeded ∧
        r'.status = .purgeSucceeded := by
    decide
  obtain ⟨r, hr, r', hr', hfirst, hid, hopen, hdone⟩ := hmarked
  have hcovered := @completed_rows_covered PollExample.codec position orderly _ _ (.write 600 true)
    (by decide) (Transition.run_eq_final (by decide)) rfl r hr r' hr' hid hopen hdone
  exact ⟨r, hr, hfirst, hcovered⟩

open TimelineExample in
/-- Recovery moves the first event behind the second, so the first becomes the boundary and its
completion marks the second, which the purge did not reach. -/
theorem completion_marks_later_row :
    ¬ ∀ (codec : PurgeCodec) (position : String → Nat) (actions : List Action)
      (s next : PurgeState) (a : Action),
      Transition.Meets (step codec)
        (fun s a => honest codec s a = true ∧ markersInOrder position s a = true)
        PurgeState.initial actions →
      Transition.run (step codec) PurgeState.initial actions = some s →
      step codec s a = some next →
      ∀ r ∈ s.events, ∀ r' ∈ next.events, r'.eventId = r.eventId → r.status ≠ .purgeSucceeded →
        r'.status = .purgeSucceeded → ∃ b, s.stage.completing = some b ∧ r.roomId = b.roomId ∧
          position r.eventId ≤ position b.eventId := by
  intro h
  have hmarked : ∃ r ∈ (reached recovered).events.rows, ∃ r' ∈ (completedNext recovered).events.rows,
      r'.eventId = r.eventId ∧ r.status ≠ .purgeSucceeded ∧ r'.status = .purgeSucceeded ∧
        position "$e1" < position r.eventId := by
    decide
  have hboundary : (reached recovered).stage.completing = some ⟨"$e1", "!r:s", 400⟩ := by decide
  obtain ⟨r, hr, r', hr', hid, hopen, hdone, hlater⟩ := hmarked
  obtain ⟨b, hb, _, hle⟩ := h PollExample.codec position recovered (reached recovered)
    (completedNext recovered) (.write 600 true) (by decide)
    (Transition.run_eq_final (by decide)) rfl r hr r' hr' hid hopen hdone
  rw [hboundary, Option.some.injEq] at hb
  subst hb
  exact Nat.not_lt.mpr hle hlater

end Lightfriend.Purge
