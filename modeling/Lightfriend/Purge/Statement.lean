import Lightfriend.Purge.RoomHistory

/-! # The statements a purge database receives

Every write to the two queues is one repository operation. Reified, an
operation rewrites each row on its own and inserts at most one row, which is
all the invariants of the queues need to know about it.
-/

namespace Lightfriend.Purge

inductive EventStatement
  | keep
  | ingesting (now userId : Int) (service roomId eventId : String) (deleteMedia : Bool)
  | enqueued (now userId ontologyMessageId : Int) (service roomId eventId : String)
      (deleteMedia : Bool)
  | ingestFailed (now : Int) (eventId error : String)
  | discarded (now userId : Int) (service roomId eventId reason : String)
  | unproven (now userId : Int) (service roomId eventId reason : String)
  | recoverStale (now cutoff : Int) (limit : Nat)
  | requeueExhausted (now cutoff : Int) (limit : Nat)
  | audit (now : Int) (c : EventTable.HistoricalBackfillCandidate) (verified : Bool)
      (summary : String)
  | enqueueVerified (now : Int) (c : EventTable.HistoricalBackfillCandidate) (summary : String)
  | enqueueForced (now : Int) (c : EventTable.HistoricalBackfillCandidate) (summary : String)
  | attempt (now : Int) (eventId : String) (attempt : Int)
  | submitted (now : Int) (eventId purgeId : String)
  | retrying (now : Int) (eventId : String) (attempt : Int) (error : String)
  | exhausted (now : Int) (eventId : String) (attempt : Int) (error : String)
  | succeededThrough (now : Int) (roomId : String) (enqueuedAt : Int)
  | reorder (rows : List CleanupEvent)
deriving DecidableEq

namespace EventStatement

/-- A statement that fails leaves the table as it is. -/
def apply (store : OntologyStore) (t : EventTable) : EventStatement → EventTable
  | keep => t
  | ingesting now userId service roomId eventId deleteMedia =>
      t.recordIngesting now userId service roomId eventId deleteMedia
  | enqueued now userId ontologyMessageId service roomId eventId deleteMedia =>
      t.recordEnqueued now userId ontologyMessageId service roomId eventId deleteMedia
  | ingestFailed now eventId error => t.recordIngestFailed now eventId error
  | discarded now userId service roomId eventId reason =>
      t.recordIntentionallyDiscarded now userId service roomId eventId reason
  | unproven now userId service roomId eventId reason =>
      t.recordUnprovenBlocker now userId service roomId eventId reason
  | recoverStale now cutoff limit => t.recoverStaleIngestBlockers store now cutoff limit
  | requeueExhausted now cutoff limit => t.requeueExhausted now cutoff limit
  | audit now c verified summary => t.recordHistoricalBackfillAudit now c verified summary
  | enqueueVerified now c summary => (t.enqueueVerifiedHistoricalBackfill now c summary).getD t
  | enqueueForced now c summary => (t.enqueueForcedHistoricalBackfill now c summary).getD t
  | attempt now eventId n => t.recordAttempt now eventId n
  | submitted now eventId purgeId => t.recordSubmitted now eventId purgeId
  | retrying now eventId n error => t.recordRetrying now eventId n error
  | exhausted now eventId n error => t.recordExhausted now eventId n error
  | succeededThrough now roomId enqueuedAt => t.recordRoomSucceededThrough now roomId enqueuedAt
  | reorder rows => if h : rows.Perm t.rows then t.reorder rows h else t

/-- The row that a statement makes of an old row. -/
def rewrite (store : OntologyStore) (t : EventTable) (r : CleanupEvent) :
    EventStatement → CleanupEvent
  | enqueued now _ ontologyMessageId _ _ eventId deleteMedia =>
      if r.eventId = eventId then r.enqueue now ontologyMessageId deleteMedia else r
  | ingestFailed now eventId error => if r.eventId = eventId then r.failIngest now error else r
  | recoverStale now cutoff limit =>
      EventTable.recoverRow store now ((t.staleBlockers cutoff limit).map CleanupEvent.eventId) r
  | requeueExhausted now cutoff limit =>
      if (t.exhaustedEventIds cutoff limit).contains r.eventId then r.requeue now else r
  | audit now c verified summary =>
      if r.eventId = c.eventId then
        r.auditAs now c.ontologyMessageId (EventTable.auditStatus verified) summary
      else r
  | enqueueVerified now c summary =>
      if EventTable.inAuditState c .backfillAuditVerified r then
        r.enqueueAudited now c.ontologyMessageId "historical_backfill_verified" summary
      else r
  | enqueueForced now c summary =>
      if EventTable.inAuditState c .backfillAuditBlocked r then
        r.enqueueAudited now c.ontologyMessageId "historical_backfill_forced_unverified" summary
      else r
  | attempt now eventId n => if r.eventId = eventId then r.startAttempt now n else r
  | submitted now eventId purgeId => if r.eventId = eventId then r.submit now purgeId else r
  | retrying now eventId n error =>
      if r.eventId = eventId then r.fail now n .purgeRetrying error false else r
  | exhausted now eventId n error =>
      if r.eventId = eventId then r.fail now n .purgeExhausted error true else r
  | succeededThrough now roomId enqueuedAt =>
      if EventTable.completes roomId enqueuedAt r then r.succeed now else r
  | _ => r

/-- The row that a statement inserts when its event has none. -/
def newRow : EventStatement → Option CleanupEvent
  | ingesting now userId service roomId eventId deleteMedia =>
      some (EventTable.ingestingRow now userId service roomId eventId deleteMedia)
  | enqueued now userId ontologyMessageId service roomId eventId deleteMedia =>
      some (EventTable.enqueuedRow now userId ontologyMessageId service roomId eventId deleteMedia)
  | discarded now userId service roomId eventId reason =>
      some (EventTable.discardedRow now userId service roomId eventId reason)
  | unproven now userId service roomId eventId reason =>
      some (EventTable.unprovenRow now userId service roomId eventId reason)
  | audit now c verified summary => some (EventTable.auditRow now c verified summary)
  | _ => none

/-! ## Row by row -/

theorem mem_enqueueAudited {t : EventTable} {now : Int}
    {c : EventTable.HistoricalBackfillCandidate} {required : CleanupStatus}
    {commandKind summary : String} {r : CleanupEvent} :
    r ∈ (t.enqueueAuditedHistoricalBackfill now c required commandKind summary).getD t ↔
      ∃ old ∈ t, r = if EventTable.inAuditState c required old then
        old.enqueueAudited now c.ontologyMessageId commandKind summary else old := by
  unfold EventTable.enqueueAuditedHistoricalBackfill
  split
  next h =>
    have hkey : ∀ s : CleanupEvent, (CleanupEvent.enqueueAudited now c.ontologyMessageId
        commandKind summary s).eventId = s.eventId := fun _ => rfl
    exact Table.mem_updateWhere hkey
  next h =>
    have hnone : ∀ old ∈ t, EventTable.inAuditState c required old = false := by
      simpa using h
    constructor
    · intro hr
      exact ⟨r, hr, by simp [hnone r hr]⟩
    · intro hr
      obtain ⟨old, hold, heq⟩ := hr
      simp only [hnone old hold, Bool.false_eq_true, if_false] at heq
      exact heq ▸ hold

/-- What one statement can do: rewrite the rows one by one and insert a row whose event has
none. -/
theorem mem_apply {store : OntologyStore} {t : EventTable} {stmt : EventStatement}
    {r : CleanupEvent} :
    r ∈ stmt.apply store t ↔
      (∃ old ∈ t, r = stmt.rewrite store t old) ∨
        (stmt.newRow = some r ∧ ¬ t.HasKey r.eventId) := by
  have hinsert : ∀ row : CleanupEvent, r ∈ Table.insertOrIgnore t row ↔
      (∃ old ∈ t, r = old) ∨ (some row = some r ∧ ¬ t.HasKey r.eventId) := by
    intro row
    rw [Table.mem_insertOrIgnore, Option.some.injEq]
    constructor
    · intro h
      rcases h with h | ⟨hfree, rfl⟩
      · exact Or.inl ⟨r, h, rfl⟩
      · exact Or.inr ⟨rfl, hfree⟩
    · intro h
      rcases h with ⟨_, hold, rfl⟩ | ⟨rfl, hfree⟩
      · exact Or.inl hold
      · exact Or.inr ⟨hfree, rfl⟩
  have hupsert : ∀ (row : CleanupEvent) (set : CleanupEvent → CleanupEvent)
      (hkey : ∀ s, (set s).eventId = s.eventId), r ∈ Table.upsert t row set hkey ↔
      (∃ old ∈ t, r = if old.eventId = row.eventId then set old else old) ∨
        (some row = some r ∧ ¬ t.HasKey r.eventId) := by
    intro row set hkey
    rw [Table.mem_upsert, Option.some.injEq]
    refine or_congr Iff.rfl ?_
    constructor
    · intro h
      exact ⟨h.2.symm, h.2 ▸ h.1⟩
    · intro h
      exact ⟨h.1 ▸ h.2, h.1.symm⟩
  have hupdate : ∀ (p : CleanupEvent → Bool) (set : CleanupEvent → CleanupEvent)
      (hkey : ∀ s, (set s).eventId = s.eventId), r ∈ Table.updateWhere t p set hkey ↔
      (∃ old ∈ t, r = if p old then set old else old) ∨
        (none = some r ∧ ¬ t.HasKey r.eventId) := by
    intro p set hkey
    simp [Table.mem_updateWhere hkey]
  have hevent : ∀ (eventId : String) (set : CleanupEvent → CleanupEvent)
      (hkey : ∀ s, (set s).eventId = s.eventId),
      r ∈ Table.updateWhere t (fun s => s.eventId = eventId) set hkey ↔
      (∃ old ∈ t, r = if old.eventId = eventId then set old else old) ∨
        (none = some r ∧ ¬ t.HasKey r.eventId) := by
    intro eventId set hkey
    simp [Table.mem_updateWhere hkey]
  cases stmt with
  | keep => simp [apply, rewrite, newRow]
  | ingesting now userId service roomId eventId deleteMedia => exact hinsert _
  | enqueued now userId ontologyMessageId service roomId eventId deleteMedia =>
      exact hupsert _ (CleanupEvent.enqueue now ontologyMessageId deleteMedia) (fun _ => rfl)
  | ingestFailed now eventId error =>
      exact hevent eventId (CleanupEvent.failIngest now error) (fun _ => rfl)
  | discarded now userId service roomId eventId reason => exact hinsert _
  | unproven now userId service roomId eventId reason => exact hinsert _
  | recoverStale now cutoff limit =>
      simp only [apply, rewrite, newRow, reduceCtorEq, false_and, or_false, Table.mem_def,
        EventTable.recoverStaleIngestBlockers_rows, List.mem_map, eq_comm]
  | requeueExhausted now cutoff limit =>
      exact hupdate (fun s => (t.exhaustedEventIds cutoff limit).contains s.eventId)
        (CleanupEvent.requeue now) (fun _ => rfl)
  | audit now c verified summary =>
      exact hupsert _ (CleanupEvent.auditAs now c.ontologyMessageId
        (EventTable.auditStatus verified) summary) (fun _ => rfl)
  | enqueueVerified now c summary =>
      simp only [newRow, reduceCtorEq, false_and, or_false]
      exact mem_enqueueAudited
  | enqueueForced now c summary =>
      simp only [newRow, reduceCtorEq, false_and, or_false]
      exact mem_enqueueAudited
  | attempt now eventId n =>
      exact hevent eventId (CleanupEvent.startAttempt now n) (fun _ => rfl)
  | submitted now eventId purgeId =>
      exact hevent eventId (CleanupEvent.submit now purgeId) (fun _ => rfl)
  | retrying now eventId n error =>
      exact hevent eventId (CleanupEvent.fail now n .purgeRetrying error false) (fun _ => rfl)
  | exhausted now eventId n error =>
      exact hevent eventId (CleanupEvent.fail now n .purgeExhausted error true) (fun _ => rfl)
  | succeededThrough now roomId enqueuedAt =>
      exact hupdate (EventTable.completes roomId enqueuedAt) (CleanupEvent.succeed now)
        (fun _ => rfl)
  | reorder rows =>
      simp only [apply, rewrite, newRow, reduceCtorEq, false_and, or_false]
      split <;> simp

theorem rewrite_eventId (store : OntologyStore) (t : EventTable) (stmt : EventStatement)
    (r : CleanupEvent) : (stmt.rewrite store t r).eventId = r.eventId := by
  cases stmt <;> simp only [rewrite, EventTable.recoverRow] <;> (repeat' split) <;> rfl

theorem rewrite_roomId (store : OntologyStore) (t : EventTable) (stmt : EventStatement)
    (r : CleanupEvent) : (stmt.rewrite store t r).roomId = r.roomId := by
  cases stmt <;> simp only [rewrite, EventTable.recoverRow] <;> (repeat' split) <;> rfl

theorem newRow_status {stmt : EventStatement} {r : CleanupEvent} (h : stmt.newRow = some r) :
    r.status ≠ .purgeSubmitted ∧ r.status ≠ .purgeSucceeded := by
  cases stmt with
  | audit now c verified summary =>
      cases h
      cases verified <;> simp [EventTable.auditRow, EventTable.auditStatus]
  | ingesting now userId service roomId eventId deleteMedia =>
      cases h
      simp [EventTable.ingestingRow]
  | enqueued now userId ontologyMessageId service roomId eventId deleteMedia =>
      cases h
      simp [EventTable.enqueuedRow]
  | discarded now userId service roomId eventId reason =>
      cases h
      simp [EventTable.discardedRow]
  | unproven now userId service roomId eventId reason =>
      cases h
      simp [EventTable.unprovenRow]
  | _ => cases h

/-- The rows whose submission a statement ends or overwrites. -/
def releases (r : CleanupEvent) : EventStatement → Bool
  | enqueued _ _ _ _ _ eventId _ => decide (r.eventId = eventId)
  | ingestFailed _ eventId _ => decide (r.eventId = eventId)
  | audit _ c _ _ => decide (r.eventId = c.eventId)
  | attempt _ eventId _ => decide (r.eventId = eventId)
  | submitted _ eventId _ => decide (r.eventId = eventId)
  | retrying _ eventId _ _ => decide (r.eventId = eventId)
  | exhausted _ eventId _ _ => decide (r.eventId = eventId)
  | succeededThrough _ roomId enqueuedAt => EventTable.completes roomId enqueuedAt r
  | _ => false

theorem exhaustedEventIds_spec {t : EventTable} {cutoff : Int} {limit : Nat} {r : CleanupEvent}
    (hr : r ∈ t) (h : r.eventId ∈ t.exhaustedEventIds cutoff limit) :
    r.status = .purgeExhausted := by
  obtain ⟨other, hother, hid⟩ := List.mem_map.mp h
  have hmem := List.mem_of_mem_take hother
  rw [mem_orderBy, List.mem_filter, Bool.and_eq_true, decide_eq_true_eq] at hmem
  rw [← Table.eq_of_key_eq (t := t) hmem.1 hr hid]
  exact hmem.2.1

/-- A submitted row that a statement does not release stays as it is. -/
theorem rewrite_of_submitted {store : OntologyStore} {t : EventTable} {stmt : EventStatement}
    {r : CleanupEvent} (hr : r ∈ t) (hstatus : r.status = .purgeSubmitted)
    (hrelease : stmt.releases r = false) : stmt.rewrite store t r = r := by
  cases stmt with
  | recoverStale now cutoff limit =>
      exact EventTable.recoverRow_of_not (by simp [hstatus, CleanupStatus.isIngestBlocker])
  | requeueExhausted now cutoff limit =>
      simp only [rewrite, List.contains_iff_mem]
      refine if_neg (fun hmem => ?_)
      rw [exhaustedEventIds_spec hr hmem] at hstatus
      cases hstatus
  | enqueueVerified now c summary =>
      exact if_neg (by simp [EventTable.inAuditState, hstatus])
  | enqueueForced now c summary =>
      exact if_neg (by simp [EventTable.inAuditState, hstatus])
  | succeededThrough now roomId enqueuedAt =>
      exact if_neg (by simpa [releases] using hrelease)
  | keep => rfl
  | ingesting now userId service roomId eventId deleteMedia => rfl
  | discarded now userId service roomId eventId reason => rfl
  | unproven now userId service roomId eventId reason => rfl
  | reorder rows => rfl
  | _ => exact if_neg (by simpa [releases] using hrelease)

/-- Only `record_submitted` makes a row submitted. -/
theorem submitted_of_rewrite {store : OntologyStore} {t : EventTable} {stmt : EventStatement}
    {r : CleanupEvent} (h : (stmt.rewrite store t r).status = .purgeSubmitted) :
    stmt.rewrite store t r = r ∨ ∃ now purgeId, stmt = .submitted now r.eventId purgeId := by
  cases stmt with
  | recoverStale now cutoff limit =>
      rcases EventTable.recoverRow_spec store now
        ((t.staleBlockers cutoff limit).map CleanupEvent.eventId) r with heq | ⟨id, _, _, _, heq⟩
      · exact Or.inl heq
      · simp only [rewrite, heq] at h
        cases h
  | submitted now eventId purgeId =>
      by_cases hid : r.eventId = eventId
      · exact Or.inr ⟨now, purgeId, by rw [hid]⟩
      · exact Or.inl (if_neg hid)
  | audit now c verified summary =>
      simp only [rewrite] at h ⊢
      split at h
      · cases verified <;> cases h
      next hid => exact Or.inl (if_neg hid)
  | keep => exact Or.inl rfl
  | ingesting now userId service roomId eventId deleteMedia => exact Or.inl rfl
  | discarded now userId service roomId eventId reason => exact Or.inl rfl
  | unproven now userId service roomId eventId reason => exact Or.inl rfl
  | reorder rows => exact Or.inl rfl
  | _ =>
      simp only [rewrite] at h ⊢
      split at h
      · cases h
      next hcond => exact Or.inl (if_neg hcond)

/-- A submitted row after a statement is an old one, or the statement submitted it. -/
theorem submitted_of_apply {store : OntologyStore} {t : EventTable} {stmt : EventStatement}
    {r : CleanupEvent} (hr : r ∈ stmt.apply store t) (hstatus : r.status = .purgeSubmitted) :
    r ∈ t ∨ ∃ now purgeId, stmt = .submitted now r.eventId purgeId ∧
      r.lastAdminCommandEventId = some purgeId ∧
        ∃ old ∈ t, old.eventId = r.eventId ∧ old.roomId = r.roomId := by
  rcases mem_apply.1 hr with ⟨old, hold, rfl⟩ | ⟨hnew, _⟩
  · rcases submitted_of_rewrite hstatus with hsame | ⟨now, purgeId, rfl⟩
    · rw [hsame]
      exact Or.inl hold
    · have hset : rewrite store t old (.submitted now old.eventId purgeId) =
          old.submit now purgeId := if_pos rfl
      rw [hset]
      exact Or.inr ⟨now, purgeId, rfl, rfl, old, hold, rfl, rfl⟩
  · exact absurd hstatus (newRow_status hnew).1

theorem exists_row_apply {store : OntologyStore} {t : EventTable} {eventId roomId : String}
    (stmt : EventStatement) (h : ∃ r ∈ t, r.eventId = eventId ∧ r.roomId = roomId) :
    ∃ r ∈ stmt.apply store t, r.eventId = eventId ∧ r.roomId = roomId := by
  obtain ⟨r, hr, hid, hroom⟩ := h
  refine ⟨_, mem_apply.2 (Or.inl ⟨r, hr, rfl⟩), ?_, ?_⟩
  · rw [rewrite_eventId, hid]
  · rw [rewrite_roomId, hroom]

/-- Only `record_room_succeeded_through` makes a row succeeded. -/
theorem succeeded_of_rewrite {store : OntologyStore} {t : EventTable} {stmt : EventStatement}
    {r : CleanupEvent} (h : (stmt.rewrite store t r).status = .purgeSucceeded) :
    stmt.rewrite store t r = r ∨ ∃ now roomId enqueuedAt,
      stmt = .succeededThrough now roomId enqueuedAt ∧
        EventTable.completes roomId enqueuedAt r = true := by
  cases stmt with
  | recoverStale now cutoff limit =>
      rcases EventTable.recoverRow_spec store now
        ((t.staleBlockers cutoff limit).map CleanupEvent.eventId) r with heq | ⟨id, _, _, _, heq⟩
      · exact Or.inl heq
      · simp only [rewrite, heq] at h
        cases h
  | succeededThrough now roomId enqueuedAt =>
      by_cases hcompletes : EventTable.completes roomId enqueuedAt r = true
      · exact Or.inr ⟨now, roomId, enqueuedAt, rfl, hcompletes⟩
      · exact Or.inl (if_neg hcompletes)
  | audit now c verified summary =>
      simp only [rewrite] at h ⊢
      split at h
      · cases verified <;> cases h
      next hid => exact Or.inl (if_neg hid)
  | keep => exact Or.inl rfl
  | ingesting now userId service roomId eventId deleteMedia => exact Or.inl rfl
  | discarded now userId service roomId eventId reason => exact Or.inl rfl
  | unproven now userId service roomId eventId reason => exact Or.inl rfl
  | reorder rows => exact Or.inl rfl
  | _ =>
      simp only [rewrite] at h ⊢
      split at h
      · cases h
      next hcond => exact Or.inl (if_neg hcond)

end EventStatement

/-! ## The room-history queue -/

inductive RoomStatement
  | keep
  | portalCensus (userId : Int) (service : String) (roomIds : List String)
      (cutoffTs discoveredAt : Int)
  | serverCensus (userId : Int) (service : String) (roomIds : List String)
      (cutoffTs discoveredAt : Int)
  | requeueExhausted (now cutoff : Int) (limit : Nat)
  | attempt (now id attempt : Int)
  | submitted (now id attempt cutoffTs : Int) (purgeId : String)
  | succeeded (now id : Int)
  | noopSucceeded (now id attempt cutoffTs : Int)
  | failure (now id attempt maxAttempts : Int) (error : String)
  | reorder (rows : List RoomHistoryPurge)
deriving DecidableEq

namespace RoomStatement

def apply (t : RoomHistoryTable) : RoomStatement → RoomHistoryTable
  | keep => t
  | portalCensus userId service roomIds cutoffTs discoveredAt =>
      t.recordPortalCensusRooms userId service roomIds cutoffTs discoveredAt
  | serverCensus userId service roomIds cutoffTs discoveredAt =>
      t.recordServerCensusRoomsOnce userId service roomIds cutoffTs discoveredAt
  | requeueExhausted now cutoff limit => t.requeueExhaustedRoomHistory now cutoff limit
  | attempt now id n => t.recordRoomHistoryAttempt now id n
  | submitted now id n cutoffTs purgeId => t.recordRoomHistorySubmitted now id n cutoffTs purgeId
  | succeeded now id => t.recordRoomHistorySucceeded now id
  | noopSucceeded now id n cutoffTs => t.recordRoomHistoryNoopSucceeded now id n cutoffTs
  | failure now id n maxAttempts error => t.recordRoomHistoryFailure now id n maxAttempts error
  | reorder rows => if h : rows.Perm t.rows then t.reorder rows h else t

/-- The row that a statement outside the censuses makes of an old row. -/
def rewrite (t : RoomHistoryTable) (r : RoomHistoryPurge) : RoomStatement → RoomHistoryPurge
  | requeueExhausted now cutoff limit =>
      if (t.exhaustedIds cutoff limit).contains r.id then r.requeue now else r
  | attempt now id n => if r.id = id then r.startAttempt now n else r
  | submitted now id n cutoffTs purgeId => if r.id = id then r.submit now n cutoffTs purgeId else r
  | succeeded now id =>
      match t.find? id with
      | none => r
      | some completed =>
          if r.coveredBy completed.roomId (coalesce completed.submittedCutoffTs) then r.succeed now
          else r
  | noopSucceeded now id n cutoffTs =>
      match t.find? id with
      | none => r
      | some completed =>
          if r.coveredBy completed.roomId cutoffTs then r.succeedNoop now n cutoffTs else r
  | failure now id n maxAttempts error =>
      if r.id = id then r.fail now n maxAttempts error else r
  | _ => r

def IsCensus : RoomStatement → Prop
  | portalCensus .. => True
  | serverCensus .. => True
  | _ => False

theorem mem_apply {t : RoomHistoryTable} {stmt : RoomStatement} (hcensus : ¬ stmt.IsCensus)
    {r : RoomHistoryPurge} :
    r ∈ stmt.apply t ↔ ∃ old ∈ t, r = stmt.rewrite t old := by
  have hid : ∀ (id : Int) (set : RoomHistoryPurge → RoomHistoryPurge)
      (hkey : ∀ s, (set s).id = s.id),
      r ∈ Table.updateWhere t (fun s => s.id = id) set hkey ↔
        ∃ old ∈ t, r = if old.id = id then set old else old := by
    intro id set hkey
    simp [Table.mem_updateWhere hkey]
  cases stmt with
  | keep => simp [apply, rewrite]
  | portalCensus userId service roomIds cutoffTs discoveredAt => exact absurd trivial hcensus
  | serverCensus userId service roomIds cutoffTs discoveredAt => exact absurd trivial hcensus
  | requeueExhausted now cutoff limit =>
      have hkey : ∀ s : RoomHistoryPurge, (s.requeue now).id = s.id := fun _ => rfl
      exact Table.mem_updateWhere hkey
  | attempt now id n =>
      exact hid id (RoomHistoryPurge.startAttempt now n) (fun _ => rfl)
  | submitted now id n cutoffTs purgeId =>
      exact hid id (RoomHistoryPurge.submit now n cutoffTs purgeId) (fun _ => rfl)
  | succeeded now id =>
      have hkey : ∀ s : RoomHistoryPurge, (s.succeed now).id = s.id := fun _ => rfl
      simp only [apply, rewrite, RoomHistoryTable.recordRoomHistorySucceeded]
      cases hfind : t.find? id with
      | none => simp
      | some completed => exact Table.mem_updateWhere hkey
  | noopSucceeded now id n cutoffTs =>
      have hkey : ∀ s : RoomHistoryPurge, (s.succeedNoop now n cutoffTs).id = s.id := fun _ => rfl
      simp only [apply, rewrite, RoomHistoryTable.recordRoomHistoryNoopSucceeded]
      cases hfind : t.find? id with
      | none => simp
      | some completed => exact Table.mem_updateWhere hkey
  | failure now id n maxAttempts error =>
      exact hid id (RoomHistoryPurge.fail now n maxAttempts error) (fun _ => rfl)
  | reorder rows =>
      simp only [apply, rewrite]
      split <;> simp

theorem rewrite_id (t : RoomHistoryTable) (stmt : RoomStatement) (r : RoomHistoryPurge) :
    (stmt.rewrite t r).id = r.id := by
  cases stmt <;> simp only [rewrite] <;> (repeat' split) <;> rfl

theorem rewrite_roomId (t : RoomHistoryTable) (stmt : RoomStatement) (r : RoomHistoryPurge) :
    (stmt.rewrite t r).roomId = r.roomId := by
  cases stmt <;> simp only [rewrite] <;> (repeat' split) <;> rfl

/-! ## The censuses -/

/-- A census records its rooms one by one. -/
theorem census_induct {Q : RoomHistoryTable → Prop} {stmt : RoomStatement}
    (hcensus : stmt.IsCensus)
    (hportal : ∀ userId service cutoffTs discoveredAt t roomId, Q t →
      Q (RoomHistoryTable.recordPortalCensusRoom userId service cutoffTs discoveredAt t roomId))
    (hserver : ∀ userId service cutoffTs discoveredAt t roomId, Q t →
      Q (RoomHistoryTable.recordServerCensusRoom userId service cutoffTs discoveredAt t roomId))
    {t : RoomHistoryTable} (h : Q t) : Q (stmt.apply t) := by
  cases stmt with
  | portalCensus userId service roomIds cutoffTs discoveredAt =>
      clear hcensus
      simp only [apply, RoomHistoryTable.recordPortalCensusRooms]
      induction roomIds generalizing t with
      | nil => exact h
      | cons room rest ih => exact ih (hportal userId service cutoffTs discoveredAt t room h)
  | serverCensus userId service roomIds cutoffTs discoveredAt =>
      clear hcensus
      simp only [apply, RoomHistoryTable.recordServerCensusRoomsOnce]
      induction roomIds generalizing t with
      | nil => exact h
      | cons room rest ih => exact ih (hserver userId service cutoffTs discoveredAt t room h)
  | _ => exact hcensus.elim

/-- What every row has and a census neither breaks nor omits in the rows it inserts holds of
every row after the census. -/
theorem census_forall {P : RoomHistoryPurge → Prop} {stmt : RoomStatement}
    (hcensus : stmt.IsCensus)
    (hupdate : ∀ cutoffTs discoveredAt r, P r → P (r.censusUpdate cutoffTs discoveredAt))
    (hnew : ∀ (t : RoomHistoryTable) userId service cutoffTs discoveredAt roomId,
      P (t.censusRow userId service cutoffTs discoveredAt roomId))
    {t : RoomHistoryTable} (h : ∀ r ∈ t, P r) : ∀ r ∈ stmt.apply t, P r := by
  refine census_induct (Q := fun t => ∀ r ∈ t, P r) hcensus ?_ ?_ h
  · intro userId service cutoffTs discoveredAt t roomId ht r hr
    have hkey : ∀ s : RoomHistoryPurge,
        (s.censusUpdate cutoffTs discoveredAt).id = s.id := fun _ => rfl
    unfold RoomHistoryTable.recordPortalCensusRoom at hr
    split at hr
    · obtain ⟨old, hold, rfl⟩ := (Table.mem_updateWhere hkey).mp hr
      split
      · exact hupdate _ _ _ (ht old hold)
      · exact ht old hold
    · rcases Table.mem_insert.mp hr with hr | rfl
      · exact ht r hr
      · exact hnew _ _ _ _ _ _
  · intro userId service cutoffTs discoveredAt t roomId ht r hr
    unfold RoomHistoryTable.recordServerCensusRoom at hr
    split at hr
    · exact ht r hr
    · rcases Table.mem_insert.mp hr with hr | rfl
      · exact ht r hr
      · exact hnew _ _ _ _ _ _

/-- A row with a property that a census does not break is still there after the census. -/
theorem census_exists {P : RoomHistoryPurge → Prop} {stmt : RoomStatement}
    (hcensus : stmt.IsCensus)
    (hupdate : ∀ cutoffTs discoveredAt r, P r → P (r.censusUpdate cutoffTs discoveredAt))
    {t : RoomHistoryTable} (h : ∃ r ∈ t, P r) : ∃ r ∈ stmt.apply t, P r := by
  refine census_induct (Q := fun t => ∃ r ∈ t, P r) hcensus ?_ ?_ h
  · intro userId service cutoffTs discoveredAt t roomId ht
    obtain ⟨r, hr, hP⟩ := ht
    have hkey : ∀ s : RoomHistoryPurge,
        (s.censusUpdate cutoffTs discoveredAt).id = s.id := fun _ => rfl
    unfold RoomHistoryTable.recordPortalCensusRoom
    split
    · refine ⟨_, Table.exists_updateWhere hkey hr, ?_⟩
      split
      · exact hupdate _ _ _ hP
      · exact hP
    · exact ⟨r, Table.mem_insert.mpr (Or.inl hr), hP⟩
  · intro userId service cutoffTs discoveredAt t roomId ht
    obtain ⟨r, hr, hP⟩ := ht
    unfold RoomHistoryTable.recordServerCensusRoom
    split
    · exact ⟨r, hr, hP⟩
    · exact ⟨r, Table.mem_insert.mpr (Or.inl hr), hP⟩

/-! ## Rules for all statements -/

theorem forall_apply {P : RoomHistoryPurge → Prop} {stmt : RoomStatement} {t : RoomHistoryTable}
    (hrewrite : ¬ stmt.IsCensus → ∀ r ∈ t, P r → P (stmt.rewrite t r))
    (hupdate : ∀ cutoffTs discoveredAt r, P r → P (r.censusUpdate cutoffTs discoveredAt))
    (hnew : ∀ (t : RoomHistoryTable) userId service cutoffTs discoveredAt roomId,
      P (t.censusRow userId service cutoffTs discoveredAt roomId))
    (h : ∀ r ∈ t, P r) : ∀ r ∈ stmt.apply t, P r := by
  by_cases hcensus : stmt.IsCensus
  · exact census_forall hcensus hupdate hnew h
  · intro r hr
    obtain ⟨old, hold, rfl⟩ := (mem_apply hcensus).mp hr
    exact hrewrite hcensus old hold (h old hold)

theorem exists_apply {P : RoomHistoryPurge → Prop} {stmt : RoomStatement} {t : RoomHistoryTable}
    (hrewrite : ¬ stmt.IsCensus → ∀ r ∈ t, P r → P (stmt.rewrite t r))
    (hupdate : ∀ cutoffTs discoveredAt r, P r → P (r.censusUpdate cutoffTs discoveredAt))
    (h : ∃ r ∈ t, P r) : ∃ r ∈ stmt.apply t, P r := by
  by_cases hcensus : stmt.IsCensus
  · exact census_exists hcensus hupdate h
  · obtain ⟨r, hr, hP⟩ := h
    exact ⟨_, (mem_apply hcensus).mpr ⟨r, hr, rfl⟩, hrewrite hcensus r hr hP⟩

/-! ## Submitted rows -/

/-- The rows whose submission a statement ends or overwrites. -/
def releases (t : RoomHistoryTable) (r : RoomHistoryPurge) : RoomStatement → Bool
  | attempt _ id _ => decide (r.id = id)
  | submitted _ id _ _ _ => decide (r.id = id)
  | succeeded _ id =>
      match t.find? id with
      | none => false
      | some completed => r.coveredBy completed.roomId (coalesce completed.submittedCutoffTs)
  | noopSucceeded _ id _ cutoffTs =>
      match t.find? id with
      | none => false
      | some completed => r.coveredBy completed.roomId cutoffTs
  | failure _ id _ _ _ => decide (r.id = id)
  | _ => false

theorem exhaustedIds_spec {t : RoomHistoryTable} {cutoff : Int} {limit : Nat}
    {r : RoomHistoryPurge} (hr : r ∈ t) (h : r.id ∈ t.exhaustedIds cutoff limit) :
    r.status = .exhausted := by
  obtain ⟨other, hother, hid⟩ := List.mem_map.mp h
  have hmem := List.mem_of_mem_take hother
  rw [mem_orderBy, List.mem_filter, Bool.and_eq_true, decide_eq_true_eq] at hmem
  rw [← Table.eq_of_key_eq (t := t) hmem.1 hr hid]
  exact hmem.2.1

theorem rewrite_of_submitted {t : RoomHistoryTable} {stmt : RoomStatement} {r : RoomHistoryPurge}
    (hr : r ∈ t) (hstatus : r.status = .submitted) (hrelease : stmt.releases t r = false) :
    stmt.rewrite t r = r := by
  cases stmt with
  | requeueExhausted now cutoff limit =>
      simp only [rewrite, List.contains_iff_mem]
      refine if_neg (fun hmem => ?_)
      rw [exhaustedIds_spec hr hmem] at hstatus
      cases hstatus
  | succeeded now id =>
      simp only [rewrite, releases] at hrelease ⊢
      cases hfind : t.find? id with
      | none => rfl
      | some completed => exact if_neg (by simpa [hfind] using hrelease)
  | noopSucceeded now id n cutoffTs =>
      simp only [rewrite, releases] at hrelease ⊢
      cases hfind : t.find? id with
      | none => rfl
      | some completed => exact if_neg (by simpa [hfind] using hrelease)
  | attempt now id n => exact if_neg (by simpa [releases] using hrelease)
  | submitted now id n cutoffTs purgeId => exact if_neg (by simpa [releases] using hrelease)
  | failure now id n maxAttempts error => exact if_neg (by simpa [releases] using hrelease)
  | _ => rfl

/-- Only `record_room_history_submitted` makes a row submitted. -/
theorem submitted_of_rewrite {t : RoomHistoryTable} {stmt : RoomStatement} {r : RoomHistoryPurge}
    (h : (stmt.rewrite t r).status = .submitted) :
    stmt.rewrite t r = r ∨
      ∃ now n cutoffTs purgeId, stmt = .submitted now r.id n cutoffTs purgeId := by
  cases stmt with
  | submitted now id n cutoffTs purgeId =>
      by_cases hid : r.id = id
      · exact Or.inr ⟨now, n, cutoffTs, purgeId, by rw [hid]⟩
      · exact Or.inl (if_neg hid)
  | succeeded now id =>
      simp only [rewrite] at h ⊢
      cases hfind : t.find? id with
      | none => exact Or.inl rfl
      | some completed =>
          simp only [hfind] at h
          split at h
          · cases h
          next hcond => exact Or.inl (if_neg hcond)
  | noopSucceeded now id n cutoffTs =>
      simp only [rewrite] at h ⊢
      cases hfind : t.find? id with
      | none => exact Or.inl rfl
      | some completed =>
          simp only [hfind] at h
          split at h
          · cases h
          next hcond => exact Or.inl (if_neg hcond)
  | failure now id n maxAttempts error =>
      simp only [rewrite] at h ⊢
      split at h
      · simp only [RoomHistoryPurge.fail, failureStatus] at h
        split at h <;> cases h
      next hid => exact Or.inl (if_neg hid)
  | requeueExhausted now cutoff limit =>
      simp only [rewrite] at h ⊢
      split at h
      · cases h
      next hcond => exact Or.inl (if_neg hcond)
  | attempt now id n =>
      simp only [rewrite] at h ⊢
      split at h
      · cases h
      next hid => exact Or.inl (if_neg hid)
  | _ => exact Or.inl rfl

/-- A submitted row after a statement was submitted with the same task before, or the
statement submitted it. -/
theorem submitted_of_apply {t : RoomHistoryTable} {stmt : RoomStatement} {r : RoomHistoryPurge}
    (hr : r ∈ stmt.apply t) (hstatus : r.status = .submitted) :
    (∃ old ∈ t, old.status = .submitted ∧ old.id = r.id ∧ old.roomId = r.roomId ∧
      old.purgeId = r.purgeId) ∨
    ∃ now n cutoffTs purgeId, stmt = .submitted now r.id n cutoffTs purgeId ∧
      r.purgeId = some purgeId ∧ ∃ old ∈ t, old.id = r.id ∧ old.roomId = r.roomId := by
  by_cases hcensus : stmt.IsCensus
  · refine Or.inl (census_forall (P := fun x => x.status = .submitted → ∃ old ∈ t,
      old.status = .submitted ∧ old.id = x.id ∧ old.roomId = x.roomId ∧ old.purgeId = x.purgeId)
      hcensus ?_ ?_ ?_ r hr hstatus)
    · intro cutoffTs discoveredAt x hx hs
      by_cases hsub : x.status = .submitted
      · exact hx hsub
      · simp only [RoomHistoryPurge.censusUpdate, hsub, if_false] at hs
        split at hs
        · cases hs
        · exact absurd hs hsub
    · intro _ _ _ _ _ _ hs
      cases hs
    · exact fun x hx hs => ⟨x, hx, hs, rfl, rfl, rfl⟩
  · obtain ⟨old, hold, rfl⟩ := (mem_apply hcensus).mp hr
    rcases submitted_of_rewrite hstatus with hsame | ⟨now, n, cutoffTs, purgeId, rfl⟩
    · rw [hsame] at hstatus ⊢
      exact Or.inl ⟨old, hold, hstatus, rfl, rfl, rfl⟩
    · have hset : rewrite t old (.submitted now old.id n cutoffTs purgeId) =
          old.submit now n cutoffTs purgeId := if_pos rfl
      rw [hset]
      exact Or.inr ⟨now, n, cutoffTs, purgeId, rfl, rfl, old, hold, rfl, rfl⟩

/-- A submitted row that a statement does not release stays submitted with its task. -/
theorem submitted_apply {t : RoomHistoryTable} {stmt : RoomStatement} {r : RoomHistoryPurge}
    (hr : r ∈ t) (hstatus : r.status = .submitted) (hrelease : stmt.releases t r = false) :
    ∃ r' ∈ stmt.apply t, r'.status = .submitted ∧ r'.id = r.id ∧ r'.roomId = r.roomId ∧
      r'.purgeId = r.purgeId := by
  by_cases hcensus : stmt.IsCensus
  · refine census_exists (P := fun x => x.status = .submitted ∧ x.id = r.id ∧
      x.roomId = r.roomId ∧ x.purgeId = r.purgeId) hcensus ?_ ⟨r, hr, hstatus, rfl, rfl, rfl⟩
    intro cutoffTs discoveredAt x hx
    refine ⟨?_, hx.2⟩
    simp only [RoomHistoryPurge.censusUpdate, hx.1, if_true]
  · refine ⟨r, (mem_apply hcensus).mpr ⟨r, hr, ?_⟩, hstatus, rfl, rfl, rfl⟩
    exact (rewrite_of_submitted hr hstatus hrelease).symm

/-- Rows are never deleted, and keep their room. -/
theorem exists_row_apply {t : RoomHistoryTable} {id : Int} {roomId : String}
    (stmt : RoomStatement) (h : ∃ r ∈ t, r.id = id ∧ r.roomId = roomId) :
    ∃ r ∈ stmt.apply t, r.id = id ∧ r.roomId = roomId := by
  refine exists_apply ?_ (fun _ _ r hr => hr) h
  intro _ r _ hr
  rw [rewrite_id, rewrite_roomId]
  exact hr

end RoomStatement

end Lightfriend.Purge
