import Lightfriend.Core.Machine
import Lightfriend.Ontology.Message

/-! # The event-boundary queue

One row of `tuwunel_cleanup_events` for every bridge event whose removal from the
homeserver is tracked, and the repository operations on that table. Rows are
addressed by their unique `event_id`; every operation reads the clock once and
takes it as `now`.
-/

namespace Lightfriend.Purge

inductive CleanupStatus
  | pendingPurge
  | ingesting
  | ingestFailed
  | purgeAttempting
  | purgeSubmitted
  | purgeRetrying
  | purgeSucceeded
  | purgeExhausted
  | backfillAuditVerified
  | backfillAuditBlocked
deriving DecidableEq, Repr

structure CleanupEvent where
  userId : Int
  ontologyMessageId : Int
  service : String
  roomId : String
  eventId : String
  deleteMedia : Bool
  commandsExpected : Int
  commandsAccepted : Int
  attemptCount : Int
  status : CleanupStatus
  lastCommandKind : Option String
  lastAdminCommandEventId : Option String
  lastError : Option String
  enqueuedAt : Int
  lastAttemptedAt : Option Int
  completedAt : Option Int
  updatedAt : Int
deriving DecidableEq, Repr

abbrev EventTable := Table CleanupEvent String CleanupEvent.eventId

def maxErrorLen : Nat := 4000
def maxDueScan : Nat := 5000

def trimError (error : String) : String := takeChars maxErrorLen error

/-- Rows that keep their room out of the purge until the event is proven stored. -/
def CleanupStatus.isIngestBlocker : CleanupStatus → Bool
  | .ingesting | .ingestFailed => true
  | _ => false

/-- Rows whose event may be chosen as the next boundary of its room. -/
def CleanupStatus.isDue : CleanupStatus → Bool
  | .pendingPurge | .purgeAttempting | .purgeRetrying => true
  | _ => false

/-- Rows that the completion of a later boundary completes as well. -/
def CleanupStatus.isOpen : CleanupStatus → Bool
  | .pendingPurge | .purgeAttempting | .purgeSubmitted | .purgeRetrying => true
  | _ => false

/-! ## The columns each statement sets -/

namespace CleanupEvent

def enqueue (now ontologyMessageId : Int) (deleteMedia : Bool) (r : CleanupEvent) : CleanupEvent :=
  { r with
    ontologyMessageId := ontologyMessageId
    deleteMedia := deleteMedia
    commandsExpected := 1
    commandsAccepted := 0
    attemptCount := 0
    status := .pendingPurge
    lastError := none
    completedAt := none
    updatedAt := now }

def failIngest (now : Int) (error : String) (r : CleanupEvent) : CleanupEvent :=
  { r with
    status := .ingestFailed
    lastError := some (trimError error)
    updatedAt := now }

def recover (now ontologyMessageId : Int) (r : CleanupEvent) : CleanupEvent :=
  { r with
    ontologyMessageId := ontologyMessageId
    status := .pendingPurge
    attemptCount := 0
    lastError := none
    enqueuedAt := now
    updatedAt := now }

def requeue (now : Int) (r : CleanupEvent) : CleanupEvent :=
  { r with
    status := .purgeRetrying
    attemptCount := 0
    lastAttemptedAt := none
    completedAt := none
    updatedAt := now }

def auditAs (now ontologyMessageId : Int) (status : CleanupStatus) (summary : String)
    (r : CleanupEvent) : CleanupEvent :=
  { r with
    ontologyMessageId := ontologyMessageId
    status := status
    commandsExpected := 0
    commandsAccepted := 0
    attemptCount := 0
    lastCommandKind := some "historical_backfill_audit"
    lastError := some (trimError summary)
    completedAt := some now
    updatedAt := now }

def enqueueAudited (now ontologyMessageId : Int) (commandKind auditSummary : String)
    (r : CleanupEvent) : CleanupEvent :=
  { r with
    ontologyMessageId := ontologyMessageId
    deleteMedia := true
    commandsExpected := 1
    commandsAccepted := 0
    attemptCount := 0
    status := .pendingPurge
    lastCommandKind := some commandKind
    lastError := some (trimError auditSummary)
    enqueuedAt := now
    lastAttemptedAt := none
    completedAt := none
    updatedAt := now }

def startAttempt (now attempt : Int) (r : CleanupEvent) : CleanupEvent :=
  { r with
    attemptCount := attempt
    status := .purgeAttempting
    lastAttemptedAt := some now
    updatedAt := now }

def submit (now : Int) (purgeId : String) (r : CleanupEvent) : CleanupEvent :=
  { r with
    status := .purgeSubmitted
    lastCommandKind := some "purge_history"
    lastAdminCommandEventId := some purgeId
    lastError := none
    updatedAt := now }

def fail (now attempt : Int) (status : CleanupStatus) (error : String) (completed : Bool)
    (r : CleanupEvent) : CleanupEvent :=
  { r with
    attemptCount := attempt
    status := status
    lastError := some (trimError error)
    completedAt := if completed then some now else none
    updatedAt := now }

def succeed (now : Int) (r : CleanupEvent) : CleanupEvent :=
  { r with
    status := .purgeSucceeded
    commandsAccepted := r.commandsExpected
    lastError := none
    completedAt := some now
    updatedAt := now }

end CleanupEvent

namespace EventTable

/-! ## Ingest markers -/

def ingestingRow (now userId : Int) (service roomId eventId : String) (deleteMedia : Bool) :
    CleanupEvent where
  userId := userId
  ontologyMessageId := 0
  service := service
  roomId := roomId
  eventId := eventId
  deleteMedia := deleteMedia
  commandsExpected := 1
  commandsAccepted := 0
  attemptCount := 0
  status := .ingesting
  lastCommandKind := none
  lastAdminCommandEventId := none
  lastError := none
  enqueuedAt := now
  lastAttemptedAt := none
  completedAt := none
  updatedAt := now

def recordIngesting (t : EventTable) (now userId : Int) (service roomId eventId : String)
    (deleteMedia : Bool) : EventTable :=
  t.insertOrIgnore (ingestingRow now userId service roomId eventId deleteMedia)

def enqueuedRow (now userId ontologyMessageId : Int) (service roomId eventId : String)
    (deleteMedia : Bool) : CleanupEvent :=
  { ingestingRow now userId service roomId eventId deleteMedia with
    ontologyMessageId := ontologyMessageId
    status := .pendingPurge }

/-- The row is updated in place; only an event without a row gets a new `enqueued_at`. -/
def recordEnqueued (t : EventTable) (now userId ontologyMessageId : Int)
    (service roomId eventId : String) (deleteMedia : Bool) : EventTable :=
  t.upsert (enqueuedRow now userId ontologyMessageId service roomId eventId deleteMedia)
    (CleanupEvent.enqueue now ontologyMessageId deleteMedia) (fun _ => rfl)

def recordIngestFailed (t : EventTable) (now : Int) (eventId error : String) : EventTable :=
  t.updateWhere (fun r => r.eventId = eventId) (CleanupEvent.failIngest now error) (fun _ => rfl)

def discardedRow (now userId : Int) (service roomId eventId reason : String) : CleanupEvent :=
  { ingestingRow now userId service roomId eventId true with
    status := .pendingPurge
    lastCommandKind := some "intentional_discard"
    lastError := some (trimError s!"intentional discard: {reason}") }

def recordIntentionallyDiscarded (t : EventTable) (now userId : Int)
    (service roomId eventId reason : String) : EventTable :=
  t.insertOrIgnore (discardedRow now userId service roomId eventId reason)

def unprovenRow (now userId : Int) (service roomId eventId reason : String) : CleanupEvent :=
  { ingestingRow now userId service roomId eventId false with
    status := .ingestFailed
    lastCommandKind := some "retained_unproven"
    lastError := some (trimError s!"retained without ontology proof: {reason}") }

def recordUnprovenBlocker (t : EventTable) (now userId : Int)
    (service roomId eventId reason : String) : EventTable :=
  t.insertOrIgnore (unprovenRow now userId service roomId eventId reason)

/-! ## Stale blockers and exhausted rows -/

def staleBlockers (t : EventTable) (cutoff : Int) (limit : Nat) : List CleanupEvent :=
  (orderBy (fun r s => r.updatedAt ≤ s.updatedAt)
    (t.rows.filter (fun r => r.status.isIngestBlocker && decide (r.updatedAt ≤ cutoff)))).take limit

/-- The ontology id of an event; where several users stored it, the last row read wins. -/
def ontologyIdOf (store : OntologyStore) (eventId : String) : Option Int :=
  (store.rows.reverse.find? (fun m => m.matrixEventId == some eventId)).map OntMessage.id

def recoverBlocker (store : OntologyStore) (now : Int) (t : EventTable) (eventId : String) :
    EventTable :=
  match ontologyIdOf store eventId with
  | none => t
  | some ontologyMessageId =>
      t.updateWhere (fun r => decide (r.eventId = eventId) && r.status.isIngestBlocker)
        (CleanupEvent.recover now ontologyMessageId) (fun _ => rfl)

def recoverStaleIngestBlockers (t : EventTable) (store : OntologyStore) (now cutoff : Int)
    (limit : Nat) : EventTable :=
  ((t.staleBlockers cutoff limit).map CleanupEvent.eventId).foldl (recoverBlocker store now) t

def exhaustedEventIds (t : EventTable) (cutoff : Int) (limit : Nat) : List String :=
  ((orderBy (fun r s => r.updatedAt ≤ s.updatedAt)
    (t.rows.filter (fun r => decide (r.status = .purgeExhausted) && decide (r.updatedAt ≤ cutoff)))).take
      limit).map CleanupEvent.eventId

def requeueExhausted (t : EventTable) (now cutoff : Int) (limit : Nat) : EventTable :=
  t.updateWhere (fun r => (t.exhaustedEventIds cutoff limit).contains r.eventId)
    (CleanupEvent.requeue now) (fun _ => rfl)

/-! ## Historical backfill -/

structure HistoricalBackfillCandidate where
  ontologyMessageId : Int
  userId : Int
  roomId : String
  service : String
  eventId : String
  createdAt : Int
deriving DecidableEq, Repr

def backfillCandidateOf (m : OntMessage) : Option HistoricalBackfillCandidate :=
  m.matrixEventId.map fun eventId =>
    { ontologyMessageId := m.id, userId := m.userId, roomId := m.roomId, service := m.platform,
      eventId := eventId, createdAt := m.createdAt }

/-- The newest stored message of every room that is old enough. -/
def latestByRoom (store : OntologyStore) (boundaryCutoff : Int) :
    List HistoricalBackfillCandidate :=
  (firstPerGroup OntMessage.roomId
    (orderBy (fun m n => n.createdAt < m.createdAt ∨ (n.createdAt = m.createdAt ∧ n.id ≤ m.id))
      (store.rows.filter (fun m =>
        m.matrixEventId.isSome && decide (m.createdAt ≤ boundaryCutoff))))).filterMap
    backfillCandidateOf

def awaitsAudit (t : EventTable) (recheckCutoff : Int) (c : HistoricalBackfillCandidate) : Bool :=
  match t.find? c.eventId with
  | none => true
  | some cleanup =>
      (decide (cleanup.status = .backfillAuditVerified) ||
        decide (cleanup.status = .backfillAuditBlocked)) &&
        decide (cleanup.updatedAt ≤ recheckCutoff)

def auditedAt (t : EventTable) (c : HistoricalBackfillCandidate) : Int :=
  ((t.find? c.eventId).map CleanupEvent.updatedAt).getD 0

def listHistoricalBackfillCandidates (t : EventTable) (store : OntologyStore)
    (boundaryCutoff recheckCutoff : Int) (limit : Nat) : List HistoricalBackfillCandidate :=
  (orderBy
    (fun c d =>
      ((t.find? c.eventId).isNone && (t.find? d.eventId).isSome) = true ∨
        ((t.find? c.eventId).isNone = (t.find? d.eventId).isNone ∧
          (auditedAt t c < auditedAt t d ∨
            (auditedAt t c = auditedAt t d ∧ c.ontologyMessageId ≤ d.ontologyMessageId))))
    ((latestByRoom store boundaryCutoff).filter (fun c =>
      awaitsAudit t recheckCutoff c &&
        !t.rows.any (fun blocker =>
          decide (blocker.roomId = c.roomId) && blocker.status.isIngestBlocker)))).take limit

def auditStatus (verified : Bool) : CleanupStatus :=
  if verified then .backfillAuditVerified else .backfillAuditBlocked

def auditRow (now : Int) (c : HistoricalBackfillCandidate) (verified : Bool) (summary : String) :
    CleanupEvent :=
  { ingestingRow now c.userId c.service c.roomId c.eventId true with
    ontologyMessageId := c.ontologyMessageId
    commandsExpected := 0
    status := auditStatus verified
    lastCommandKind := some "historical_backfill_audit"
    lastError := some (trimError summary)
    completedAt := some now }

def recordHistoricalBackfillAudit (t : EventTable) (now : Int) (c : HistoricalBackfillCandidate)
    (verified : Bool) (summary : String) : EventTable :=
  t.upsert (auditRow now c verified summary)
    (CleanupEvent.auditAs now c.ontologyMessageId (auditStatus verified) summary) (fun _ => rfl)

def inAuditState (c : HistoricalBackfillCandidate) (requiredStatus : CleanupStatus)
    (r : CleanupEvent) : Bool :=
  decide (r.eventId = c.eventId) && decide (r.status = requiredStatus)

/-- Enqueue an audited boundary; an error when its row is not in the required audit state. -/
def enqueueAuditedHistoricalBackfill (t : EventTable) (now : Int)
    (c : HistoricalBackfillCandidate) (requiredStatus : CleanupStatus)
    (commandKind auditSummary : String) : Option EventTable :=
  if t.rows.any (inAuditState c requiredStatus) then
    some <| t.updateWhere (inAuditState c requiredStatus)
      (CleanupEvent.enqueueAudited now c.ontologyMessageId commandKind auditSummary) (fun _ => rfl)
  else none

def enqueueVerifiedHistoricalBackfill (t : EventTable) (now : Int)
    (c : HistoricalBackfillCandidate) (auditSummary : String) : Option EventTable :=
  t.enqueueAuditedHistoricalBackfill now c .backfillAuditVerified
    "historical_backfill_verified" auditSummary

def enqueueForcedHistoricalBackfill (t : EventTable) (now : Int)
    (c : HistoricalBackfillCandidate) (auditSummary : String) : Option EventTable :=
  t.enqueueAuditedHistoricalBackfill now c .backfillAuditBlocked
    "historical_backfill_forced_unverified" auditSummary

/-! ## Boundaries -/

/-- `activeRooms` are the rooms with a submitted room-history purge. -/
def blockedRooms (t : EventTable) (activeRooms : List String) : List String :=
  (t.rows.filter (fun r => r.status.isIngestBlocker || decide (r.status = .purgeSubmitted))).map
    CleanupEvent.roomId ++ activeRooms

def dueCandidates (t : EventTable) (cutoff : Int) : List CleanupEvent :=
  (orderBy (fun r s => s.enqueuedAt ≤ r.enqueuedAt)
    (t.rows.filter (fun r => r.status.isDue && decide (r.enqueuedAt ≤ cutoff)))).take maxDueScan

def listDueRoomBoundaries (t : EventTable) (activeRooms : List String) (cutoff : Int)
    (limit : Nat) : List CleanupEvent :=
  (firstPerGroup CleanupEvent.roomId ((t.dueCandidates cutoff).filter
    (fun c => !(t.blockedRooms activeRooms).contains c.roomId))).take limit

def listSubmitted (t : EventTable) (limit : Nat) : List CleanupEvent :=
  (orderBy (fun r s => r.updatedAt ≤ s.updatedAt)
    (t.rows.filter (fun r => r.status = .purgeSubmitted))).take limit

def hasNewerSuccessfulBoundary (t : EventTable) (roomId : String) (ontologyMessageId : Int) :
    Bool :=
  t.rows.any (fun r => decide (r.roomId = roomId) && decide (r.status = .purgeSucceeded) &&
    decide (ontologyMessageId < r.ontologyMessageId))

/-! ## The life of a submission -/

def recordAttempt (t : EventTable) (now : Int) (eventId : String) (attempt : Int) : EventTable :=
  t.updateWhere (fun r => r.eventId = eventId) (CleanupEvent.startAttempt now attempt)
    (fun _ => rfl)

def recordSubmitted (t : EventTable) (now : Int) (eventId purgeId : String) : EventTable :=
  t.updateWhere (fun r => r.eventId = eventId) (CleanupEvent.submit now purgeId) (fun _ => rfl)

def recordFailure (t : EventTable) (now : Int) (eventId : String) (attempt : Int)
    (status : CleanupStatus) (error : String) (completed : Bool) : EventTable :=
  t.updateWhere (fun r => r.eventId = eventId)
    (CleanupEvent.fail now attempt status error completed) (fun _ => rfl)

def recordRetrying (t : EventTable) (now : Int) (eventId : String) (attempt : Int)
    (error : String) : EventTable :=
  t.recordFailure now eventId attempt .purgeRetrying error false

def recordExhausted (t : EventTable) (now : Int) (eventId : String) (attempt : Int)
    (error : String) : EventTable :=
  t.recordFailure now eventId attempt .purgeExhausted error true

/-- The rows that the completion of a boundary enqueued at `enqueuedAt` completes. -/
def completes (roomId : String) (enqueuedAt : Int) (r : CleanupEvent) : Bool :=
  decide (r.roomId = roomId) && decide (r.enqueuedAt ≤ enqueuedAt) && r.status.isOpen

def recordRoomSucceededThrough (t : EventTable) (now : Int) (roomId : String)
    (enqueuedAt : Int) : EventTable :=
  t.updateWhere (completes roomId enqueuedAt) (CleanupEvent.succeed now) (fun _ => rfl)

/-! ## What a selection returns -/

theorem staleBlockers_spec {t : EventTable} {cutoff : Int} {limit : Nat} {r : CleanupEvent}
    (h : r ∈ t.staleBlockers cutoff limit) : r ∈ t ∧ r.status.isIngestBlocker = true := by
  have hmem := List.mem_of_mem_take h
  rw [mem_orderBy, List.mem_filter] at hmem
  obtain ⟨hr, hp⟩ := hmem
  exact ⟨hr, (Bool.and_eq_true _ _ ▸ hp).1⟩

theorem listSubmitted_spec {t : EventTable} {limit : Nat} {r : CleanupEvent}
    (h : r ∈ t.listSubmitted limit) : r ∈ t ∧ r.status = .purgeSubmitted := by
  have hmem := List.mem_of_mem_take h
  rw [mem_orderBy, List.mem_filter] at hmem
  simpa using hmem

theorem dueCandidates_spec {t : EventTable} {cutoff : Int} {r : CleanupEvent}
    (h : r ∈ t.dueCandidates cutoff) :
    r ∈ t ∧ r.status.isDue = true ∧ r.enqueuedAt ≤ cutoff := by
  have hmem := List.mem_of_mem_take h
  rw [mem_orderBy, List.mem_filter] at hmem
  simpa using hmem

/-- A due boundary is a due row of the table, and its room holds no blocker, no submitted
boundary and no submitted room-history purge. -/
theorem listDueRoomBoundaries_spec {t : EventTable} {active : List String} {cutoff : Int}
    {limit : Nat} {c : CleanupEvent} (h : c ∈ t.listDueRoomBoundaries active cutoff limit) :
    c ∈ t ∧ c.status.isDue = true ∧ c.enqueuedAt ≤ cutoff ∧ c.roomId ∉ active ∧
      ∀ r ∈ t, r.roomId = c.roomId →
        r.status.isIngestBlocker = false ∧ r.status ≠ .purgeSubmitted := by
  have hmem := mem_of_mem_firstPerGroup (List.mem_of_mem_take h)
  rw [List.mem_filter] at hmem
  obtain ⟨hdue, hblocked⟩ := hmem
  obtain ⟨hc, hstatus, hcutoff⟩ := dueCandidates_spec hdue
  have hnot : c.roomId ∉ t.blockedRooms active := by simpa using hblocked
  simp only [blockedRooms, List.mem_append, List.mem_map, List.mem_filter, not_or] at hnot
  refine ⟨hc, hstatus, hcutoff, hnot.2, ?_⟩
  intro r hr hroom
  have hclear := fun hp => hnot.1 ⟨r, ⟨hr, hp⟩, hroom⟩
  simpa [not_or] using hclear

theorem listDueRoomBoundaries_nodup (t : EventTable) (active : List String) (cutoff : Int)
    (limit : Nat) :
    ((t.listDueRoomBoundaries active cutoff limit).map CleanupEvent.roomId).Nodup :=
  (firstPerGroup_nodup _).sublist ((List.take_sublist _ _).map _)

theorem listDueRoomBoundaries_length_le (t : EventTable) (active : List String) (cutoff : Int)
    (limit : Nat) : (t.listDueRoomBoundaries active cutoff limit).length ≤ limit :=
  List.length_take_le _ _

theorem ontologyIdOf_spec {store : OntologyStore} {eventId : String} {id : Int}
    (h : ontologyIdOf store eventId = some id) :
    ∃ m ∈ store, m.matrixEventId = some eventId ∧ m.id = id := by
  obtain ⟨m, hm, hid⟩ := Option.map_eq_some_iff.mp h
  have hmem := List.mem_reverse.mp (List.mem_of_find?_eq_some hm)
  have hevent := List.find?_some hm
  exact ⟨m, hmem, by simpa using hevent, hid⟩

/-! ## Recovery, row by row -/

def recoverRow (store : OntologyStore) (now : Int) (eventIds : List String) (r : CleanupEvent) :
    CleanupEvent :=
  match ontologyIdOf store r.eventId with
  | none => r
  | some ontologyMessageId =>
      if r.eventId ∈ eventIds ∧ r.status.isIngestBlocker = true then
        r.recover now ontologyMessageId
      else r

theorem recoverRow_of_not {store : OntologyStore} {now : Int} {eventIds : List String}
    {r : CleanupEvent} (h : ¬ (r.eventId ∈ eventIds ∧ r.status.isIngestBlocker = true)) :
    recoverRow store now eventIds r = r := by
  unfold recoverRow
  cases ontologyIdOf store r.eventId with
  | none => rfl
  | some id => exact if_neg h

theorem recoverRow_of_unproven {store : OntologyStore} {now : Int} {eventIds : List String}
    {r : CleanupEvent} (h : ontologyIdOf store r.eventId = none) :
    recoverRow store now eventIds r = r := by
  unfold recoverRow
  rw [h]

theorem recoverRow_of_blocker {store : OntologyStore} {now id : Int} {eventIds : List String}
    {r : CleanupEvent} (hid : ontologyIdOf store r.eventId = some id)
    (h : r.eventId ∈ eventIds ∧ r.status.isIngestBlocker = true) :
    recoverRow store now eventIds r = r.recover now id := by
  unfold recoverRow
  rw [hid]
  exact if_pos h

theorem recoverRow_spec (store : OntologyStore) (now : Int) (eventIds : List String)
    (r : CleanupEvent) :
    recoverRow store now eventIds r = r ∨
      ∃ id, ontologyIdOf store r.eventId = some id ∧ r.eventId ∈ eventIds ∧
        r.status.isIngestBlocker = true ∧ recoverRow store now eventIds r = r.recover now id := by
  cases hid : ontologyIdOf store r.eventId with
  | none => exact Or.inl (recoverRow_of_unproven hid)
  | some id =>
      by_cases h : r.eventId ∈ eventIds ∧ r.status.isIngestBlocker = true
      · exact Or.inr ⟨id, rfl, h.1, h.2, recoverRow_of_blocker hid h⟩
      · exact Or.inl (recoverRow_of_not h)

theorem recoverBlocker_rows (store : OntologyStore) (now : Int) (t : EventTable)
    (eventId : String) :
    (recoverBlocker store now t eventId).rows = t.rows.map (recoverRow store now [eventId]) := by
  unfold recoverBlocker
  cases hid : ontologyIdOf store eventId with
  | none =>
      have hsame : ∀ r ∈ t.rows, recoverRow store now [eventId] r = r := by
        intro r _
        by_cases he : r.eventId = eventId
        · exact recoverRow_of_unproven (he ▸ hid)
        · exact recoverRow_of_not (by simp [he])
      rw [List.map_congr_left hsame, List.map_id']
  | some id =>
      apply List.map_congr_left
      intro r _
      by_cases h : r.eventId = eventId ∧ r.status.isIngestBlocker = true
      · rw [recoverRow_of_blocker (h.1 ▸ hid) (by simpa using h)]
        simp [h]
      · rw [recoverRow_of_not (by simpa using h)]
        simpa using fun he hb => (h ⟨he, hb⟩).elim

theorem recoverRow_cons (store : OntologyStore) (now : Int) (eventId : String)
    (rest : List String) (r : CleanupEvent) :
    recoverRow store now rest (recoverRow store now [eventId] r) =
      recoverRow store now (eventId :: rest) r := by
  cases hid : ontologyIdOf store r.eventId with
  | none => rw [recoverRow_of_unproven hid, recoverRow_of_unproven hid, recoverRow_of_unproven hid]
  | some id =>
      by_cases hfirst : r.eventId = eventId ∧ r.status.isIngestBlocker = true
      · have hclear : (r.recover now id).status.isIngestBlocker = false := rfl
        rw [recoverRow_of_blocker hid (by simpa using hfirst), recoverRow_of_not (by simp [hclear]),
          recoverRow_of_blocker hid ⟨by simp [hfirst.1], hfirst.2⟩]
      · have hskip : recoverRow store now [eventId] r = r :=
          recoverRow_of_not (by simpa using hfirst)
        rw [hskip]
        by_cases hrest : r.eventId ∈ rest ∧ r.status.isIngestBlocker = true
        · rw [recoverRow_of_blocker hid hrest,
            recoverRow_of_blocker hid ⟨List.mem_cons_of_mem _ hrest.1, hrest.2⟩]
        · rw [recoverRow_of_not hrest, recoverRow_of_not]
          intro h
          rcases List.mem_cons.mp h.1 with he | he
          · exact hfirst ⟨he, h.2⟩
          · exact hrest ⟨he, h.2⟩

theorem foldl_recoverBlocker_rows (store : OntologyStore) (now : Int) (eventIds : List String)
    (t : EventTable) :
    (eventIds.foldl (recoverBlocker store now) t).rows =
      t.rows.map (recoverRow store now eventIds) := by
  induction eventIds generalizing t with
  | nil =>
      have hsame : ∀ r ∈ t.rows, recoverRow store now [] r = r :=
        fun r _ => recoverRow_of_not (by simp)
      rw [List.foldl_nil, List.map_congr_left hsame, List.map_id']
  | cons eventId rest ih =>
      rw [List.foldl_cons, ih, recoverBlocker_rows, List.map_map]
      exact List.map_congr_left (fun r _ => recoverRow_cons store now eventId rest r)

theorem recoverStaleIngestBlockers_rows (t : EventTable) (store : OntologyStore)
    (now cutoff : Int) (limit : Nat) :
    (t.recoverStaleIngestBlockers store now cutoff limit).rows =
      t.rows.map (recoverRow store now ((t.staleBlockers cutoff limit).map CleanupEvent.eventId)) :=
  foldl_recoverBlocker_rows _ _ _ _

end EventTable

end Lightfriend.Purge
