import Lightfriend.Bridge.Message
import Lightfriend.Purge.Worker

/-! # The bridge handler beside the purge worker

Every event that the handler records has a row, and the row is a blocker until its
message is stored or discarded. A boundary is taken only in a room without a
blocker, so what was received before it is accounted for by then, and stays so.
-/

namespace Lightfriend.Purge

open Bridge

/-! ## What the worker holds -/

/-- The event whose row a repository call addresses. -/
def PurgeWrite.eventIds : PurgeWrite → List String
  | eventAttempt eventId _ => [eventId]
  | eventSubmitted eventId _ => [eventId]
  | eventRetrying eventId _ _ => [eventId]
  | eventExhausted eventId _ _ => [eventId]
  | _ => []

namespace Stage

/-- The events of whose rows the worker may write a status. -/
def names : Stage → List String
  | listSubmittedRooms submitted => submitted.map CleanupEvent.eventId
  | poll submitted _ => submitted.map CleanupEvent.eventId
  | pollWrite write submitted _ => write.eventIds ++ submitted.map CleanupEvent.eventId
  | listDueRooms _ due => due.map CleanupEvent.eventId
  | submit due _ => due.map CleanupEvent.eventId
  | prepare candidate _ due _ => (candidate :: due).map CleanupEvent.eventId
  | send candidate _ _ due _ => (candidate :: due).map CleanupEvent.eventId
  | probe candidate _ due _ => (candidate :: due).map CleanupEvent.eventId
  | settle write due _ => write.eventIds ++ due.map CleanupEvent.eventId
  | _ => []

/-- The boundaries that are still to be submitted in this cycle. -/
def due : Stage → List CleanupEvent
  | listDueRooms _ due => due
  | submit due _ => due
  | prepare candidate _ due _ => candidate :: due
  | send candidate _ _ due _ => candidate :: due
  | probe _ _ due _ => due
  | settle _ due _ => due
  | _ => []

/-- The boundary whose request is sent next. -/
def sending : Stage → Option CleanupEvent
  | send candidate _ _ _ _ => some candidate
  | _ => none

theorem mem_due_of_sending {stage : Stage} {candidate : CleanupEvent}
    (h : stage.sending = some candidate) : candidate ∈ stage.due := by
  cases stage with
  | send c attempt request due dueRooms =>
      cases h
      exact List.mem_cons_self
  | _ => cases h

def candidates : Stage → List EventTable.HistoricalBackfillCandidate
  | backfill queue => queue
  | enqueue candidate _ _ queue => candidate :: queue
  | _ => []

end Stage

namespace EventStatement

/-- Does the statement name the event whose row it writes a status to? -/
def addresses (eventId : String) : EventStatement → Bool
  | enqueued _ _ _ _ _ id _ => decide (id = eventId)
  | audit _ c _ _ => decide (c.eventId = eventId)
  | attempt _ id _ => decide (id = eventId)
  | submitted _ id _ => decide (id = eventId)
  | retrying _ id _ _ => decide (id = eventId)
  | exhausted _ id _ _ => decide (id = eventId)
  | _ => false

/-- A blocker is lifted by a statement that names it, or once its message is stored. -/
theorem rewrite_blocker {store : OntologyStore} {t : EventTable} {r : CleanupEvent} (hr : r ∈ t)
    (hblocker : r.status.isIngestBlocker = true) (stmt : EventStatement) :
    (stmt.rewrite store t r).status.isIngestBlocker = true ∨
      (∃ id, EventTable.ontologyIdOf store r.eventId = some id) ∨
        stmt.addresses r.eventId = true := by
  have hset : ∀ {p : Prop} [Decidable p] {set : CleanupEvent},
      (p → set.status.isIngestBlocker = true ∨ stmt.addresses r.eventId = true) →
      (if p then set else r).status.isIngestBlocker = true ∨
        (∃ id, EventTable.ontologyIdOf store r.eventId = some id) ∨
          stmt.addresses r.eventId = true := by
    intro p _ set hp
    split
    next h => exact (hp h).imp_right Or.inr
    · exact Or.inl hblocker
  cases stmt with
  | keep => exact Or.inl hblocker
  | ingesting now userId service roomId eventId deleteMedia => exact Or.inl hblocker
  | discarded now userId service roomId eventId reason => exact Or.inl hblocker
  | unproven now userId service roomId eventId reason => exact Or.inl hblocker
  | reorder rows => exact Or.inl hblocker
  | ingestFailed now eventId error => exact hset (fun _ => Or.inl rfl)
  | enqueued now userId ontologyMessageId service roomId eventId deleteMedia =>
      exact hset (fun h => Or.inr (by simp [addresses, h]))
  | audit now c verified summary => exact hset (fun h => Or.inr (by simp [addresses, h]))
  | attempt now eventId n => exact hset (fun h => Or.inr (by simp [addresses, h]))
  | submitted now eventId purgeId => exact hset (fun h => Or.inr (by simp [addresses, h]))
  | retrying now eventId n error => exact hset (fun h => Or.inr (by simp [addresses, h]))
  | exhausted now eventId n error => exact hset (fun h => Or.inr (by simp [addresses, h]))
  | recoverStale now cutoff limit =>
      rcases EventTable.recoverRow_spec store now
        ((t.staleBlockers cutoff limit).map CleanupEvent.eventId) r with heq | ⟨id, hid, _, _, _⟩
      · left
        simp only [rewrite, heq]
        exact hblocker
      · exact Or.inr (Or.inl ⟨id, hid⟩)
  | requeueExhausted now cutoff limit =>
      refine hset (fun h => ?_)
      rw [List.contains_iff_mem] at h
      rw [exhaustedEventIds_spec hr h] at hblocker
      cases hblocker
  | enqueueVerified now c summary =>
      refine hset (fun h => ?_)
      simp only [EventTable.inAuditState, Bool.and_eq_true, decide_eq_true_eq] at h
      rw [h.2] at hblocker
      cases hblocker
  | enqueueForced now c summary =>
      refine hset (fun h => ?_)
      simp only [EventTable.inAuditState, Bool.and_eq_true, decide_eq_true_eq] at h
      rw [h.2] at hblocker
      cases hblocker
  | succeededThrough now roomId enqueuedAt =>
      refine hset (fun h => ?_)
      simp only [EventTable.completes, Bool.and_eq_true] at h
      have hopen := h.2
      cases hstatus : r.status <;> simp_all [CleanupStatus.isIngestBlocker, CleanupStatus.isOpen]

end EventStatement

/-! ## What a step of the worker takes up -/

section Planned

variable {codec : PurgeCodec} {s : PurgeState} {a : Action} {p : Plan}

theorem eventIds_recordPurgeFailure (maxAttempts : Int) (candidate : CleanupEvent)
    (attempt : Int) (error : String) :
    (recordPurgeFailure maxAttempts candidate attempt error).eventIds = [candidate.eventId] := by
  unfold recordPurgeFailure
  split <;> rfl

theorem eventIds_pollSubmittedPurge {maxAttempts : Int} {candidate : CleanupEvent}
    {outcome : HttpOutcome} {write : PurgeWrite}
    (h : pollSubmittedPurge codec maxAttempts candidate outcome = some write) :
    ∀ e ∈ write.eventIds, e = candidate.eventId := by
  intro e he
  rcases pollSubmittedPurge_spec h with ⟨rfl, _, _⟩ | ⟨error, rfl⟩
  · cases he
  · rw [eventIds_recordPurgeFailure] at he
    exact List.mem_singleton.mp he

theorem eventIds_pollSubmittedRoomHistoryPurge {maxAttempts : Int} {candidate : RoomHistoryPurge}
    {outcome : HttpOutcome} {write : PurgeWrite}
    (h : pollSubmittedRoomHistoryPurge codec maxAttempts candidate outcome = some write) :
    write.eventIds = [] := by
  rcases pollSubmittedRoomHistoryPurge_spec h with ⟨rfl, _, _⟩ | ⟨error, rfl⟩
  · rfl
  · rfl

theorem eventIds_afterSubmitRoom (maxAttempts : Int) (candidate : RoomHistoryPurge)
    (attempt : Int) (outcome : HttpOutcome) :
    (afterSubmitRoom codec maxAttempts candidate attempt outcome).eventIds = [] := by
  unfold afterSubmitRoom
  split
  · rfl
  · split <;> rfl

/-- A named event was named before, or its row is submitted or due. -/
theorem planned_names (h : Planned codec s a p) {e : String} (he : e ∈ p.stage.names) :
    e ∈ s.stage.names ∨ ∃ r ∈ s.events, r.eventId = e ∧ r.status.isIngestBlocker = false := by
  cases h with
  | ingest stmt hingest => exact Or.inl he
  | storeMessage msg => exact Or.inl he
  | census stmt hcensus => exact Or.inl he
  | reorderEvents rows => exact Or.inl he
  | reorderRooms rows => exact Or.inl he
  | finish purgeId outcome => exact Or.inl he
  | begin config now runBackfill hstage =>
      simp only at he
      split at he <;> cases he
  | requeueRooms now runBackfill hstage =>
      simp only at he
      split at he <;> cases he
  | audit now verified summary candidate queue scanned recorded hstage =>
      simp only at he
      split at he <;> cases he
  | listSubmitted now hstage =>
      obtain ⟨c, hc, rfl⟩ := List.mem_map.mp he
      obtain ⟨hmem, hstatus⟩ := EventTable.listSubmitted_spec hc
      exact Or.inr ⟨c, hmem, rfl, by rw [hstatus]; rfl⟩
  | listDue now slots hstage =>
      obtain ⟨c, hc, rfl⟩ := List.mem_map.mp he
      obtain ⟨hmem, _, _, _, hclear⟩ := EventTable.listDueRoomBoundaries_spec hc
      exact Or.inr ⟨c, hmem, rfl, (hclear c hmem rfl).1⟩
  | listSubmittedRooms now submitted hstage => exact Or.inl (hstage ▸ he)
  | listDueRooms now slots due hstage => exact Or.inl (hstage ▸ he)
  | pollKept outcome candidate submitted submittedRooms hstage hpoll =>
      exact Or.inl (hstage ▸ List.mem_cons_of_mem _ he)
  | polled outcome candidate submitted submittedRooms write hstage hpoll =>
      rw [hstage]
      refine Or.inl ?_
      rcases List.mem_append.mp he with he | he
      · rw [eventIds_pollSubmittedPurge hpoll e he]
        exact List.mem_cons_self
      · exact List.mem_cons_of_mem _ he
  | pollRoomKept outcome candidate submittedRooms hstage hpoll => exact Or.inl (hstage ▸ he)
  | polledRoom outcome candidate submittedRooms write hstage hpoll =>
      rw [Stage.names, eventIds_pollSubmittedRoomHistoryPurge hpoll] at he
      cases he
  | pollWrite now ok write submitted submittedRooms hstage =>
      exact Or.inl (hstage ▸ List.mem_append_right _ he)
  | attempt now candidate due dueRooms hstage => exact Or.inl (hstage ▸ he)
  | attemptFailed now candidate due dueRooms hstage =>
      exact Or.inl (hstage ▸ List.mem_cons_of_mem _ he)
  | attemptRoomFailed now candidate dueRooms hstage => exact Or.inl (hstage ▸ he)
  | prepared now candidate attempt request due dueRooms hstage hrequest =>
      exact Or.inl (hstage ▸ he)
  | sent outcome accepted candidate attempt request due dueRooms hstage =>
      rw [hstage]
      refine Or.inl ?_
      simp only [afterSubmit] at he
      split at he
      · exact he
      · split at he
        · exact he
        · simpa only [Stage.names, eventIds_recordPurgeFailure, List.singleton_append,
            List.map_cons] using he
  | sentRoom outcome accepted candidate attempt dueRooms hstage =>
      rw [Stage.names, eventIds_afterSubmitRoom] at he
      cases he
  | failed action candidate attempt error due dueRooms hstage =>
      simp only [Stage.names, eventIds_recordPurgeFailure, List.singleton_append] at he
      rcases hstage with hstage | hstage
      · exact Or.inl (hstage ▸ he)
      · exact Or.inl (hstage ▸ he)
  | probed now candidate attempt due dueRooms hstage hnewer =>
      exact Or.inl (hstage ▸ List.mem_cons_of_mem _ he)
  | settle now ok write due dueRooms hstage =>
      exact Or.inl (hstage ▸ List.mem_append_right _ he)
  | _ => cases he

/-- A boundary is taken up from the list of due ones. -/
theorem planned_due (h : Planned codec s a p) {c : CleanupEvent} (hc : c ∈ p.stage.due) :
    c ∈ s.stage.due ∨ ∃ slots, c ∈ s.dueBoundaries slots := by
  cases h with
  | ingest stmt hingest => exact Or.inl hc
  | storeMessage msg => exact Or.inl hc
  | census stmt hcensus => exact Or.inl hc
  | reorderEvents rows => exact Or.inl hc
  | reorderRooms rows => exact Or.inl hc
  | finish purgeId outcome => exact Or.inl hc
  | begin config now runBackfill hstage =>
      simp only at hc
      split at hc <;> cases hc
  | requeueRooms now runBackfill hstage =>
      simp only at hc
      split at hc <;> cases hc
  | audit now verified summary candidate queue scanned recorded hstage =>
      simp only at hc
      split at hc <;> cases hc
  | listDue now slots hstage => exact Or.inr ⟨slots, hc⟩
  | listDueRooms now slots due hstage => exact Or.inl (hstage ▸ hc)
  | attempt now candidate due dueRooms hstage => exact Or.inl (hstage ▸ hc)
  | attemptFailed now candidate due dueRooms hstage =>
      exact Or.inl (hstage ▸ List.mem_cons_of_mem _ hc)
  | attemptRoomFailed now candidate dueRooms hstage => exact Or.inl (hstage ▸ hc)
  | prepared now candidate attempt request due dueRooms hstage hrequest =>
      exact Or.inl (hstage ▸ hc)
  | sent outcome accepted candidate attempt request due dueRooms hstage =>
      rw [hstage]
      refine Or.inl ?_
      simp only [afterSubmit] at hc
      split at hc
      · exact List.mem_cons_of_mem _ hc
      · split at hc
        · exact List.mem_cons_of_mem _ hc
        · exact List.mem_cons_of_mem _ hc
  | failed action candidate attempt error due dueRooms hstage =>
      rcases hstage with hstage | hstage
      · exact Or.inl (hstage ▸ List.mem_cons_of_mem _ hc)
      · exact Or.inl (hstage ▸ hc)
  | probed now candidate attempt due dueRooms hstage hnewer => exact Or.inl (hstage ▸ hc)
  | settle now ok write due dueRooms hstage => exact Or.inl (hstage ▸ hc)
  | _ => cases hc

theorem planned_candidates (h : Planned codec s a p)
    {c : EventTable.HistoricalBackfillCandidate} (hc : c ∈ p.stage.candidates) :
    c ∈ s.stage.candidates ∨ c ∈ s.backfillCandidates := by
  cases h with
  | ingest stmt hingest => exact Or.inl hc
  | storeMessage msg => exact Or.inl hc
  | census stmt hcensus => exact Or.inl hc
  | reorderEvents rows => exact Or.inl hc
  | reorderRooms rows => exact Or.inl hc
  | finish purgeId outcome => exact Or.inl hc
  | begin config now runBackfill hstage =>
      simp only at hc
      split at hc <;> cases hc
  | requeueRooms now runBackfill hstage =>
      simp only at hc
      split at hc <;> cases hc
  | listBackfill now hstage => exact Or.inr hc
  | audit now verified summary candidate queue scanned recorded hstage =>
      rw [hstage]
      simp only at hc
      split at hc
      · exact Or.inl hc
      · exact Or.inl (List.mem_cons_of_mem _ hc)
  | enqueue now candidate kind summary queue hstage =>
      exact Or.inl (hstage ▸ List.mem_cons_of_mem _ hc)
  | sent outcome accepted candidate attempt request due dueRooms hstage =>
      simp only [afterSubmit] at hc
      split at hc
      · cases hc
      · split at hc <;> cases hc
  | _ => cases hc

theorem PurgeWrite.addresses_onEvents {write : PurgeWrite} {now : Int} {e : String}
    (h : (write.onEvents now).addresses e = true) : e ∈ write.eventIds := by
  cases write with
  | eventAttempt eventId attempt => exact List.mem_singleton.mpr (of_decide_eq_true h).symm
  | eventSubmitted eventId purgeId => exact List.mem_singleton.mpr (of_decide_eq_true h).symm
  | eventRetrying eventId attempt error =>
      exact List.mem_singleton.mpr (of_decide_eq_true h).symm
  | eventExhausted eventId attempt error =>
      exact List.mem_singleton.mpr (of_decide_eq_true h).symm
  | _ => cases h

/-- Outside the handler, a statement addresses an event that the worker names or audits. -/
theorem planned_addresses (h : Planned codec s a p) {e : String}
    (he : p.events.addresses e = true) :
    (∃ stmt, a = .ingest stmt) ∨ e ∈ s.stage.names ∨
      ∃ c ∈ s.stage.candidates, c.eventId = e := by
  cases h with
  | ingest stmt hingest => exact Or.inl ⟨stmt, rfl⟩
  | audit now verified summary candidate queue scanned recorded hstage =>
      rw [hstage]
      exact Or.inr (Or.inr ⟨candidate, List.mem_cons_self, of_decide_eq_true he⟩)
  | enqueue now candidate kind summary queue hstage => cases kind <;> cases he
  | pollWrite now ok write submitted submittedRooms hstage =>
      cases ok with
      | false => cases he
      | true =>
          rw [hstage]
          exact Or.inr (Or.inl (List.mem_append_left _ (PurgeWrite.addresses_onEvents he)))
  | attempt now candidate due dueRooms hstage =>
      rw [hstage]
      refine Or.inr (Or.inl ?_)
      rw [← of_decide_eq_true he]
      exact List.mem_cons_self
  | settle now ok write due dueRooms hstage =>
      cases ok with
      | false => cases he
      | true =>
          rw [hstage]
          exact Or.inr (Or.inl (List.mem_append_left _ (PurgeWrite.addresses_onEvents he)))
  | _ => cases he

/-- Outside the handler, a new row is the audit row of a candidate. -/
theorem planned_newRow (h : Planned codec s a p) {r : CleanupEvent}
    (hr : p.events.newRow = some r) :
    (∃ stmt, a = .ingest stmt) ∨
      ∃ c ∈ s.stage.candidates, r.eventId = c.eventId ∧ r.roomId = c.roomId := by
  cases h with
  | ingest stmt hingest => exact Or.inl ⟨stmt, rfl⟩
  | audit now verified summary candidate queue scanned recorded hstage =>
      cases hr
      rw [hstage]
      exact Or.inr ⟨candidate, List.mem_cons_self, rfl, rfl⟩
  | enqueue now candidate kind summary queue hstage => cases kind <;> cases hr
  | pollWrite now ok write submitted submittedRooms hstage =>
      cases ok with
      | false => cases hr
      | true => cases write <;> cases hr
  | settle now ok write due dueRooms hstage =>
      cases ok with
      | false => cases hr
      | true => cases write <;> cases hr
  | _ => cases hr

theorem planned_message (h : Planned codec s a p) {msg : NewOntMessage}
    (hmsg : p.message = some msg) : a = .storeMessage msg := by
  cases h with
  | storeMessage msg =>
      cases hmsg
      rfl
  | _ => cases hmsg

theorem planned_messages (h : Planned codec s a p) (hstore : ∀ msg, a ≠ .storeMessage msg) :
    (s.perform p).messages = s.messages := by
  have hmessage : p.message = none := by
    cases hmsg : p.message with
    | none => rfl
    | some msg => exact absurd (planned_message h hmsg) (hstore msg)
  simp only [PurgeState.perform, hmessage]

theorem backfillCandidates_stored {c : EventTable.HistoricalBackfillCandidate}
    (h : c ∈ s.backfillCandidates) :
    ∃ m ∈ s.messages, m.matrixEventId = some c.eventId ∧ m.roomId = c.roomId := by
  have hlisted := List.mem_of_mem_take h
  rw [mem_orderBy] at hlisted
  obtain ⟨m, hm, hc⟩ := List.mem_filterMap.mp (List.mem_filter.mp hlisted).1
  have hstored := mem_of_mem_firstPerGroup hm
  rw [mem_orderBy] at hstored
  obtain ⟨e, he, rfl⟩ := Option.map_eq_some_iff.mp hc
  exact ⟨m, (List.mem_filter.mp hstored).1, he, rfl⟩

end Planned

/-! ## The invariant -/

section Guarded

variable (roomOf : String → String) (received : List String) (accounted : String → Prop)

/-- What was received before a boundary is accounted for. -/
structure Cleared (c : CleanupEvent) : Prop where
  known : c.eventId ∈ received
  earlier : ∀ e ∈ received.takeWhile (· ≠ c.eventId), roomOf e = c.roomId → accounted e

/-- The rows of the queue are of events received, and lifted only when accounted for. -/
structure RowsGuarded (events : EventTable) : Prop where
  known : ∀ r ∈ events, r.eventId ∈ received ∧ r.roomId = roomOf r.eventId
  lifted : ∀ r ∈ events, r.status.isIngestBlocker = true ∨ accounted r.eventId

structure Guarded (s : PurgeState) : Prop where
  recorded : ∀ e ∈ received, s.events.HasKey e
  events : RowsGuarded roomOf received accounted s.events
  stored : ∀ m ∈ s.messages, ∀ e, m.matrixEventId = some e →
    accounted e ∧ e ∈ received ∧ m.roomId = roomOf e
  named : ∀ e ∈ s.stage.names, accounted e
  cleared : ∀ c ∈ s.stage.due, Cleared roomOf received accounted c
  audited : ∀ c ∈ s.stage.candidates,
    ∃ m ∈ s.messages, m.matrixEventId = some c.eventId ∧ m.roomId = c.roomId

variable {roomOf received accounted}

theorem RowsGuarded.apply {events : EventTable} {messages : OntologyStore}
    (h : RowsGuarded roomOf received accounted events)
    (hstored : ∀ m ∈ messages, ∀ e, m.matrixEventId = some e → accounted e)
    (stmt : EventStatement) (haddressed : ∀ e, stmt.addresses e = true → accounted e)
    (hnew : ∀ r, stmt.newRow = some r → ¬ events.HasKey r.eventId →
      r.eventId ∈ received ∧ r.roomId = roomOf r.eventId ∧
        (r.status.isIngestBlocker = true ∨ accounted r.eventId)) :
    RowsGuarded roomOf received accounted (stmt.apply messages events) where
  known := by
    intro r hr
    rcases EventStatement.mem_apply.mp hr with ⟨old, hold, rfl⟩ | ⟨hrow, hfree⟩
    · rw [EventStatement.rewrite_eventId, EventStatement.rewrite_roomId]
      exact h.known old hold
    · obtain ⟨hreceived, hroom, _⟩ := hnew r hrow hfree
      exact ⟨hreceived, hroom⟩
  lifted := by
    intro r hr
    rcases EventStatement.mem_apply.mp hr with ⟨old, hold, rfl⟩ | ⟨hrow, hfree⟩
    · rw [EventStatement.rewrite_eventId]
      rcases h.lifted old hold with hblocker | haccounted
      · rcases EventStatement.rewrite_blocker hold hblocker stmt with hkept | ⟨id, hid⟩ | hnamed
        · exact Or.inl hkept
        · obtain ⟨m, hm, he, _⟩ := EventTable.ontologyIdOf_spec hid
          exact Or.inr (hstored m hm _ he)
        · exact Or.inr (haddressed _ hnamed)
      · exact Or.inr haccounted
    · exact (hnew r hrow hfree).2.2

/-- In a room of the due list, every event received is accounted for. -/
theorem Guarded.accounted_of_due {s : PurgeState} (h : Guarded roomOf received accounted s)
    {active : List String} {cutoff : Int} {limit : Nat} {c : CleanupEvent}
    (hc : c ∈ s.events.listDueRoomBoundaries active cutoff limit) {e : String}
    (he : e ∈ received) (hroom : roomOf e = c.roomId) : accounted e := by
  obtain ⟨_, _, _, _, hclear⟩ := EventTable.listDueRoomBoundaries_spec hc
  obtain ⟨r, hr, hid⟩ := Table.hasKey_iff.mp (h.recorded e he)
  have hsame : r.roomId = c.roomId := by rw [(h.events.known r hr).2, hid, hroom]
  rcases h.events.lifted r hr with hblocker | haccounted
  · rw [(hclear r hr hsame).1] at hblocker
    cases hblocker
  · exact hid ▸ haccounted

theorem Guarded.cleared_of_due {s : PurgeState} (h : Guarded roomOf received accounted s)
    {c : CleanupEvent} {slots : Nat} (hc : c ∈ s.dueBoundaries slots) :
    Cleared roomOf received accounted c where
  known := (h.events.known c (EventTable.listDueRoomBoundaries_spec hc).1).1
  earlier := fun _ he hroom =>
    h.accounted_of_due hc ((List.takeWhile_sublist _).subset he) hroom

theorem hasKey_apply {messages : OntologyStore} {events : EventTable} {e : String}
    (stmt : EventStatement) (h : events.HasKey e) : (stmt.apply messages events).HasKey e := by
  obtain ⟨r, hr, hid⟩ := Table.hasKey_iff.mp h
  refine Table.hasKey_iff.mpr ⟨_, EventStatement.mem_apply.mpr (Or.inl ⟨r, hr, rfl⟩), ?_⟩
  rw [EventStatement.rewrite_eventId, hid]

/-- Every step of the worker, and of all but the handler, keeps the guard. -/
theorem Guarded.planned {codec : PurgeCodec} {s : PurgeState} {a : Action} {p : Plan}
    (h : Guarded roomOf received accounted s) (hplan : Planned codec s a p)
    (hworker : ∀ stmt, a ≠ .ingest stmt) (hstore : ∀ msg, a ≠ .storeMessage msg) :
    Guarded roomOf received accounted (s.perform p) := by
  have hmessages := planned_messages hplan hstore
  have hcandidate : ∀ c ∈ s.stage.candidates, accounted c.eventId ∧ c.eventId ∈ received ∧
      c.roomId = roomOf c.eventId := by
    intro c hc
    obtain ⟨m, hm, he, hroom⟩ := h.audited c hc
    obtain ⟨haccounted, hreceived, hof⟩ := h.stored m hm _ he
    exact ⟨haccounted, hreceived, hroom ▸ hof⟩
  refine ⟨fun e he => hasKey_apply p.events (h.recorded e he), ?_, ?_, ?_, ?_, ?_⟩
  · refine h.events.apply (fun m hm e he => (h.stored m hm e he).1) p.events ?_ ?_
    · intro e he
      rcases planned_addresses hplan he with ⟨stmt, hstmt⟩ | hnamed | ⟨c, hc, rfl⟩
      · exact absurd hstmt (hworker stmt)
      · exact h.named e hnamed
      · exact (hcandidate c hc).1
    · intro r hr _
      rcases planned_newRow hplan hr with ⟨stmt, hstmt⟩ | ⟨c, hc, hid, hroom⟩
      · exact absurd hstmt (hworker stmt)
      · obtain ⟨haccounted, hreceived, hof⟩ := hcandidate c hc
        rw [hid, hroom]
        exact ⟨hreceived, hof, Or.inr haccounted⟩
  · rw [hmessages]
    exact h.stored
  · intro e he
    rcases planned_names hplan he with hnamed | ⟨r, hr, hid, hclear⟩
    · exact h.named e hnamed
    · rcases h.events.lifted r hr with hblocker | haccounted
      · rw [hclear] at hblocker
        cases hblocker
      · exact hid ▸ haccounted
  · intro c hc
    rcases planned_due hplan hc with hdue | ⟨slots, hdue⟩
    · exact h.cleared c hdue
    · exact h.cleared_of_due hdue
  · intro c hc
    rw [hmessages]
    rcases planned_candidates hplan hc with hold | hnew
    · exact h.audited c hold
    · exact backfillCandidates_stored hnew

theorem takeWhile_ne_append {first : List String} (more : List String) {e : String}
    (h : e ∈ first) : (first ++ more).takeWhile (· ≠ e) = first.takeWhile (· ≠ e) := by
  induction first with
  | nil => cases h
  | cons x rest ih =>
      by_cases hx : x = e
      · simp [hx]
      · have hrest : e ∈ rest := (List.mem_cons.mp h).resolve_left (Ne.symm hx)
        simp only [List.cons_append, List.takeWhile_cons, ih hrest]

variable {accounted' : String → Prop}

theorem Cleared.mono {c : CleanupEvent} (h : Cleared roomOf received accounted c)
    (more : List String) (hmono : ∀ e, accounted e → accounted' e) :
    Cleared roomOf (received ++ more) accounted' c where
  known := List.mem_append_left _ h.known
  earlier := by
    intro e he hroom
    rw [takeWhile_ne_append more h.known] at he
    exact hmono e (h.earlier e he hroom)

/-- A marker of the handler: what it receives it records. -/
theorem Guarded.marked {s : PurgeState} (h : Guarded roomOf received accounted s)
    {more : List String} (hmono : ∀ e, accounted e → accounted' e) (stmt : EventStatement)
    (haddressed : ∀ e, stmt.addresses e = true → accounted' e)
    (hnew : ∀ r, stmt.newRow = some r → ¬ s.events.HasKey r.eventId →
      r.eventId ∈ received ++ more ∧ r.roomId = roomOf r.eventId ∧
        (r.status.isIngestBlocker = true ∨ accounted' r.eventId))
    (hrecorded : ∀ e ∈ more, (stmt.apply s.messages s.events).HasKey e) :
    Guarded roomOf (received ++ more) accounted'
      (s.perform { events := stmt, stage := s.stage }) where
  recorded := by
    intro e he
    rcases List.mem_append.mp he with he | he
    · exact hasKey_apply stmt (h.recorded e he)
    · exact hrecorded e he
  events := by
    have hrows : RowsGuarded roomOf (received ++ more) accounted' s.events :=
      { known := fun r hr =>
          ⟨List.mem_append_left _ (h.events.known r hr).1, (h.events.known r hr).2⟩
        lifted := fun r hr => (h.events.lifted r hr).imp_right (hmono _) }
    refine hrows.apply ?_ stmt haddressed hnew
    exact fun m hm e he => hmono e (h.stored m hm e he).1
  stored := by
    intro m hm e he
    obtain ⟨haccounted, hreceived, hroom⟩ := h.stored m hm e he
    exact ⟨hmono e haccounted, List.mem_append_left _ hreceived, hroom⟩
  named := fun e he => hmono e (h.named e he)
  cleared := fun c hc => (h.cleared c hc).mono more hmono
  audited := h.audited

/-- A message of an event that was received, or of another source. -/
theorem Guarded.storing {s : PurgeState} (h : Guarded roomOf received accounted s)
    (hmono : ∀ e, accounted e → accounted' e) (msg : NewOntMessage)
    (hmsg : ∀ e, msg.matrixEventId = some e →
      accounted' e ∧ e ∈ received ∧ msg.roomId = roomOf e) :
    Guarded roomOf received accounted'
      (s.perform { message := some msg, stage := s.stage }) where
  recorded := h.recorded
  events :=
    { known := h.events.known
      lifted := fun r hr => (h.events.lifted r hr).imp_right (hmono _) }
  stored := by
    intro m hm e he
    rcases OntologyStore.mem_insertMessage hm with hm | rfl
    · obtain ⟨haccounted, hrest⟩ := h.stored m hm e he
      exact ⟨hmono e haccounted, hrest⟩
    · exact hmsg e he
  named := fun e he => hmono e (h.named e he)
  cleared := by
    intro c hc
    have hmono := (h.cleared c hc).mono [] hmono
    rwa [List.append_nil] at hmono
  audited := by
    intro c hc
    obtain ⟨m, hm, hsame⟩ := h.audited c hc
    exact ⟨m, OntologyStore.insertMessage_mono hm, hsame⟩

end Guarded

/-! ## The handler and the worker together -/

/-- A spawned insert between its statements. -/
inductive InsertPhase
  | inserting
  | inserted (ontologyMessageId : Int)
  | failed (error : String)
deriving DecidableEq, Repr

structure InsertTask where
  userId : Int
  service : String
  roomId : String
  eventId : String
  deleteMedia : Bool
  message : NewOntMessage
  phase : InsertPhase
deriving DecidableEq, Repr

/-- The insert succeeds, is refused, or takes place and its answer is lost. -/
inductive InsertAnswer
  | done
  | refused (error : String)
  | lost (error : String)
deriving DecidableEq, Repr

/-- The queues and the worker, the spawned inserts, and what the handler did so far: the message
events it received, those it recorded as discarded and the messages it handed on. -/
structure IngestState where
  purge : PurgeState
  tasks : List InsertTask
  received : List String
  discarded : List String
  built : List NewOntMessage

def IngestState.initial : IngestState := ⟨PurgeState.initial, [], [], [], []⟩

inductive IngestAction
  | receive (d : Delivery) (now : Int)
  | insert (index : Nat) (answer : InsertAnswer)
  | mark (index : Nat) (now : Int)
  /-- A message of another source, without a Matrix event. -/
  | storeOther (msg : NewOntMessage)
  | worker (a : Action)
  | restart

/-- A marker; identifiers that are not Matrix ones are refused. -/
def IngestState.marker (s : IngestState) (valid : Bool) (stmt : EventStatement) : IngestState :=
  if valid then { s with purge := s.purge.perform { events := stmt, stage := s.purge.stage } }
  else s

def IngestState.store (s : IngestState) (msg : NewOntMessage) : IngestState :=
  { s with purge := s.purge.perform { message := some msg, stage := s.purge.stage } }

/-- Is the event a message of a portal room, and not an edit? -/
def isPortalMessage (d : Delivery) : Bool := !d.isReplacement && !isManagementRoom d

def receivedEvents (d : Delivery) : List String := if isPortalMessage d then [d.eventId] else []

def IngestState.receive (lowercase : String → String) (s : IngestState) (d : Delivery)
    (now : Int) : IngestState :=
  let s := { s with received := s.received ++ receivedEvents d }
  match handleBridgeMessage lowercase d with
  | .retained userId service reason =>
      s.marker d.hasMatrixIds (.unproven now userId service d.roomId d.eventId reason)
  | .discarded userId service reason =>
      let inserted := d.hasMatrixIds && !decide (s.purge.events.HasKey d.eventId)
      let discarded := if inserted then [d.eventId] else []
      { s with discarded := s.discarded ++ discarded }.marker d.hasMatrixIds
        (.discarded now userId service d.roomId d.eventId reason)
  | .ingested userId service deleteMedia message =>
      let task : InsertTask :=
        { userId, service, roomId := d.roomId, eventId := d.eventId, deleteMedia, message
          phase := .inserting }
      { s with tasks := s.tasks ++ [task], built := s.built ++ [message] }.marker d.hasMatrixIds
        (.ingesting now userId service d.roomId d.eventId deleteMedia)
  | _ => s

def InsertTask.hasMatrixIds (task : InsertTask) : Bool :=
  isMatrixEventId task.eventId && startsWithChar '!' task.roomId

/-- What a spawned insert writes to the queue once the store has answered. -/
def InsertTask.marker (task : InsertTask) (now : Int) : Option (Bool × EventStatement) :=
  match task.phase with
  | .inserting => none
  | .inserted ontologyMessageId =>
      some (task.hasMatrixIds, .enqueued now task.userId ontologyMessageId task.service task.roomId
        task.eventId task.deleteMedia)
  | .failed error => some (true, .ingestFailed now task.eventId error)

def Action.isWorker : Action → Bool
  | .ingest _ => false
  | .storeMessage _ => false
  | _ => true

section System

variable (lowercase : String → String) (roomOf : String → String) (codec : PurgeCodec)

/-- An event belongs to one room. -/
def ingestStep (s : IngestState) : IngestAction → Option IngestState
  | .receive d now =>
      if d.roomId = roomOf d.eventId then some (s.receive lowercase d now) else none
  | .insert index answer =>
      match s.tasks[index]? with
      | none => none
      | some task =>
          if task.phase ≠ .inserting then none
          else
            let set := fun phase => s.tasks.set index { task with phase }
            match answer with
            | .done =>
                let created := (s.purge.messages.insertMessage task.message).1.1
                some ({ s with tasks := set (.inserted created.id) }.store task.message)
            | .refused error => some { s with tasks := set (.failed error) }
            | .lost error => some ({ s with tasks := set (.failed error) }.store task.message)
  | .mark index now =>
      match s.tasks[index]? with
      | none => none
      | some task =>
          (task.marker now).map (fun (valid, stmt) =>
            { s with tasks := s.tasks.eraseIdx index }.marker valid stmt)
  | .storeOther msg => if msg.matrixEventId = none then some (s.store msg) else none
  | .worker a =>
      if a.isWorker then (step codec s.purge a).map (fun purge => { s with purge }) else none
  | .restart => some { s with purge := s.purge.perform { stage := .idle }, tasks := [] }

/-- A received event leaves a row behind: its exit records it, or an earlier delivery did. -/
def recordsDelivery (s : IngestState) : IngestAction → Prop
  | .receive d _ => isPortalMessage d = true →
      ((handleBridgeMessage lowercase d).isRecorded = true ∧ d.hasMatrixIds = true) ∨
        s.purge.events.HasKey d.eventId
  | _ => True

instance (s : IngestState) (a : IngestAction) : Decidable (recordsDelivery lowercase s a) := by
  cases a <;> (simp only [recordsDelivery]; infer_instance)

end System

/-! ## What is accounted for -/

/-- The event's message is stored, under its event or as a duplicate, or it was discarded. -/
def IngestState.Accounted (s : IngestState) (e : String) : Prop :=
  (∃ msg ∈ s.built, msg.matrixEventId = some e ∧ s.purge.messages.Stores msg) ∨ e ∈ s.discarded

theorem IngestState.Accounted.mono {s t : IngestState} (hbuilt : ∀ msg ∈ s.built, msg ∈ t.built)
    (hmessages : ∀ row ∈ s.purge.messages, row ∈ t.purge.messages)
    (hdiscarded : ∀ e ∈ s.discarded, e ∈ t.discarded) {e : String} (h : s.Accounted e) :
    t.Accounted e := by
  rcases h with ⟨msg, hmsg, he, row, hrow, hsame⟩ | he
  · exact Or.inl ⟨msg, hbuilt msg hmsg, he, row, hmessages row hrow, hsame⟩
  · exact Or.inr (hdiscarded e he)

section Invariant

variable (roomOf : String → String)

structure TaskKept (s : IngestState) (task : InsertTask) : Prop where
  built : task.message ∈ s.built
  event : task.message.matrixEventId = some task.eventId
  room : task.roomId = roomOf task.eventId
  stored : ∀ id, task.phase = .inserted id → s.purge.messages.Stores task.message

structure IngestInv (s : IngestState) : Prop where
  guarded : Guarded roomOf s.received s.Accounted s.purge
  built : ∀ msg ∈ s.built, ∀ e, msg.matrixEventId = some e →
    e ∈ s.received ∧ msg.roomId = roomOf e
  tasks : ∀ task ∈ s.tasks, TaskKept roomOf s task

variable {roomOf} {lowercase : String → String} {codec : PurgeCodec} {s : IngestState}

theorem IngestInv.initial : IngestInv roomOf IngestState.initial where
  guarded :=
    { recorded := fun _ he => absurd he List.not_mem_nil
      events :=
        { known := fun r hr => absurd hr (Table.not_mem_empty r)
          lifted := fun r hr => absurd hr (Table.not_mem_empty r) }
      stored := fun m hm => absurd hm (Table.not_mem_empty m)
      named := fun _ he => absurd he List.not_mem_nil
      cleared := fun _ hc => absurd hc List.not_mem_nil
      audited := fun _ hc => absurd hc List.not_mem_nil }
  built := fun _ hmsg => absurd hmsg List.not_mem_nil
  tasks := fun _ htask => absurd htask List.not_mem_nil

theorem isPortalMessage_of_recorded {d : Delivery}
    (h : (handleBridgeMessage lowercase d).isRecorded = true) : isPortalMessage d = true := by
  unfold handleBridgeMessage at h
  unfold isPortalMessage
  split at h
  · cases h
  next hedit =>
    split at h
    · cases h
    · split at h
      · cases h
      · split at h
        · cases h
        · split at h
          · cases h
          next hmanagement => simp [hedit, hmanagement]

/-- The handler receives an event and records it with one marker. -/
theorem IngestInv.received (h : IngestInv roomOf s) {t : IngestState} (d : Delivery)
    (stmt : EventStatement) (discarded : List String) (built : List NewOntMessage)
    (hpurge : t.purge = s.purge.perform { events := stmt, stage := s.purge.stage })
    (hreceived : t.received = s.received ++ receivedEvents d)
    (hdiscarded : t.discarded = s.discarded ++ discarded)
    (hbuilt : t.built = s.built ++ built)
    (haddressed : ∀ e, stmt.addresses e = false)
    (hnew : ∀ r, stmt.newRow = some r → ¬ s.purge.events.HasKey r.eventId →
      r.eventId ∈ t.received ∧ r.roomId = roomOf r.eventId ∧
        (r.status.isIngestBlocker = true ∨ r.eventId ∈ discarded))
    (hrecorded : ∀ e ∈ receivedEvents d,
      (stmt.apply s.purge.messages s.purge.events).HasKey e)
    (hmessages : ∀ msg ∈ built, ∀ e, msg.matrixEventId = some e →
      e ∈ t.received ∧ msg.roomId = roomOf e)
    (htasks : ∀ task ∈ t.tasks, task ∈ s.tasks ∨ task.phase = .inserting ∧
      task.message ∈ built ∧ task.message.matrixEventId = some task.eventId ∧
        task.roomId = roomOf task.eventId) : IngestInv roomOf t := by
  have hmono : ∀ e, s.Accounted e → t.Accounted e := by
    refine fun e he => he.mono ?_ ?_ ?_
    · exact fun msg hmsg => hbuilt ▸ List.mem_append_left _ hmsg
    · exact fun row hrow => hpurge ▸ hrow
    · exact fun e he => hdiscarded ▸ List.mem_append_left _ he
  refine ⟨?_, ?_, ?_⟩
  · rw [hpurge, hreceived]
    refine h.guarded.marked hmono stmt ?_ ?_ hrecorded
    · intro e he
      rw [haddressed e] at he
      cases he
    · intro r hr hfree
      rw [← hreceived]
      obtain ⟨hknown, hroom, hstatus⟩ := hnew r hr hfree
      refine ⟨hknown, hroom, hstatus.imp_right (fun he => Or.inr ?_)⟩
      exact hdiscarded ▸ List.mem_append_right _ he
  · intro msg hmsg e he
    rw [hbuilt] at hmsg
    rcases List.mem_append.mp hmsg with hmsg | hmsg
    · obtain ⟨hknown, hroom⟩ := h.built msg hmsg e he
      exact ⟨hreceived ▸ List.mem_append_left _ hknown, hroom⟩
    · exact hmessages msg hmsg e he
  · intro task htask
    rcases htasks task htask with hold | ⟨hphase, hmsg, hevent, hroom⟩
    · have hkept := h.tasks task hold
      refine ⟨hbuilt ▸ List.mem_append_left _ hkept.built, hkept.event, hkept.room, ?_⟩
      intro id hid
      rw [hpurge]
      exact hkept.stored id hid
    · refine ⟨hbuilt ▸ List.mem_append_right _ hmsg, hevent, hroom, ?_⟩
      intro id hid
      rw [hphase] at hid
      cases hid

theorem recorded_after {d : Delivery} {now : Int} {stmt : EventStatement}
    (hok : recordsDelivery lowercase s (.receive d now))
    (hmarker : (handleBridgeMessage lowercase d).isRecorded = true → d.hasMatrixIds = true →
      (stmt.apply s.purge.messages s.purge.events).HasKey d.eventId) :
    ∀ e ∈ receivedEvents d, (stmt.apply s.purge.messages s.purge.events).HasKey e := by
  intro e he
  unfold receivedEvents at he
  split at he
  next hportal =>
    rw [List.mem_singleton.mp he]
    rcases hok hportal with ⟨hrecorded, hvalid⟩ | hkey
    · exact hmarker hrecorded hvalid
    · exact hasKey_apply stmt hkey
  · cases he

/-- An exit that leaves no marker. -/
theorem IngestInv.skipped (h : IngestInv roomOf s) {d : Delivery} {now : Int}
    (hok : recordsDelivery lowercase s (.receive d now))
    (hexit : (handleBridgeMessage lowercase d).isRecorded = false ∨ d.hasMatrixIds = false) :
    IngestInv roomOf { s with received := s.received ++ receivedEvents d } := by
  refine h.received d .keep [] [] rfl rfl (List.append_nil _).symm (List.append_nil _).symm
    (fun _ => rfl) (fun _ hr => by cases hr) ?_ (fun _ hmsg => absurd hmsg List.not_mem_nil)
    (fun _ htask => Or.inl htask)
  refine recorded_after hok (fun hrecorded hvalid => ?_)
  rcases hexit with hexit | hexit
  · rw [hrecorded] at hexit
    cases hexit
  · rw [hvalid] at hexit
    cases hexit

theorem IngestInv.receive (h : IngestInv roomOf s) {d : Delivery} {now : Int}
    (hroom : d.roomId = roomOf d.eventId)
    (hok : recordsDelivery lowercase s (.receive d now)) :
    IngestInv roomOf (s.receive lowercase d now) := by
  have hknown : (handleBridgeMessage lowercase d).isRecorded = true →
      d.eventId ∈ s.received ++ receivedEvents d := by
    intro hrecorded
    refine List.mem_append_right _ ?_
    rw [receivedEvents, if_pos (isPortalMessage_of_recorded hrecorded)]
    exact List.mem_cons_self
  unfold IngestState.receive
  cases hexit : handleBridgeMessage lowercase d with
  | retained userId service reason =>
      rw [hexit] at hknown
      cases hvalid : d.hasMatrixIds with
      | false => exact h.skipped hok (Or.inr hvalid)
      | true =>
          refine h.received d (.unproven now userId service d.roomId d.eventId reason) [] [] rfl rfl
            (List.append_nil _).symm (List.append_nil _).symm (fun _ => rfl) ?_ ?_
            (fun _ hmsg => absurd hmsg List.not_mem_nil) (fun _ htask => Or.inl htask)
          · intro r hr _
            cases hr
            exact ⟨hknown rfl, hroom, Or.inl rfl⟩
          · exact recorded_after hok (fun _ _ => Table.hasKey_insertOrIgnore s.purge.events
              (EventTable.unprovenRow now userId service d.roomId d.eventId reason))
  | discarded userId service reason =>
      rw [hexit] at hknown
      cases hvalid : d.hasMatrixIds with
      | false =>
          have hskipped := h.skipped hok (Or.inr hvalid)
          simpa only [IngestState.marker, Bool.false_and, Bool.false_eq_true, if_false,
            List.append_nil] using hskipped
      | true =>
          refine h.received d (.discarded now userId service d.roomId d.eventId reason)
            (if (true && !decide (s.purge.events.HasKey d.eventId)) = true then [d.eventId] else [])
            [] rfl rfl rfl (List.append_nil _).symm (fun _ => rfl) ?_ ?_
            (fun _ hmsg => absurd hmsg List.not_mem_nil) (fun _ htask => Or.inl htask)
          · intro r hr hfree
            cases hr
            refine ⟨hknown rfl, hroom, Or.inr ?_⟩
            have hnew : ¬ s.purge.events.HasKey d.eventId := hfree
            simp [hnew, EventTable.discardedRow, EventTable.ingestingRow]
          · exact recorded_after hok (fun _ _ => Table.hasKey_insertOrIgnore s.purge.events
              (EventTable.discardedRow now userId service d.roomId d.eventId reason))
  | ingested userId service deleteMedia message =>
      rw [hexit] at hknown
      obtain ⟨hevent, hmessageRoom⟩ := handleBridgeMessage_ingested hexit
      have hmessages : ∀ msg ∈ [message], ∀ e, msg.matrixEventId = some e →
          e ∈ s.received ++ receivedEvents d ∧ msg.roomId = roomOf e := by
        intro msg hmsg e he
        rw [List.mem_singleton.mp hmsg] at he ⊢
        rw [hevent] at he
        cases he
        exact ⟨hknown rfl, hmessageRoom.trans hroom⟩
      have htasks : ∀ task ∈ s.tasks ++
          [InsertTask.mk userId service d.roomId d.eventId deleteMedia message .inserting],
          task ∈ s.tasks ∨ task.phase = .inserting ∧ task.message ∈ [message] ∧
            task.message.matrixEventId = some task.eventId ∧ task.roomId = roomOf task.eventId := by
        intro task htask
        rcases List.mem_append.mp htask with htask | htask
        · exact Or.inl htask
        · rw [List.mem_singleton.mp htask]
          exact Or.inr ⟨rfl, List.mem_singleton.mpr rfl, hevent, hroom⟩
      cases hvalid : d.hasMatrixIds with
      | false =>
          refine h.received d .keep [] [message] rfl rfl (List.append_nil _).symm rfl
            (fun _ => rfl) (fun _ hr => by cases hr) ?_ hmessages htasks
          refine recorded_after hok (fun _ htrue => ?_)
          rw [hvalid] at htrue
          cases htrue
      | true =>
          refine h.received d (.ingesting now userId service d.roomId d.eventId deleteMedia) []
            [message] rfl rfl (List.append_nil _).symm rfl (fun _ => rfl) ?_ ?_ hmessages htasks
          · intro r hr _
            cases hr
            exact ⟨hknown rfl, hroom, Or.inl rfl⟩
          · exact recorded_after hok (fun _ _ => Table.hasKey_insertOrIgnore s.purge.events
              (EventTable.ingestingRow now userId service d.roomId d.eventId deleteMedia))
  | edit => exact h.skipped hok (Or.inl (by rw [hexit]; rfl))
  | old => exact h.skipped hok (Or.inl (by rw [hexit]; rfl))
  | noClientUser => exact h.skipped hok (Or.inl (by rw [hexit]; rfl))
  | noUser => exact h.skipped hok (Or.inl (by rw [hexit]; rfl))
  | management => exact h.skipped hok (Or.inl (by rw [hexit]; rfl))
  | noRoomName => exact h.skipped hok (Or.inl (by rw [hexit]; rfl))
  | noService => exact h.skipped hok (Or.inl (by rw [hexit]; rfl))

theorem IngestInv.storing (h : IngestInv roomOf s) (msg : NewOntMessage)
    (hmsg : ∀ e, msg.matrixEventId = some e → msg ∈ s.built) (tasks : List InsertTask)
    (htasks : ∀ task ∈ tasks, TaskKept roomOf ({ s with tasks }.store msg) task) :
    IngestInv roomOf ({ s with tasks }.store msg) := by
  have hmono : ∀ e, s.Accounted e → ({ s with tasks }.store msg).Accounted e := by
    intro e he
    refine @IngestState.Accounted.mono s ({ s with tasks }.store msg) (fun _ hbuilt => hbuilt) ?_
      (fun _ hdiscarded => hdiscarded) e he
    exact fun row hrow => OntologyStore.insertMessage_mono hrow
  refine ⟨h.guarded.storing hmono msg ?_, h.built, htasks⟩
  intro e he
  have hbuilt := hmsg e he
  exact ⟨Or.inl ⟨msg, hbuilt, he, OntologyStore.insertMessage_stores _ _⟩, h.built msg hbuilt e he⟩

theorem IngestInv.marking (h : IngestInv roomOf s) (stmt : EventStatement)
    (haddressed : ∀ e, stmt.addresses e = true → s.Accounted e)
    (hnew : ∀ r, stmt.newRow = some r → r.eventId ∈ s.received ∧ r.roomId = roomOf r.eventId ∧
      s.Accounted r.eventId) (tasks : List InsertTask) (htasks : ∀ task ∈ tasks, task ∈ s.tasks) :
    IngestInv roomOf
      { s with
        purge := s.purge.perform { events := stmt, stage := s.purge.stage }
        tasks } := by
  refine ⟨?_, h.built, ?_⟩
  · have hmarked := @Guarded.marked roomOf s.received s.Accounted s.Accounted s.purge h.guarded []
      (fun _ he => he) stmt haddressed
    rw [List.append_nil] at hmarked
    refine hmarked ?_ (fun _ he => absurd he List.not_mem_nil)
    intro r hr _
    obtain ⟨hknown, hroom, haccounted⟩ := hnew r hr
    exact ⟨hknown, hroom, Or.inr haccounted⟩
  · intro task htask
    have hkept := h.tasks task (htasks task htask)
    exact ⟨hkept.built, hkept.event, hkept.room, hkept.stored⟩

theorem IngestInv.worker (h : IngestInv roomOf s) {a : Action} {p : Plan}
    (hplan : Planned codec s.purge a p) (hworker : a.isWorker = true) (tasks : List InsertTask)
    (htasks : ∀ task ∈ tasks, task ∈ s.tasks) :
    IngestInv roomOf { s with purge := s.purge.perform p, tasks } := by
  have hingest : ∀ stmt, a ≠ .ingest stmt := by
    rintro stmt rfl
    cases hworker
  have hstore : ∀ msg, a ≠ .storeMessage msg := by
    rintro msg rfl
    cases hworker
  have hmessages := planned_messages hplan hstore
  have hsame : IngestState.Accounted { s with purge := s.purge.perform p, tasks } =
      s.Accounted := by
    funext e
    simp only [IngestState.Accounted, hmessages]
  refine ⟨?_, h.built, ?_⟩
  · rw [hsame]
    exact h.guarded.planned hplan hingest hstore
  · intro task htask
    have hkept := h.tasks task (htasks task htask)
    refine ⟨hkept.built, hkept.event, hkept.room, fun id hid => ?_⟩
    rw [hmessages]
    exact hkept.stored id hid

theorem IngestInv.accounted (h : IngestInv roomOf s) {task : InsertTask} (htask : task ∈ s.tasks)
    {id : Int} (hphase : task.phase = .inserted id) : s.Accounted task.eventId := by
  have hkept := h.tasks task htask
  exact Or.inl ⟨task.message, hkept.built, hkept.event, hkept.stored id hphase⟩

theorem IngestInv.mark (h : IngestInv roomOf s) {task : InsertTask} (htask : task ∈ s.tasks)
    {now : Int} {valid : Bool} {stmt : EventStatement}
    (hmarker : task.marker now = some (valid, stmt)) (index : Nat) :
    IngestInv roomOf ({ s with tasks := s.tasks.eraseIdx index }.marker valid stmt) := by
  have hless : ∀ other ∈ s.tasks.eraseIdx index, other ∈ s.tasks :=
    fun other hother => List.mem_of_mem_eraseIdx hother
  have hkept := h.tasks task htask
  have hknown := (h.built task.message hkept.built task.eventId hkept.event).1
  have hkeep := h.marking .keep (fun _ he => by cases he) (fun _ hr => by cases hr)
    (s.tasks.eraseIdx index) hless
  cases hphase : task.phase with
  | inserting =>
      simp only [InsertTask.marker, hphase] at hmarker
      cases hmarker
  | inserted id =>
      simp only [InsertTask.marker, hphase, Option.some.injEq, Prod.mk.injEq] at hmarker
      obtain ⟨rfl, rfl⟩ := hmarker
      have haccounted := h.accounted htask hphase
      unfold IngestState.marker
      split
      · refine h.marking _ ?_ ?_ (s.tasks.eraseIdx index) hless
        · intro e he
          rw [← of_decide_eq_true he]
          exact haccounted
        · intro r hr
          cases hr
          exact ⟨hknown, hkept.room, haccounted⟩
      · exact hkeep
  | failed error =>
      simp only [InsertTask.marker, hphase, Option.some.injEq, Prod.mk.injEq] at hmarker
      obtain ⟨rfl, rfl⟩ := hmarker
      exact h.marking (.ingestFailed now task.eventId error) (fun _ he => by cases he)
        (fun _ hr => by cases hr) (s.tasks.eraseIdx index) hless

theorem IngestInv.step {next : IngestState} {a : IngestAction} (h : IngestInv roomOf s)
    (hok : recordsDelivery lowercase s a)
    (hstep : ingestStep lowercase roomOf codec s a = some next) : IngestInv roomOf next := by
  cases a with
  | receive d now =>
      simp only [ingestStep, Option.ite_none_right_eq_some, Option.some.injEq] at hstep
      obtain ⟨hroom, rfl⟩ := hstep
      exact h.receive hroom hok
  | insert index answer =>
      simp only [ingestStep] at hstep
      split at hstep
      · cases hstep
      next task hindex =>
        have htask := List.mem_of_getElem? hindex
        have hkept := h.tasks task htask
        have hmsg : ∀ e, task.message.matrixEventId = some e → task.message ∈ s.built :=
          fun _ _ => hkept.built
        -- the other tasks stand as before, and this one in its new phase
        have htasks : ∀ {t : IngestState} {phase : InsertPhase}, t.built = s.built →
            (∀ row ∈ s.purge.messages, row ∈ t.purge.messages) →
            (∀ id, phase = .inserted id → t.purge.messages.Stores task.message) →
            ∀ other ∈ s.tasks.set index { task with phase }, TaskKept roomOf t other := by
          intro t phase hbuilt hmessages hstored other hother
          rcases List.mem_or_eq_of_mem_set hother with hold | rfl
          · have hkept := h.tasks other hold
            refine ⟨hbuilt ▸ hkept.built, hkept.event, hkept.room, fun id hid => ?_⟩
            obtain ⟨row, hrow, hsame⟩ := hkept.stored id hid
            exact ⟨row, hmessages row hrow, hsame⟩
          · exact ⟨hbuilt ▸ hkept.built, hkept.event, hkept.room, hstored⟩
        split at hstep
        · cases hstep
        · cases answer with
          | done =>
              cases hstep
              refine h.storing task.message hmsg _ (htasks rfl ?_ ?_)
              · exact fun _ hrow => OntologyStore.insertMessage_mono hrow
              · exact fun _ _ => OntologyStore.insertMessage_stores _ _
          | refused error =>
              cases hstep
              refine ⟨h.guarded, h.built, htasks rfl (fun _ hrow => hrow) ?_⟩
              intro id hid
              cases hid
          | lost error =>
              cases hstep
              refine h.storing task.message hmsg _ (htasks rfl ?_ ?_)
              · exact fun _ hrow => OntologyStore.insertMessage_mono hrow
              · intro id hid
                cases hid
  | mark index now =>
      simp only [ingestStep] at hstep
      split at hstep
      · cases hstep
      next task hindex =>
        obtain ⟨⟨valid, stmt⟩, hmarker, rfl⟩ := Option.map_eq_some_iff.mp hstep
        exact h.mark (List.mem_of_getElem? hindex) hmarker index
  | storeOther msg =>
      simp only [ingestStep, Option.ite_none_right_eq_some, Option.some.injEq] at hstep
      obtain ⟨hnone, rfl⟩ := hstep
      refine h.storing msg ?_ s.tasks ?_
      · intro e he
        rw [hnone] at he
        cases he
      · intro task htask
        have hkept := h.tasks task htask
        exact ⟨hkept.built, hkept.event, hkept.room, fun id hid => (hkept.stored id hid).mono⟩
  | worker a =>
      simp only [ingestStep, Option.ite_none_right_eq_some] at hstep
      obtain ⟨hworker, hpurge⟩ := hstep
      obtain ⟨purge, hpurged, rfl⟩ := Option.map_eq_some_iff.mp hpurge
      obtain ⟨p, hplan, rfl⟩ := step_spec hpurged
      exact h.worker hplan hworker s.tasks (fun _ htask => htask)
  | restart =>
      cases hstep
      exact h.worker (@Planned.stop codec s.purge) rfl [] (fun _ htask => absurd htask List.not_mem_nil)

end Invariant

namespace IngestExample

/-- A message of a contact in a WhatsApp portal room. -/
def delivery (eventId body : String) (originServerTs nowMs : Nat) (storedAt : Int) : Delivery where
  eventId := eventId
  roomId := "!portal:localhost"
  sender := "@whatsapp_1:localhost"
  isReplacement := false
  originServerTs := originServerTs
  message := .text body
  nowMs := nowMs
  clientUserId := some "@owner:localhost"
  userByMatrixId := fun localUserId => if localUserId = "owner" then some 7 else none
  connectingPass := fun _ => none
  managementPass := fun _ => none
  displayName := some "Ann (WA)"
  joinedMembers := some ["@owner:localhost", "@whatsapp_1:localhost"]
  bridgeBots := ["@whatsappbot:localhost"]
  validSubscription := true
  personId := none
  storedAt := storedAt

def portalRoom : String → String := fun _ => "!portal:localhost"

def step : IngestState → IngestAction → Option IngestState :=
  ingestStep toAsciiLowercase portalRoom PollExample.codec

/-- A message is received at `nowMs`, stored and enqueued. -/
def stored (eventId body : String) (nowMs : Nat) (now : Int) : List IngestAction :=
  [.receive (delivery eventId body nowMs nowMs now) now, .insert 0 .done, .mark 0 now]

/-- A cycle up to the request for its first boundary. -/
def submission (now : Int) : List IngestAction :=
  .worker (.begin EventPurgeConfig.default now false) ::
    List.replicate 9 (.worker (.advance now)) ++
      [.worker (.write now true), .worker (.advance now)]

/-- Two messages, then a cycle. -/
def orderly : List IngestAction :=
  stored "$e1" "first" 1000000 1000 ++ stored "$e2" "second" 1001000 1001 ++ submission 2000

/-- The client was away: the first message is received an hour late and skipped. -/
def outage : List IngestAction :=
  .receive (delivery "$e1" "first" 1000000 4600000 4600) 4600 ::
    stored "$e2" "second" 4601000 4601 ++ submission 5000

end IngestExample

end Lightfriend.Purge
