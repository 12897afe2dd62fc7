import Lightfriend.Purge.Api
import Lightfriend.Purge.Statement

/-! # Polling a submitted purge

Each queue has its own copy of the poll protocol. A poll ends in at most one
repository call, so both copies return that call and the worker executes it. -/

namespace Lightfriend.Purge

/-- The repository calls of a submission's life, without the clock they read. -/
inductive PurgeWrite
  | eventAttempt (eventId : String) (attempt : Int)
  | eventSubmitted (eventId purgeId : String)
  | eventRetrying (eventId : String) (attempt : Int) (error : String)
  | eventExhausted (eventId : String) (attempt : Int) (error : String)
  | eventSucceededThrough (boundaryEventId roomId : String) (enqueuedAt : Int)
  | roomAttempt (id attempt : Int)
  | roomSubmitted (id attempt cutoffTs : Int) (purgeId : String)
  | roomSucceeded (id : Int)
  | roomNoopSucceeded (id attempt cutoffTs : Int)
  | roomFailure (id attempt maxAttempts : Int) (error : String)
deriving DecidableEq

namespace PurgeWrite

def onEvents (now : Int) : PurgeWrite → EventStatement
  | eventAttempt eventId attempt => .attempt now eventId attempt
  | eventSubmitted eventId purgeId => .submitted now eventId purgeId
  | eventRetrying eventId attempt error => .retrying now eventId attempt error
  | eventExhausted eventId attempt error => .exhausted now eventId attempt error
  | eventSucceededThrough _ roomId enqueuedAt => .succeededThrough now roomId enqueuedAt
  | _ => .keep

def onRooms (now : Int) : PurgeWrite → RoomStatement
  | roomAttempt id attempt => .attempt now id attempt
  | roomSubmitted id attempt cutoffTs purgeId => .submitted now id attempt cutoffTs purgeId
  | roomSucceeded id => .succeeded now id
  | roomNoopSucceeded id attempt cutoffTs => .noopSucceeded now id attempt cutoffTs
  | roomFailure id attempt maxAttempts error => .failure now id attempt maxAttempts error
  | _ => .keep

end PurgeWrite

/-! ## The two copies -/

def recordPurgeSucceeded (candidate : CleanupEvent) : PurgeWrite :=
  .eventSucceededThrough candidate.eventId candidate.roomId candidate.enqueuedAt

def recordPurgeFailure (maxAttempts : Int) (candidate : CleanupEvent) (attempt : Int)
    (error : String) : PurgeWrite :=
  if maxAttempts ≤ attempt then .eventExhausted candidate.eventId attempt error
  else .eventRetrying candidate.eventId attempt error

def recordRoomHistoryPurgeFailure (maxAttempts : Int) (candidate : RoomHistoryPurge)
    (attempt : Int) (error : String) : PurgeWrite :=
  .roomFailure candidate.id attempt maxAttempts error

def pollSubmittedPurge (codec : PurgeCodec) (maxAttempts : Int) (candidate : CleanupEvent)
    (outcome : HttpOutcome) : Option PurgeWrite :=
  match candidate.lastAdminCommandEventId with
  | none =>
      some (recordPurgeFailure maxAttempts candidate candidate.attemptCount
        "submitted purge row is missing purge_id")
  | some _ =>
      match parseStatusResponse codec outcome with
      | .ok status =>
          if status.status = "complete" then some (recordPurgeSucceeded candidate)
          else if status.status = "failed" then
            some (recordPurgeFailure maxAttempts candidate candidate.attemptCount
              (status.error.getD "Tuwunel purge task failed"))
          else if status.status = "active" then none
          else
            some (recordPurgeFailure maxAttempts candidate candidate.attemptCount
              s!"unknown Tuwunel purge status {status.status}")
      | .error error =>
          if purgeTaskStatusIsMissing error.status then
            some (recordPurgeFailure maxAttempts candidate candidate.attemptCount
              "purge task status disappeared, likely after Tuwunel restart; resubmitting boundary")
          else
            some (recordPurgeFailure maxAttempts candidate candidate.attemptCount error.display)

def pollSubmittedRoomHistoryPurge (codec : PurgeCodec) (maxAttempts : Int)
    (candidate : RoomHistoryPurge) (outcome : HttpOutcome) : Option PurgeWrite :=
  match candidate.purgeId with
  | none =>
      some (recordRoomHistoryPurgeFailure maxAttempts candidate candidate.attemptCount
        "submitted portal-census purge is missing purge_id")
  | some _ =>
      match parseStatusResponse codec outcome with
      | .ok status =>
          if status.status = "complete" then some (.roomSucceeded candidate.id)
          else if status.status = "failed" then
            some (recordRoomHistoryPurgeFailure maxAttempts candidate candidate.attemptCount
              (status.error.getD "Tuwunel portal-census purge task failed"))
          else if status.status = "active" then none
          else
            some (recordRoomHistoryPurgeFailure maxAttempts candidate candidate.attemptCount
              s!"unknown Tuwunel purge status: {status.status}")
      | .error error =>
          if purgeTaskStatusIsMissing error.status then
            some (recordRoomHistoryPurgeFailure maxAttempts candidate candidate.attemptCount
              "purge task status disappeared, likely after Tuwunel restart; resubmitting room boundary")
          else none

/-! ## What a poll decides -/

inductive PollDecision
  | completed
  | failed
  | retained
deriving DecidableEq

def PurgeWrite.decision : Option PurgeWrite → PollDecision
  | none => .retained
  | some (eventSucceededThrough _ _ _) => .completed
  | some (roomSucceeded _) => .completed
  | some _ => .failed

/-- The decision that a verdict calls for. -/
def verdictDecision (codec : PurgeCodec) (outcome : HttpOutcome) : PollDecision :=
  if reportsStatus codec "complete" outcome then .completed
  else if reportsStatus codec "active" outcome then .retained
  else .failed

theorem decision_recordPurgeFailure (maxAttempts : Int) (candidate : CleanupEvent)
    (attempt : Int) (error : String) :
    PurgeWrite.decision (some (recordPurgeFailure maxAttempts candidate attempt error)) =
      .failed := by
  unfold recordPurgeFailure
  split <;> rfl

theorem recordPurgeFailure_onRooms (maxAttempts : Int) (candidate : CleanupEvent)
    (attempt : Int) (error : String) (now : Int) :
    (recordPurgeFailure maxAttempts candidate attempt error).onRooms now = .keep := by
  unfold recordPurgeFailure
  split <;> rfl

theorem pollSubmittedPurge_decision {codec : PurgeCodec} {maxAttempts : Int}
    {candidate : CleanupEvent} {outcome : HttpOutcome}
    (htask : candidate.lastAdminCommandEventId ≠ none) (hverdict : hasVerdict codec outcome = true) :
    PurgeWrite.decision (pollSubmittedPurge codec maxAttempts candidate outcome) =
      verdictDecision codec outcome := by
  obtain ⟨task, htask⟩ := Option.ne_none_iff_exists'.mp htask
  unfold verdictDecision
  cases hparse : parseStatusResponse codec outcome with
  | error error =>
      rw [hasVerdict_of_error hparse] at hverdict
      rw [reportsStatus_of_error hparse, reportsStatus_of_error hparse]
      simp [pollSubmittedPurge, htask, hparse, hverdict, decision_recordPurgeFailure]
  | ok status =>
      rw [reportsStatus_of_ok hparse, reportsStatus_of_ok hparse]
      simp only [pollSubmittedPurge, htask, hparse, beq_iff_eq]
      by_cases hcomplete : status.status = "complete"
      · simp [hcomplete, recordPurgeSucceeded, PurgeWrite.decision]
      · by_cases hactive : status.status = "active"
        · simp [hactive, PurgeWrite.decision]
        · simp only [hcomplete, hactive, if_false]
          split <;> exact decision_recordPurgeFailure _ _ _ _

theorem pollSubmittedRoomHistoryPurge_decision {codec : PurgeCodec} {maxAttempts : Int}
    {candidate : RoomHistoryPurge} {outcome : HttpOutcome} (htask : candidate.purgeId ≠ none)
    (hverdict : hasVerdict codec outcome = true) :
    PurgeWrite.decision (pollSubmittedRoomHistoryPurge codec maxAttempts candidate outcome) =
      verdictDecision codec outcome := by
  obtain ⟨task, htask⟩ := Option.ne_none_iff_exists'.mp htask
  unfold verdictDecision
  cases hparse : parseStatusResponse codec outcome with
  | error error =>
      rw [hasVerdict_of_error hparse] at hverdict
      rw [reportsStatus_of_error hparse, reportsStatus_of_error hparse]
      simp [pollSubmittedRoomHistoryPurge, htask, hparse, hverdict, PurgeWrite.decision,
        recordRoomHistoryPurgeFailure]
  | ok status =>
      rw [reportsStatus_of_ok hparse, reportsStatus_of_ok hparse]
      simp only [pollSubmittedRoomHistoryPurge, htask, hparse, beq_iff_eq]
      by_cases hcomplete : status.status = "complete"
      · simp [hcomplete, PurgeWrite.decision]
      · by_cases hactive : status.status = "active"
        · simp [hactive, PurgeWrite.decision]
        · simp only [hcomplete, hactive, if_false]
          split <;> rfl

/-- Without a verdict the room-history queue keeps its row. -/
theorem pollSubmittedRoomHistoryPurge_noVerdict {codec : PurgeCodec} {maxAttempts : Int}
    {candidate : RoomHistoryPurge} {outcome : HttpOutcome} (htask : candidate.purgeId ≠ none)
    (hverdict : hasVerdict codec outcome = false) :
    pollSubmittedRoomHistoryPurge codec maxAttempts candidate outcome = none := by
  obtain ⟨task, htask⟩ := Option.ne_none_iff_exists'.mp htask
  cases hparse : parseStatusResponse codec outcome with
  | ok status => simp [hasVerdict_of_ok hparse] at hverdict
  | error error =>
      rw [hasVerdict_of_error hparse] at hverdict
      simp [pollSubmittedRoomHistoryPurge, htask, hparse, hverdict]

/-- Without a verdict the event queue fails its row like a definite failure. -/
theorem pollSubmittedPurge_noVerdict {codec : PurgeCodec} {maxAttempts : Int}
    {candidate : CleanupEvent} {outcome : HttpOutcome}
    (hverdict : hasVerdict codec outcome = false) :
    ∃ error, pollSubmittedPurge codec maxAttempts candidate outcome =
      some (recordPurgeFailure maxAttempts candidate candidate.attemptCount error) := by
  cases hparse : parseStatusResponse codec outcome with
  | ok status => simp [hasVerdict_of_ok hparse] at hverdict
  | error error =>
      rw [hasVerdict_of_error hparse] at hverdict
      unfold pollSubmittedPurge
      cases candidate.lastAdminCommandEventId with
      | none => exact ⟨_, rfl⟩
      | some task => exact ⟨error.display, by simp [hparse, hverdict]⟩

theorem pollSubmittedPurge_active {codec : PurgeCodec} {maxAttempts : Int}
    {candidate : CleanupEvent} {outcome : HttpOutcome}
    (htask : candidate.lastAdminCommandEventId ≠ none)
    (hactive : reportsStatus codec "active" outcome = true) :
    pollSubmittedPurge codec maxAttempts candidate outcome = none := by
  obtain ⟨task, htask⟩ := Option.ne_none_iff_exists'.mp htask
  cases hparse : parseStatusResponse codec outcome with
  | error error => simp [reportsStatus_of_error hparse] at hactive
  | ok status =>
      rw [reportsStatus_of_ok hparse, beq_iff_eq] at hactive
      simp [pollSubmittedPurge, htask, hparse, hactive]

theorem pollSubmittedRoomHistoryPurge_active {codec : PurgeCodec} {maxAttempts : Int}
    {candidate : RoomHistoryPurge} {outcome : HttpOutcome} (htask : candidate.purgeId ≠ none)
    (hactive : reportsStatus codec "active" outcome = true) :
    pollSubmittedRoomHistoryPurge codec maxAttempts candidate outcome = none := by
  obtain ⟨task, htask⟩ := Option.ne_none_iff_exists'.mp htask
  cases hparse : parseStatusResponse codec outcome with
  | error error => simp [reportsStatus_of_error hparse] at hactive
  | ok status =>
      rw [reportsStatus_of_ok hparse, beq_iff_eq] at hactive
      simp [pollSubmittedRoomHistoryPurge, htask, hparse, hactive]

/-- A poll of the event queue writes a completion of a task reported complete, or a failure;
a row with a task never fails on an answer `active`. -/
theorem pollSubmittedPurge_spec {codec : PurgeCodec} {maxAttempts : Int}
    {candidate : CleanupEvent} {outcome : HttpOutcome} {write : PurgeWrite}
    (h : pollSubmittedPurge codec maxAttempts candidate outcome = some write) :
    (write = recordPurgeSucceeded candidate ∧ candidate.lastAdminCommandEventId ≠ none ∧
        reportsStatus codec "complete" outcome = true) ∨
      ∃ error, write = recordPurgeFailure maxAttempts candidate candidate.attemptCount error := by
  unfold pollSubmittedPurge at h
  split at h
  next => cases h; exact Or.inr ⟨_, rfl⟩
  next task htask =>
    split at h
    next status hparse =>
      rw [reportsStatus_of_ok hparse, beq_iff_eq]
      split at h
      next hcomplete => cases h; exact Or.inl ⟨rfl, by simp [htask], hcomplete⟩
      next =>
        split at h
        · cases h; exact Or.inr ⟨_, rfl⟩
        · split at h
          · cases h
          · cases h; exact Or.inr ⟨_, rfl⟩
    next error hparse =>
      split at h
      · cases h; exact Or.inr ⟨_, rfl⟩
      · cases h; exact Or.inr ⟨_, rfl⟩

theorem pollSubmittedRoomHistoryPurge_spec {codec : PurgeCodec} {maxAttempts : Int}
    {candidate : RoomHistoryPurge} {outcome : HttpOutcome} {write : PurgeWrite}
    (h : pollSubmittedRoomHistoryPurge codec maxAttempts candidate outcome = some write) :
    (write = .roomSucceeded candidate.id ∧ candidate.purgeId ≠ none ∧
        reportsStatus codec "complete" outcome = true) ∨
      ∃ error, write =
        recordRoomHistoryPurgeFailure maxAttempts candidate candidate.attemptCount error := by
  unfold pollSubmittedRoomHistoryPurge at h
  split at h
  next => cases h; exact Or.inr ⟨_, rfl⟩
  next task htask =>
    split at h
    next status hparse =>
      rw [reportsStatus_of_ok hparse, beq_iff_eq]
      split at h
      next hcomplete => cases h; exact Or.inl ⟨rfl, by simp [htask], hcomplete⟩
      next =>
        split at h
        · cases h; exact Or.inr ⟨_, rfl⟩
        · split at h
          · cases h
          · cases h; exact Or.inr ⟨_, rfl⟩
    next error hparse =>
      split at h
      · cases h; exact Or.inr ⟨_, rfl⟩
      · cases h

/-! ## The law of a poll -/

section Law

variable (codec : PurgeCodec) (maxAttempts now : Int) (store : OntologyStore)
  (events : EventTable) (rooms : RoomHistoryTable) (event : CleanupEvent)
  (purge : RoomHistoryPurge) (outcome : HttpOutcome)

/-- The event queue after `event` was polled. -/
def eventsAfterPoll : EventTable :=
  match pollSubmittedPurge codec maxAttempts event outcome with
  | none => events
  | some write => (write.onEvents now).apply store events

/-- The room-history queue after `purge` was polled. -/
def roomsAfterPoll : RoomHistoryTable :=
  match pollSubmittedRoomHistoryPurge codec maxAttempts purge outcome with
  | none => rooms
  | some write => (write.onRooms now).apply rooms

/-- Each queue releases its submitted row only on a definite outcome or when the row has no
task, keeps the row's status, attempts and task without a verdict, and decides like the other. -/
structure PollLaw : Prop where
  eventReleased : ∀ r ∈ eventsAfterPoll codec maxAttempts now store events event outcome,
    r.eventId = event.eventId → r.status ≠ .purgeSubmitted →
      isDefinite codec outcome = true ∨ event.lastAdminCommandEventId = none
  purgeReleased : ∀ r ∈ roomsAfterPoll codec maxAttempts now rooms purge outcome,
    r.id = purge.id → r.status ≠ .submitted →
      isDefinite codec outcome = true ∨ purge.purgeId = none
  eventRetained : hasVerdict codec outcome = false → event.lastAdminCommandEventId ≠ none →
    ∀ r ∈ eventsAfterPoll codec maxAttempts now store events event outcome,
      r.eventId = event.eventId → r.status = event.status ∧ r.attemptCount = event.attemptCount ∧
        r.lastAdminCommandEventId = event.lastAdminCommandEventId
  purgeRetained : hasVerdict codec outcome = false → purge.purgeId ≠ none →
    ∀ r ∈ roomsAfterPoll codec maxAttempts now rooms purge outcome,
      r.id = purge.id → r.status = purge.status ∧ r.attemptCount = purge.attemptCount ∧
        r.purgeId = purge.purgeId
  sameDecision : event.lastAdminCommandEventId ≠ none → purge.purgeId ≠ none →
    PurgeWrite.decision (pollSubmittedPurge codec maxAttempts event outcome) =
      PurgeWrite.decision (pollSubmittedRoomHistoryPurge codec maxAttempts purge outcome)

/-! ## When the law holds -/

variable {codec maxAttempts now store events rooms event purge outcome}

theorem eventsAfterPoll_of_none
    (h : pollSubmittedPurge codec maxAttempts event outcome = none) :
    eventsAfterPoll codec maxAttempts now store events event outcome = events := by
  simp [eventsAfterPoll, h]

theorem roomsAfterPoll_of_none
    (h : pollSubmittedRoomHistoryPurge codec maxAttempts purge outcome = none) :
    roomsAfterPoll codec maxAttempts now rooms purge outcome = rooms := by
  simp [roomsAfterPoll, h]

theorem active_of_not_definite (hactive : ¬ isDefinite codec outcome = true)
    (hverdict : hasVerdict codec outcome = true) :
    reportsStatus codec "active" outcome = true := by
  simpa [isDefinite, hverdict] using hactive

/-- A poll without a verdict leaves a failed event row behind. -/
theorem exists_released_of_noVerdict (hevent : event ∈ events)
    (hverdict : hasVerdict codec outcome = false) :
    ∃ r ∈ eventsAfterPoll codec maxAttempts now store events event outcome,
      r.eventId = event.eventId ∧ r.status ≠ .purgeSubmitted := by
  obtain ⟨error, hpoll⟩ := @pollSubmittedPurge_noVerdict codec maxAttempts event outcome hverdict
  simp only [eventsAfterPoll, hpoll, recordPurgeFailure]
  by_cases hmax : maxAttempts ≤ event.attemptCount
  · refine ⟨event.fail now event.attemptCount .purgeExhausted error true, ?_, rfl, ?_⟩
    · rw [if_pos hmax]
      exact EventStatement.mem_apply.mpr (Or.inl ⟨event, hevent, (if_pos rfl).symm⟩)
    · simp [CleanupEvent.fail]
  · refine ⟨event.fail now event.attemptCount .purgeRetrying error false, ?_, rfl, ?_⟩
    · rw [if_neg hmax]
      exact EventStatement.mem_apply.mpr (Or.inl ⟨event, hevent, (if_pos rfl).symm⟩)
    · simp [CleanupEvent.fail]

theorem PollLaw.of_verdict (hevent : event ∈ events) (hpurge : purge ∈ rooms)
    (hestatus : event.status = .purgeSubmitted) (hpstatus : purge.status = .submitted)
    (hcond : hasVerdict codec outcome = true ∨ event.lastAdminCommandEventId = none) :
    PollLaw codec maxAttempts now store events rooms event purge outcome where
  eventReleased := by
    intro r hr hid hstatus
    by_cases htask : event.lastAdminCommandEventId = none
    · exact Or.inr htask
    · refine Or.inl (Classical.byContradiction fun hdefinite => ?_)
      have hactive := active_of_not_definite hdefinite (hcond.resolve_right htask)
      rw [eventsAfterPoll_of_none (pollSubmittedPurge_active htask hactive)] at hr
      rw [Table.eq_of_key_eq hr hevent hid] at hstatus
      exact hstatus hestatus
  purgeReleased := by
    intro r hr hid hstatus
    by_cases htask : purge.purgeId = none
    · exact Or.inr htask
    · refine Or.inl (Classical.byContradiction fun hdefinite => ?_)
      have hkept : pollSubmittedRoomHistoryPurge codec maxAttempts purge outcome = none := by
        cases hverdict : hasVerdict codec outcome with
        | false => exact pollSubmittedRoomHistoryPurge_noVerdict htask hverdict
        | true =>
            exact pollSubmittedRoomHistoryPurge_active htask
              (active_of_not_definite hdefinite hverdict)
      rw [roomsAfterPoll_of_none hkept] at hr
      rw [Table.eq_of_key_eq hr hpurge hid] at hstatus
      exact hstatus hpstatus
  eventRetained := by
    intro hverdict htask
    rcases hcond with h | h
    · rw [h] at hverdict
      cases hverdict
    · exact absurd h htask
  purgeRetained := by
    intro hverdict htask r hr hid
    rw [roomsAfterPoll_of_none (pollSubmittedRoomHistoryPurge_noVerdict htask hverdict)] at hr
    rw [Table.eq_of_key_eq hr hpurge hid]
    exact ⟨rfl, rfl, rfl⟩
  sameDecision := by
    intro hetask hptask
    have hverdict := hcond.resolve_right hetask
    rw [pollSubmittedPurge_decision hetask hverdict,
      pollSubmittedRoomHistoryPurge_decision hptask hverdict]

/-- The poll protocol keeps its law exactly when the poll reached a verdict or the event row
has no task to ask for: without a verdict the event queue fails its row, while the room-history
queue retains it. -/
theorem poll_law_iff (hevent : event ∈ events) (hpurge : purge ∈ rooms)
    (hestatus : event.status = .purgeSubmitted) (hpstatus : purge.status = .submitted) :
    PollLaw codec maxAttempts now store events rooms event purge outcome ↔
      (hasVerdict codec outcome = true ∨ event.lastAdminCommandEventId = none) := by
  constructor
  · intro hlaw
    cases hverdict : hasVerdict codec outcome with
    | true => exact Or.inl rfl
    | false =>
        obtain ⟨r, hr, hid, hstatus⟩ := exists_released_of_noVerdict hevent hverdict
        rcases hlaw.eventReleased r hr hid hstatus with hdefinite | htask
        · simp [isDefinite, hverdict] at hdefinite
        · exact Or.inr htask
  · exact PollLaw.of_verdict hevent hpurge hestatus hpstatus

end Law

/-! ## A failing poll -/

namespace PollExample

/-- Decodes the two bodies used below. -/
def codec : PurgeCodec where
  decodeSubmit := fun body =>
    if body = "\x7b\"purge_id\":\"p1\"\x7d" then .ok ⟨"p1"⟩ else .error "expected value"
  decodeStatus := fun body =>
    if body = "\x7b\"status\":\"complete\"\x7d" then .ok ⟨"complete", none⟩
    else .error "expected value"

def event : CleanupEvent :=
  (EventTable.enqueuedRow 100 1 7 "whatsapp" "!r:s" "$e:s" true).submit 200 "p1"

def purge : RoomHistoryPurge :=
  (RoomHistoryTable.censusRow Table.empty 1 "whatsapp" 100 150 "!r:s").submit 200 1 100 "p2"

def events : EventTable := Table.empty.insert event (by decide)
def rooms : RoomHistoryTable := Table.empty.insert purge (by decide)

end PollExample

/-- A timed-out poll: the event row is released for another attempt. -/
theorem poll_law_fails_on_timeout :
    ¬ PollLaw PollExample.codec 5 300 Table.empty PollExample.events PollExample.rooms
      PollExample.event PollExample.purge (.transportError "operation timed out") := by
  intro hlaw
  have hr : PollExample.event.fail 300 0 .purgeRetrying
      "Tuwunel purge API request failed: operation timed out" false ∈
      eventsAfterPoll PollExample.codec 5 300 Table.empty PollExample.events PollExample.event
        (.transportError "operation timed out") := by
    decide
  rcases hlaw.eventReleased _ hr rfl (by decide) with h | h
  · exact absurd h (by decide)
  · exact absurd h (by decide)

theorem poll_law_on_completion :
    PollLaw PollExample.codec 5 300 Table.empty PollExample.events PollExample.rooms
      PollExample.event PollExample.purge
      (.response 200 (.ok "\x7b\"status\":\"complete\"\x7d")) :=
  (poll_law_iff (by decide) (by decide) rfl rfl).mpr (Or.inl (by decide))

end Lightfriend.Purge
