import Lightfriend.Core.Transition
import Lightfriend.Purge.Poll

/-! # The purge worker

`run_purge_cycle` as a machine that stops at each of its repository calls and at
each answer of the homeserver. Between two of its steps the bridge handler, the
censuses and the homeserver may act. An action carries everything the step does
not decide itself: the clock, the answers, and whether a statement succeeded. A
repository call is one step.
-/

namespace Lightfriend.Purge

structure EventPurgeConfig where
  enabled : Bool
  dryRun : Bool
  retentionSecs : Nat
  maxAttempts : Int
  batchSize : Nat
  backfillEnabled : Bool
  backfillExecuteVerifiedEnabled : Bool
  backfillExecuteBlockedEnabled : Bool
  backfillBatchSize : Nat
  backfillMinAgeSecs : Nat
  backfillAuditRecheckSecs : Nat
  portalCensusPurgeBatchSize : Nat
  purgeStatusPollBatchSize : Nat
  purgeMaxInFlight : Nat
  staleIngestSecs : Nat
  exhaustedRetrySecs : Nat
deriving DecidableEq, Repr

/-- The defaults of `EventPurgeConfig::from_env`. -/
def EventPurgeConfig.default : EventPurgeConfig where
  enabled := true
  dryRun := false
  retentionSecs := 60
  maxAttempts := 5
  batchSize := 50
  backfillEnabled := true
  backfillExecuteVerifiedEnabled := true
  backfillExecuteBlockedEnabled := true
  backfillBatchSize := 50
  backfillMinAgeSecs := 60
  backfillAuditRecheckSecs := 300
  portalCensusPurgeBatchSize := 20
  purgeStatusPollBatchSize := 100
  purgeMaxInFlight := 4
  staleIngestSecs := 300
  exhaustedRetrySecs := 900

def cutoffBefore (now : Int) (secs : Nat) : Int := saturatingSub now (secsAsI32 secs)

def availablePurgeSubmissionSlots (maxInFlight : Nat) (activeTasks : Nat) : Nat :=
  maxInFlight - activeTasks

def destructiveBackfillEnabled (config : EventPurgeConfig) : Bool :=
  config.backfillEnabled &&
    (config.backfillExecuteVerifiedEnabled || config.backfillExecuteBlockedEnabled)

inductive BackfillExecution
  | verified
  | forcedUnverified
deriving DecidableEq, Repr

def historicalBackfillExecutionKind (verified : Bool) (config : EventPurgeConfig) :
    Option BackfillExecution :=
  if !config.backfillEnabled then none
  else if verified && config.backfillExecuteVerifiedEnabled then some .verified
  else if !verified && config.backfillExecuteBlockedEnabled then some .forcedUnverified
  else none

def historicalBackfillRequiresProofScan (config : EventPurgeConfig) : Bool :=
  !(config.backfillEnabled && config.backfillExecuteBlockedEnabled)

/-! ## The homeserver -/

inductive TaskOutcome
  | complete
  | failed
  | lost
deriving DecidableEq, Repr

/-- A purge task the homeserver accepted; `outcome` is empty while it runs. -/
structure PurgeTask where
  purgeId : String
  roomId : String
  boundary : PurgeBoundary
  outcome : Option TaskOutcome
deriving DecidableEq, Repr

/-- A history the homeserver reported to be empty before a timestamp. -/
structure CleanReport where
  roomId : String
  timestampMs : Nat
deriving DecidableEq, Repr

inductive HomeserverEvent
  | quiet
  | accept (task : PurgeTask)
  | finish (purgeId : String) (outcome : TaskOutcome)
  | reportClean (report : CleanReport)

def HomeserverEvent.onTasks (tasks : List PurgeTask) : HomeserverEvent → List PurgeTask
  | accept task => task :: tasks
  | finish purgeId outcome =>
      tasks.map (fun task =>
        if task.purgeId = purgeId ∧ task.outcome = none then { task with outcome := some outcome }
        else task)
  | _ => tasks

def HomeserverEvent.onReports (reports : List CleanReport) : HomeserverEvent → List CleanReport
  | reportClean report => report :: reports
  | _ => reports

/-! ## State -/

structure Cycle where
  config : EventPurgeConfig
  now : Int
deriving DecidableEq, Repr

/-- Where `run_purge_cycle` stands, with its local variables. -/
inductive Stage
  | idle
  | recover (runBackfill : Bool)
  | requeue (runBackfill : Bool)
  | requeueRooms (runBackfill : Bool)
  | listBackfill
  | backfill (queue : List EventTable.HistoricalBackfillCandidate)
  | enqueue (candidate : EventTable.HistoricalBackfillCandidate) (kind : BackfillExecution)
      (summary : String) (queue : List EventTable.HistoricalBackfillCandidate)
  | listSubmitted
  | listSubmittedRooms (submitted : List CleanupEvent)
  | poll (submitted : List CleanupEvent) (submittedRooms : List RoomHistoryPurge)
  | pollWrite (write : PurgeWrite) (submitted : List CleanupEvent)
      (submittedRooms : List RoomHistoryPurge)
  | count
  | listDue (slots : Nat)
  | listDueRooms (slots : Nat) (due : List CleanupEvent)
  | submit (due : List CleanupEvent) (dueRooms : List RoomHistoryPurge)
  | prepare (candidate : CleanupEvent) (attempt : Int) (due : List CleanupEvent)
      (dueRooms : List RoomHistoryPurge)
  | send (candidate : CleanupEvent) (attempt : Int) (request : PurgeBoundary)
      (due : List CleanupEvent) (dueRooms : List RoomHistoryPurge)
  | probe (candidate : CleanupEvent) (attempt : Int) (due : List CleanupEvent)
      (dueRooms : List RoomHistoryPurge)
  | sendRoom (candidate : RoomHistoryPurge) (attempt : Int) (dueRooms : List RoomHistoryPurge)
  | settle (write : PurgeWrite) (due : List CleanupEvent) (dueRooms : List RoomHistoryPurge)

structure PurgeState where
  events : EventTable
  rooms : RoomHistoryTable
  messages : OntologyStore
  tasks : List PurgeTask
  cleanReports : List CleanReport
  cycle : Cycle
  stage : Stage

def PurgeState.initial : PurgeState where
  events := Table.empty
  rooms := Table.empty
  messages := Table.empty
  tasks := []
  cleanReports := []
  cycle := ⟨EventPurgeConfig.default, 0⟩
  stage := .idle

/-- One step: at most one statement on each queue, one stored message and one event of the
homeserver. -/
structure Plan where
  events : EventStatement := .keep
  rooms : RoomStatement := .keep
  message : Option NewOntMessage := none
  homeserver : HomeserverEvent := .quiet
  cycle : Option Cycle := none
  stage : Stage

def PurgeState.perform (s : PurgeState) (plan : Plan) : PurgeState where
  events := plan.events.apply s.messages s.events
  rooms := plan.rooms.apply s.rooms
  messages :=
    match plan.message with
    | none => s.messages
    | some msg => (s.messages.insertMessage msg).2
  tasks := plan.homeserver.onTasks s.tasks
  cleanReports := plan.homeserver.onReports s.cleanReports
  cycle := plan.cycle.getD s.cycle
  stage := plan.stage

inductive Action
  /-- The handler and its spawned inserts. -/
  | ingest (stmt : EventStatement)
  | storeMessage (msg : NewOntMessage)
  | census (stmt : RoomStatement)
  /-- The store may return its rows in another order from now on. -/
  | reorderEvents (rows : List CleanupEvent)
  | reorderRooms (rows : List RoomHistoryPurge)
  | finish (purgeId : String) (outcome : TaskOutcome)
  | begin (config : EventPurgeConfig) (now : Int) (runBackfill : Bool)
  /-- A failed statement ends the cycle, or the process restarts. -/
  | stop
  | advance (now : Int)
  | audit (now : Int) (verified : Bool) (summary : String)
  | poll (outcome : HttpOutcome)
  | submit (outcome : HttpOutcome) (accepted : Option String)
  | readFailed (error : String)
  | write (now : Int) (ok : Bool)

def EventStatement.isIngest : EventStatement → Bool
  | .ingesting .. | .enqueued .. | .ingestFailed .. | .discarded .. | .unproven .. => true
  | _ => false

instance (stmt : RoomStatement) : Decidable stmt.IsCensus := by
  cases stmt <;> first | exact isTrue trivial | exact isFalse id

/-! ## The steps of a cycle -/

def PurgeState.countSubmittedPurgeTasks (s : PurgeState) : Nat :=
  (s.events.rows.filter (fun r => r.status = .purgeSubmitted)).length +
    (s.rooms.rows.filter (fun r => r.status = .submitted)).length

def PurgeState.dueBoundaries (s : PurgeState) (slots : Nat) : List CleanupEvent :=
  s.events.listDueRoomBoundaries s.rooms.activeRooms
    (cutoffBefore s.cycle.now s.cycle.config.retentionSecs) (min slots s.cycle.config.batchSize)

def PurgeState.dueRoomHistory (s : PurgeState) (slots : Nat) : List RoomHistoryPurge :=
  s.rooms.listDueRoomHistoryPurges s.events.busyRooms
    (min slots s.cycle.config.portalCensusPurgeBatchSize)

def PurgeState.backfillCandidates (s : PurgeState) :
    List EventTable.HistoricalBackfillCandidate :=
  s.events.listHistoricalBackfillCandidates s.messages
    (cutoffBefore s.cycle.now s.cycle.config.backfillMinAgeSecs)
    (if destructiveBackfillEnabled s.cycle.config then s.cycle.now
      else cutoffBefore s.cycle.now s.cycle.config.backfillAuditRecheckSecs)
    (if destructiveBackfillEnabled s.cycle.config then s.cycle.config.backfillBatchSize
      else min s.cycle.config.backfillBatchSize 5)

def forcedHistorical (candidate : CleanupEvent) : Bool :=
  candidate.lastCommandKind == some "historical_backfill_forced_unverified"

/-- The request of `submit_purge`, or the failure that replaces it. -/
def preparedRequest (store : OntologyStore) (candidate : CleanupEvent) :
    Except String PurgeBoundary :=
  if forcedHistorical candidate then
    match store.createdAtOf candidate.ontologyMessageId with
    | some createdAt =>
        if 0 < createdAt then
          .ok (purgeHistoryTimestampRequest (saturatingMulU64 createdAt.toNat 1000))
        else
          .error s!"forced historical purge has invalid ontology boundary timestamp: {createdAt}"
    | none => .error "forced historical purge boundary ontology message is missing"
  else .ok (purgeHistoryRequest candidate.eventId)

def nextAttempt (attemptCount : Int) : Int := saturatingAdd attemptCount 1

def roomHistoryTimestampMs (cutoffTs : Int) : Nat := saturatingMulU64 (max cutoffTs 1).toNat 1000

def enqueueStatement (now : Int) (c : EventTable.HistoricalBackfillCandidate)
    (kind : BackfillExecution) (summary : String) : EventStatement :=
  match kind with
  | .verified => .enqueueVerified now c summary
  | .forcedUnverified => .enqueueForced now c summary

def BackfillExecution.requiredStatus : BackfillExecution → CleanupStatus
  | .verified => .backfillAuditVerified
  | .forcedUnverified => .backfillAuditBlocked

/-- The steps that read and decide without an answer from outside. -/
def advance (s : PurgeState) (now : Int) : Option Plan :=
  match s.stage with
  | .recover runBackfill =>
      some {
        events := .recoverStale now (cutoffBefore s.cycle.now s.cycle.config.staleIngestSecs)
          s.cycle.config.batchSize
        stage := .requeue runBackfill }
  | .requeue runBackfill =>
      some {
        events := .requeueExhausted now
          (cutoffBefore s.cycle.now s.cycle.config.exhaustedRetrySecs) s.cycle.config.batchSize
        stage := .requeueRooms runBackfill }
  | .requeueRooms runBackfill =>
      some {
        rooms := .requeueExhausted now
          (cutoffBefore s.cycle.now s.cycle.config.exhaustedRetrySecs)
          s.cycle.config.portalCensusPurgeBatchSize
        stage := if runBackfill then .listBackfill else .listSubmitted }
  | .listBackfill => some { stage := .backfill s.backfillCandidates }
  | .backfill [] => some { stage := .listSubmitted }
  | .enqueue candidate kind summary queue =>
      if s.events.rows.any (EventTable.inAuditState candidate kind.requiredStatus) then
        some { events := enqueueStatement now candidate kind summary, stage := .backfill queue }
      else some { stage := .idle }
  | .listSubmitted =>
      some {
        stage := .listSubmittedRooms
          (s.events.listSubmitted s.cycle.config.purgeStatusPollBatchSize) }
  | .listSubmittedRooms submitted =>
      if s.cycle.config.dryRun then some { stage := .idle }
      else
        some {
          stage := .poll submitted
            (s.rooms.listSubmittedRoomHistoryPurges s.cycle.config.purgeStatusPollBatchSize) }
  | .poll [] [] => some { stage := .count }
  | .count =>
      some {
        stage := .listDue (availablePurgeSubmissionSlots s.cycle.config.purgeMaxInFlight
          s.countSubmittedPurgeTasks) }
  | .listDue slots =>
      some {
        stage := .listDueRooms (slots - (s.dueBoundaries slots).length) (s.dueBoundaries slots) }
  | .listDueRooms slots due => some { stage := .submit due (s.dueRoomHistory slots) }
  | .submit [] [] => some { stage := .idle }
  | .prepare candidate attempt due dueRooms =>
      match preparedRequest s.messages candidate with
      | .ok request => some { stage := .send candidate attempt request due dueRooms }
      | .error error =>
          some {
            stage := .settle
              (recordPurgeFailure s.cycle.config.maxAttempts candidate attempt error) due dueRooms }
  | .probe candidate attempt due dueRooms =>
      if s.events.hasNewerSuccessfulBoundary candidate.roomId candidate.ontologyMessageId then
        some { stage := .settle (recordPurgeSucceeded candidate) due dueRooms }
      else
        some {
          stage := .settle
            (recordPurgeFailure s.cycle.config.maxAttempts candidate attempt
              "boundary event absent without a newer successful purge boundary") due dueRooms }
  | _ => none

/-- Two reads inside `submit_purge` turn their own failure into a failed attempt. -/
def readFailed (s : PurgeState) (error : String) : Option Plan :=
  match s.stage with
  | .prepare candidate attempt due dueRooms =>
      if forcedHistorical candidate then
        some {
          stage := .settle
            (recordPurgeFailure s.cycle.config.maxAttempts candidate attempt
              s!"failed to load forced historical purge timestamp: {error}") due dueRooms }
      else none
  | .probe candidate attempt due dueRooms =>
      some {
        stage := .settle
          (recordPurgeFailure s.cycle.config.maxAttempts candidate attempt
            s!"failed to prove absent boundary coverage: {error}") due dueRooms }
  | _ => none

/-- The proof scan of a backfill candidate gave `verified` and `summary`; where the policy
bypasses the scan its answer is not used. -/
def audit (s : PurgeState) (now : Int) (verified : Bool) (summary : String) : Option Plan :=
  match s.stage with
  | .backfill (candidate :: queue) =>
      let verified := historicalBackfillRequiresProofScan s.cycle.config && verified
      let summary := if historicalBackfillRequiresProofScan s.cycle.config then summary
        else "proof_scan_bypassed=forced_unverified_policy"
      some {
        events := .audit now candidate verified summary
        stage :=
          match historicalBackfillExecutionKind verified s.cycle.config with
          | some kind => .enqueue candidate kind summary queue
          | none => .backfill queue }
  | _ => none

def answerPoll (codec : PurgeCodec) (s : PurgeState) (outcome : HttpOutcome) : Option Plan :=
  match s.stage with
  | .poll (candidate :: submitted) submittedRooms =>
      match pollSubmittedPurge codec s.cycle.config.maxAttempts candidate outcome with
      | none => some { stage := .poll submitted submittedRooms }
      | some write => some { stage := .pollWrite write submitted submittedRooms }
  | .poll [] (candidate :: submittedRooms) =>
      match pollSubmittedRoomHistoryPurge codec s.cycle.config.maxAttempts candidate outcome with
      | none => some { stage := .poll [] submittedRooms }
      | some write => some { stage := .pollWrite write [] submittedRooms }
  | _ => none

def acceptance (roomId : String) (boundary : PurgeBoundary) : Option String → HomeserverEvent
  | none => .quiet
  | some purgeId =>
      .accept { purgeId := purgeId, roomId := roomId, boundary := boundary, outcome := none }

/-- What `submit_purge` does with the answer to its request. -/
def afterSubmit (codec : PurgeCodec) (maxAttempts : Int) (candidate : CleanupEvent)
    (attempt : Int) (due : List CleanupEvent) (dueRooms : List RoomHistoryPurge)
    (outcome : HttpOutcome) : Stage :=
  match parseSubmitResponse codec outcome with
  | .ok submitted => .settle (.eventSubmitted candidate.eventId submitted.purgeId) due dueRooms
  | .error error =>
      if eventWasAlreadyPurged error then .probe candidate attempt due dueRooms
      else .settle (recordPurgeFailure maxAttempts candidate attempt error.display) due dueRooms

/-- What `submit_room_history_purge` does with the answer to its request. -/
def afterSubmitRoom (codec : PurgeCodec) (maxAttempts : Int) (candidate : RoomHistoryPurge)
    (attempt : Int) (outcome : HttpOutcome) : PurgeWrite :=
  match parseSubmitResponse codec outcome with
  | .ok submitted => .roomSubmitted candidate.id attempt candidate.cutoffTs submitted.purgeId
  | .error error =>
      if roomHistoryWasAlreadyClean error then
        .roomNoopSucceeded candidate.id attempt candidate.cutoffTs
      else recordRoomHistoryPurgeFailure maxAttempts candidate attempt error.display

/-- The homeserver's side of an answer to a room-history request: a task, or the report that
nothing is older than the timestamp. -/
def roomAcceptance (codec : PurgeCodec) (candidate : RoomHistoryPurge) (outcome : HttpOutcome)
    (accepted : Option String) : HomeserverEvent :=
  match parseSubmitResponse codec outcome with
  | .error error =>
      if roomHistoryWasAlreadyClean error then
        .reportClean ⟨candidate.roomId, roomHistoryTimestampMs candidate.cutoffTs⟩
      else acceptance candidate.roomId
        (purgeHistoryTimestampRequest (roomHistoryTimestampMs candidate.cutoffTs)) accepted
  | .ok _ => acceptance candidate.roomId
      (purgeHistoryTimestampRequest (roomHistoryTimestampMs candidate.cutoffTs)) accepted

def answerSubmit (codec : PurgeCodec) (s : PurgeState) (outcome : HttpOutcome)
    (accepted : Option String) : Option Plan :=
  match s.stage with
  | .send candidate attempt request due dueRooms =>
      some {
        homeserver := acceptance candidate.roomId request accepted
        stage := afterSubmit codec s.cycle.config.maxAttempts candidate attempt due dueRooms
          outcome }
  | .sendRoom candidate attempt dueRooms =>
      some {
        homeserver := roomAcceptance codec candidate outcome accepted
        stage := .settle
          (afterSubmitRoom codec s.cycle.config.maxAttempts candidate attempt outcome) []
          dueRooms }
  | _ => none

/-- A write is tried once; when it fails the candidate is dropped from this cycle. -/
def tryWrite (s : PurgeState) (now : Int) (ok : Bool) : Option Plan :=
  match s.stage with
  | .pollWrite write submitted submittedRooms =>
      some {
        events := if ok then write.onEvents now else .keep
        rooms := if ok then write.onRooms now else .keep
        stage := .poll submitted submittedRooms }
  | .settle write due dueRooms =>
      some {
        events := if ok then write.onEvents now else .keep
        rooms := if ok then write.onRooms now else .keep
        stage := .submit due dueRooms }
  | .submit (candidate :: due) dueRooms =>
      if ok then
        some {
          events := .attempt now candidate.eventId (nextAttempt candidate.attemptCount)
          stage := .prepare candidate (nextAttempt candidate.attemptCount) due dueRooms }
      else some { stage := .submit due dueRooms }
  | .submit [] (candidate :: dueRooms) =>
      if ok then
        some {
          rooms := .attempt now candidate.id (nextAttempt candidate.attemptCount)
          stage := .sendRoom candidate (nextAttempt candidate.attemptCount) dueRooms }
      else some { stage := .submit [] dueRooms }
  | _ => none

def startCycle (s : PurgeState) (config : EventPurgeConfig) (now : Int) (runBackfill : Bool) :
    Option Plan :=
  match s.stage with
  | .idle =>
      some {
        cycle := some ⟨config, now⟩
        stage := if config.enabled then .recover runBackfill else .idle }
  | _ => none

def plan (codec : PurgeCodec) (s : PurgeState) : Action → Option Plan
  | .ingest stmt => if stmt.isIngest then some { events := stmt, stage := s.stage } else none
  | .storeMessage msg => some { message := some msg, stage := s.stage }
  | .census stmt => if stmt.IsCensus then some { rooms := stmt, stage := s.stage } else none
  | .reorderEvents rows => some { events := .reorder rows, stage := s.stage }
  | .reorderRooms rows => some { rooms := .reorder rows, stage := s.stage }
  | .finish purgeId outcome => some { homeserver := .finish purgeId outcome, stage := s.stage }
  | .begin config now runBackfill => startCycle s config now runBackfill
  | .stop => some { stage := .idle }
  | .advance now => advance s now
  | .audit now verified summary => audit s now verified summary
  | .poll outcome => answerPoll codec s outcome
  | .submit outcome accepted => answerSubmit codec s outcome accepted
  | .readFailed error => readFailed s error
  | .write now ok => tryWrite s now ok

def step (codec : PurgeCodec) (s : PurgeState) (a : Action) : Option PurgeState :=
  (plan codec s a).map s.perform

/-! ## What a step can do -/

/-- The steps of the worker and of the parties around it, one constructor for each way a plan
comes about. -/
inductive Planned (codec : PurgeCodec) (s : PurgeState) : Action → Plan → Prop
  | ingest (stmt : EventStatement) (h : stmt.isIngest = true) :
      Planned codec s (.ingest stmt) { events := stmt, stage := s.stage }
  | storeMessage (msg : NewOntMessage) :
      Planned codec s (.storeMessage msg) { message := some msg, stage := s.stage }
  | census (stmt : RoomStatement) (h : stmt.IsCensus) :
      Planned codec s (.census stmt) { rooms := stmt, stage := s.stage }
  | reorderEvents (rows : List CleanupEvent) :
      Planned codec s (.reorderEvents rows) { events := .reorder rows, stage := s.stage }
  | reorderRooms (rows : List RoomHistoryPurge) :
      Planned codec s (.reorderRooms rows) { rooms := .reorder rows, stage := s.stage }
  | finish (purgeId : String) (outcome : TaskOutcome) :
      Planned codec s (.finish purgeId outcome)
        { homeserver := .finish purgeId outcome, stage := s.stage }
  | begin (config : EventPurgeConfig) (now : Int) (runBackfill : Bool) (h : s.stage = .idle) :
      Planned codec s (.begin config now runBackfill)
        { cycle := some ⟨config, now⟩
          stage := if config.enabled then .recover runBackfill else .idle }
  | stop : Planned codec s .stop { stage := .idle }
  | recover (now : Int) (runBackfill : Bool) (h : s.stage = .recover runBackfill) :
      Planned codec s (.advance now)
        { events := .recoverStale now
            (cutoffBefore s.cycle.now s.cycle.config.staleIngestSecs) s.cycle.config.batchSize
          stage := .requeue runBackfill }
  | requeue (now : Int) (runBackfill : Bool) (h : s.stage = .requeue runBackfill) :
      Planned codec s (.advance now)
        { events := .requeueExhausted now
            (cutoffBefore s.cycle.now s.cycle.config.exhaustedRetrySecs) s.cycle.config.batchSize
          stage := .requeueRooms runBackfill }
  | requeueRooms (now : Int) (runBackfill : Bool) (h : s.stage = .requeueRooms runBackfill) :
      Planned codec s (.advance now)
        { rooms := .requeueExhausted now
            (cutoffBefore s.cycle.now s.cycle.config.exhaustedRetrySecs)
            s.cycle.config.portalCensusPurgeBatchSize
          stage := if runBackfill then .listBackfill else .listSubmitted }
  | listBackfill (now : Int) (h : s.stage = .listBackfill) :
      Planned codec s (.advance now) { stage := .backfill s.backfillCandidates }
  | audit (now : Int) (verified : Bool) (summary : String)
      (candidate : EventTable.HistoricalBackfillCandidate)
      (queue : List EventTable.HistoricalBackfillCandidate) (scanned : Bool) (recorded : String)
      (h : s.stage = .backfill (candidate :: queue)) :
      Planned codec s (.audit now verified summary)
        { events := .audit now candidate scanned recorded
          stage :=
            match historicalBackfillExecutionKind scanned s.cycle.config with
            | some kind => .enqueue candidate kind recorded queue
            | none => .backfill queue }
  | backfillDone (now : Int) (h : s.stage = .backfill []) :
      Planned codec s (.advance now) { stage := .listSubmitted }
  | enqueue (now : Int) (candidate : EventTable.HistoricalBackfillCandidate)
      (kind : BackfillExecution) (summary : String)
      (queue : List EventTable.HistoricalBackfillCandidate)
      (h : s.stage = .enqueue candidate kind summary queue) :
      Planned codec s (.advance now)
        { events := enqueueStatement now candidate kind summary, stage := .backfill queue }
  | listSubmitted (now : Int) (h : s.stage = .listSubmitted) :
      Planned codec s (.advance now)
        { stage := .listSubmittedRooms
            (s.events.listSubmitted s.cycle.config.purgeStatusPollBatchSize) }
  | listSubmittedRooms (now : Int) (submitted : List CleanupEvent)
      (h : s.stage = .listSubmittedRooms submitted) :
      Planned codec s (.advance now)
        { stage := .poll submitted
            (s.rooms.listSubmittedRoomHistoryPurges s.cycle.config.purgeStatusPollBatchSize) }
  | pollKept (outcome : HttpOutcome) (candidate : CleanupEvent) (submitted : List CleanupEvent)
      (submittedRooms : List RoomHistoryPurge)
      (h : s.stage = .poll (candidate :: submitted) submittedRooms)
      (hpoll : pollSubmittedPurge codec s.cycle.config.maxAttempts candidate outcome = none) :
      Planned codec s (.poll outcome) { stage := .poll submitted submittedRooms }
  | polled (outcome : HttpOutcome) (candidate : CleanupEvent) (submitted : List CleanupEvent)
      (submittedRooms : List RoomHistoryPurge) (write : PurgeWrite)
      (h : s.stage = .poll (candidate :: submitted) submittedRooms)
      (hpoll : pollSubmittedPurge codec s.cycle.config.maxAttempts candidate outcome =
        some write) :
      Planned codec s (.poll outcome) { stage := .pollWrite write submitted submittedRooms }
  | pollRoomKept (outcome : HttpOutcome) (candidate : RoomHistoryPurge)
      (submittedRooms : List RoomHistoryPurge) (h : s.stage = .poll [] (candidate :: submittedRooms))
      (hpoll : pollSubmittedRoomHistoryPurge codec s.cycle.config.maxAttempts candidate outcome =
        none) :
      Planned codec s (.poll outcome) { stage := .poll [] submittedRooms }
  | polledRoom (outcome : HttpOutcome) (candidate : RoomHistoryPurge)
      (submittedRooms : List RoomHistoryPurge) (write : PurgeWrite)
      (h : s.stage = .poll [] (candidate :: submittedRooms))
      (hpoll : pollSubmittedRoomHistoryPurge codec s.cycle.config.maxAttempts candidate outcome =
        some write) :
      Planned codec s (.poll outcome) { stage := .pollWrite write [] submittedRooms }
  | pollWrite (now : Int) (ok : Bool) (write : PurgeWrite) (submitted : List CleanupEvent)
      (submittedRooms : List RoomHistoryPurge)
      (h : s.stage = .pollWrite write submitted submittedRooms) :
      Planned codec s (.write now ok)
        { events := if ok then write.onEvents now else .keep
          rooms := if ok then write.onRooms now else .keep
          stage := .poll submitted submittedRooms }
  | pollDone (now : Int) (h : s.stage = .poll [] []) :
      Planned codec s (.advance now) { stage := .count }
  | count (now : Int) (h : s.stage = .count) :
      Planned codec s (.advance now)
        { stage := .listDue (availablePurgeSubmissionSlots s.cycle.config.purgeMaxInFlight
            s.countSubmittedPurgeTasks) }
  | listDue (now : Int) (slots : Nat) (h : s.stage = .listDue slots) :
      Planned codec s (.advance now)
        { stage := .listDueRooms (slots - (s.dueBoundaries slots).length) (s.dueBoundaries slots) }
  | listDueRooms (now : Int) (slots : Nat) (due : List CleanupEvent)
      (h : s.stage = .listDueRooms slots due) :
      Planned codec s (.advance now) { stage := .submit due (s.dueRoomHistory slots) }
  | attempt (now : Int) (candidate : CleanupEvent) (due : List CleanupEvent)
      (dueRooms : List RoomHistoryPurge) (h : s.stage = .submit (candidate :: due) dueRooms) :
      Planned codec s (.write now true)
        { events := .attempt now candidate.eventId (nextAttempt candidate.attemptCount)
          stage := .prepare candidate (nextAttempt candidate.attemptCount) due dueRooms }
  | attemptFailed (now : Int) (candidate : CleanupEvent) (due : List CleanupEvent)
      (dueRooms : List RoomHistoryPurge) (h : s.stage = .submit (candidate :: due) dueRooms) :
      Planned codec s (.write now false) { stage := .submit due dueRooms }
  | attemptRoom (now : Int) (candidate : RoomHistoryPurge) (dueRooms : List RoomHistoryPurge)
      (h : s.stage = .submit [] (candidate :: dueRooms)) :
      Planned codec s (.write now true)
        { rooms := .attempt now candidate.id (nextAttempt candidate.attemptCount)
          stage := .sendRoom candidate (nextAttempt candidate.attemptCount) dueRooms }
  | attemptRoomFailed (now : Int) (candidate : RoomHistoryPurge)
      (dueRooms : List RoomHistoryPurge) (h : s.stage = .submit [] (candidate :: dueRooms)) :
      Planned codec s (.write now false) { stage := .submit [] dueRooms }
  | prepared (now : Int) (candidate : CleanupEvent) (attempt : Int) (request : PurgeBoundary)
      (due : List CleanupEvent) (dueRooms : List RoomHistoryPurge)
      (h : s.stage = .prepare candidate attempt due dueRooms)
      (hrequest : preparedRequest s.messages candidate = .ok request) :
      Planned codec s (.advance now) { stage := .send candidate attempt request due dueRooms }
  | sent (outcome : HttpOutcome) (accepted : Option String) (candidate : CleanupEvent)
      (attempt : Int) (request : PurgeBoundary) (due : List CleanupEvent)
      (dueRooms : List RoomHistoryPurge) (h : s.stage = .send candidate attempt request due dueRooms) :
      Planned codec s (.submit outcome accepted)
        { homeserver := acceptance candidate.roomId request accepted
          stage := afterSubmit codec s.cycle.config.maxAttempts candidate attempt due dueRooms
            outcome }
  | sentRoom (outcome : HttpOutcome) (accepted : Option String) (candidate : RoomHistoryPurge)
      (attempt : Int) (dueRooms : List RoomHistoryPurge)
      (h : s.stage = .sendRoom candidate attempt dueRooms) :
      Planned codec s (.submit outcome accepted)
        { homeserver := roomAcceptance codec candidate outcome accepted
          stage := .settle
            (afterSubmitRoom codec s.cycle.config.maxAttempts candidate attempt outcome) []
            dueRooms }
  /-- A candidate that fails before or after its request was sent. -/
  | failed (a : Action) (candidate : CleanupEvent) (attempt : Int) (error : String)
      (due : List CleanupEvent) (dueRooms : List RoomHistoryPurge)
      (h : s.stage = .prepare candidate attempt due dueRooms ∨
        s.stage = .probe candidate attempt due dueRooms) :
      Planned codec s a
        { stage := .settle
            (recordPurgeFailure s.cycle.config.maxAttempts candidate attempt error) due dueRooms }
  | probed (now : Int) (candidate : CleanupEvent) (attempt : Int) (due : List CleanupEvent)
      (dueRooms : List RoomHistoryPurge) (h : s.stage = .probe candidate attempt due dueRooms)
      (hnewer : s.events.hasNewerSuccessfulBoundary candidate.roomId
        candidate.ontologyMessageId = true) :
      Planned codec s (.advance now)
        { stage := .settle (recordPurgeSucceeded candidate) due dueRooms }
  | settle (now : Int) (ok : Bool) (write : PurgeWrite) (due : List CleanupEvent)
      (dueRooms : List RoomHistoryPurge) (h : s.stage = .settle write due dueRooms) :
      Planned codec s (.write now ok)
        { events := if ok then write.onEvents now else .keep
          rooms := if ok then write.onRooms now else .keep
          stage := .submit due dueRooms }
  /-- The cycle ends: a dry run, a backfill row outside its audit state, or nothing left. -/
  | ended (now : Int)
      (h : (∃ submitted, s.stage = .listSubmittedRooms submitted) ∨ s.stage = .submit [] [] ∨
        ∃ candidate kind summary queue, s.stage = .enqueue candidate kind summary queue) :
      Planned codec s (.advance now) { stage := .idle }

theorem advance_spec {codec : PurgeCodec} {s : PurgeState} {now : Int} {p : Plan}
    (h : advance s now = some p) : Planned codec s (.advance now) p := by
  unfold advance at h
  split at h
  next runBackfill hstage => cases h; exact .recover now runBackfill hstage
  next runBackfill hstage => cases h; exact .requeue now runBackfill hstage
  next runBackfill hstage => cases h; exact .requeueRooms now runBackfill hstage
  next hstage => cases h; exact .listBackfill now hstage
  next hstage => cases h; exact .backfillDone now hstage
  next candidate kind summary queue hstage =>
    split at h
    · cases h; exact .enqueue now candidate kind summary queue hstage
    · cases h; exact .ended now (Or.inr (Or.inr ⟨candidate, kind, summary, queue, hstage⟩))
  next hstage => cases h; exact .listSubmitted now hstage
  next submitted hstage =>
    split at h
    · cases h; exact .ended now (Or.inl ⟨submitted, hstage⟩)
    · cases h; exact .listSubmittedRooms now submitted hstage
  next hstage => cases h; exact .pollDone now hstage
  next hstage => cases h; exact .count now hstage
  next slots hstage => cases h; exact .listDue now slots hstage
  next slots due hstage => cases h; exact .listDueRooms now slots due hstage
  next hstage => cases h; exact .ended now (Or.inr (Or.inl hstage))
  next candidate attempt due dueRooms hstage =>
    split at h
    next request hrequest =>
      cases h; exact .prepared now candidate attempt request due dueRooms hstage hrequest
    next error _ =>
      cases h; exact .failed _ candidate attempt error due dueRooms (Or.inl hstage)
  next candidate attempt due dueRooms hstage =>
    split at h
    next hnewer => cases h; exact .probed now candidate attempt due dueRooms hstage hnewer
    next => cases h; exact .failed _ candidate attempt _ due dueRooms (Or.inr hstage)
  next => cases h

theorem answerPoll_spec {codec : PurgeCodec} {s : PurgeState} {outcome : HttpOutcome} {p : Plan}
    (h : answerPoll codec s outcome = some p) : Planned codec s (.poll outcome) p := by
  unfold answerPoll at h
  split at h
  next candidate submitted submittedRooms hstage =>
    split at h
    next hpoll => cases h; exact .pollKept outcome candidate submitted submittedRooms hstage hpoll
    next write hpoll =>
      cases h; exact .polled outcome candidate submitted submittedRooms write hstage hpoll
  next candidate submittedRooms hstage =>
    split at h
    next hpoll => cases h; exact .pollRoomKept outcome candidate submittedRooms hstage hpoll
    next write hpoll => cases h; exact .polledRoom outcome candidate submittedRooms write hstage hpoll
  next => cases h

theorem tryWrite_spec {codec : PurgeCodec} {s : PurgeState} {now : Int} {ok : Bool} {p : Plan}
    (h : tryWrite s now ok = some p) : Planned codec s (.write now ok) p := by
  unfold tryWrite at h
  split at h
  next write submitted submittedRooms hstage =>
    cases h; exact .pollWrite now ok write submitted submittedRooms hstage
  next write due dueRooms hstage => cases h; exact .settle now ok write due dueRooms hstage
  next candidate due dueRooms hstage =>
    cases ok with
    | true => cases h; exact .attempt now candidate due dueRooms hstage
    | false => cases h; exact .attemptFailed now candidate due dueRooms hstage
  next candidate dueRooms hstage =>
    cases ok with
    | true => cases h; exact .attemptRoom now candidate dueRooms hstage
    | false => cases h; exact .attemptRoomFailed now candidate dueRooms hstage
  next => cases h

theorem plan_spec {codec : PurgeCodec} {s : PurgeState} {a : Action} {p : Plan}
    (h : plan codec s a = some p) : Planned codec s a p := by
  cases a with
  | ingest stmt =>
      simp only [plan, Option.ite_none_right_eq_some, Option.some.injEq] at h
      exact h.2 ▸ .ingest stmt h.1
  | storeMessage msg => cases h; exact .storeMessage msg
  | census stmt =>
      simp only [plan, Option.ite_none_right_eq_some, Option.some.injEq] at h
      exact h.2 ▸ .census stmt h.1
  | reorderEvents rows => cases h; exact .reorderEvents rows
  | reorderRooms rows => cases h; exact .reorderRooms rows
  | finish purgeId outcome => cases h; exact .finish purgeId outcome
  | begin config now runBackfill =>
      simp only [plan, startCycle] at h
      split at h
      next hstage => cases h; exact .begin config now runBackfill hstage
      next => cases h
  | stop => cases h; exact .stop
  | advance now => exact advance_spec h
  | audit now verified summary =>
      simp only [plan, audit] at h
      split at h
      next candidate queue hstage =>
        cases h; exact .audit now verified summary candidate queue _ _ hstage
      next => cases h
  | poll outcome => exact answerPoll_spec h
  | submit outcome accepted =>
      simp only [plan, answerSubmit] at h
      split at h
      next candidate attempt request due dueRooms hstage =>
        cases h; exact .sent outcome accepted candidate attempt request due dueRooms hstage
      next candidate attempt dueRooms hstage =>
        cases h; exact .sentRoom outcome accepted candidate attempt dueRooms hstage
      next => cases h
  | readFailed error =>
      simp only [plan, readFailed] at h
      split at h
      next candidate attempt due dueRooms hstage =>
        simp only [Option.ite_none_right_eq_some, Option.some.injEq] at h
        exact h.2 ▸ .failed _ candidate attempt _ due dueRooms (Or.inl hstage)
      next candidate attempt due dueRooms hstage =>
        cases h; exact .failed _ candidate attempt _ due dueRooms (Or.inr hstage)
      next => cases h
  | write now ok => exact tryWrite_spec h

/-- Every step performs a plan that `Planned` describes. -/
theorem step_spec {codec : PurgeCodec} {s next : PurgeState} {a : Action}
    (h : step codec s a = some next) : ∃ p, Planned codec s a p ∧ next = s.perform p := by
  obtain ⟨p, hp, rfl⟩ := Option.map_eq_some_iff.mp h
  exact ⟨p, plan_spec hp, rfl⟩

end Lightfriend.Purge
