import Lightfriend.Bridge.RoomAudit
import Lightfriend.Core.Transition

/-! # One cleanup job

`process_job` checks that the bridge is still gone, loads the candidate rooms of
the job, audits every one of them and deletes those nobody else uses, up to the
limit of the cycle. A job is done when no deletion failed and none was put off.
-/

namespace Lightfriend.Bridge

open Procedure

/-- What the services answer to a job, before, between and after its rooms. -/
structure JobAnswers where
  now : Int
  retryNow : Int
  generation : Except String (Option BridgeGeneration)
  proofLogin : LoginAnswers
  proofStored : Except String Unit
  discovered : Option (Int × List String)
  roomsLoaded : Except String Unit
  leaseAcquired : Except String Bool
  finalLogin : LoginAnswers
  leaseGeneration : Except String (Option BridgeGeneration)
  storageBefore : StorageSnapshot
  storageAfter : StorageSnapshot
  room : Int → RoomAnswers

/-! ## Before the rooms -/

def bridgeCleanupExecutionAllowed (triggerKind portalCleanupStatus : String)
    (executeEnabled orphanExecuteEnabled : Bool) : Bool :=
  if !executeEnabled then false
  else if triggerKind == orphanAudit then
    orphanExecuteEnabled && portalCleanupStatus == orphanLoginAbsentVerified
  else portalCleanupStatus == "confirmed"

def orphanAbsenceReadyForVerification (proofStatus : String) (firstAbsentAt : Option Int)
    (now recheckSecs : Int) : Bool :=
  proofStatus == orphanLoginAbsenceObserved &&
    match firstAbsentAt with
    | some observedAt => recheckSecs ≤ saturatingSub now observedAt
    | none => false

def retryJob (config : Config) (job : BridgeCleanupJob) (now : Int) (error : String) :
    Cleanup Unit :=
  let attempt := saturatingAdd job.attemptCount 1
  let exhausted : Bool := config.maxAttempts ≤ attempt
  emit (.updateJob job.id (if exhausted then .exhausted else .retrying) attempt
    (saturatingAdd now config.retrySecs) error exhausted)

/-- The bridge row must be gone; its own generation is waited for, a newer one cancels the job. -/
def checkBridgeGeneration (config : Config) (job : BridgeCleanupJob) (answers : JobAnswers) :
    Cleanup Unit :=
  match answers.generation with
  | .ok none => pure ()
  | .ok (some current) =>
      if job.expectedBridgeId = some current.id ∧
          job.expectedBridgeCreatedAt = current.createdAt then do
        emit (.updateJob job.id .retrying job.attemptCount
          (saturatingAdd answers.now config.retrySecs)
          s!"expected bridge generation still present status={current.status}" false)
        leave
      else do
        emit (.updateJob job.id .cancelledReconnected job.attemptCount answers.now
          s!"cancelled: newer bridge generation id={current.id} created_at={debugOption current.createdAt} status={current.status}"
          true)
        leave
  | .error error => do
      retryJob config job answers.retryNow s!"bridge generation check failed: {error}"
      leave

/-- An orphan's bridge logins must be absent twice, with time in between. -/
def prepareOrphanLoginProof (config : Config) (job : BridgeCleanupJob) (answers : JobAnswers) :
    Cleanup Bool :=
  match ownLoginCount answers.proofLogin job.bridgeType with
  | .error error => do
      emit (.recordLoginProof job.id orphanLoginProbeFailed none
        (saturatingAdd answers.now config.retrySecs) s!"orphan login proof inconclusive: {error}")
      pure false
  | .ok count =>
      if 0 < count then do
        emit (.recordLoginProof job.id orphanLoginPresent none
          (saturatingAdd answers.now config.orphanScanSecs)
          s!"bridge_login_rows={count}; rooms retained")
        pure false
      else if job.portalCleanupStatus = orphanLoginAbsentVerified then pure true
      else if orphanAbsenceReadyForVerification job.portalCleanupStatus
          job.portalCleanupConfirmedAt answers.now config.orphanProofRecheckSecs then do
        emit (.recordLoginProof job.id orphanLoginAbsentVerified job.portalCleanupConfirmedAt
          answers.now
          s!"bridge_login_rows=0 second_observation=true first_absent_at={job.portalCleanupConfirmedAt.getD answers.now}")
        match answers.proofStored with
        | .ok () => pure true
        | .error _ => pure false
      else do
        emit (.recordLoginProof job.id orphanLoginAbsenceObserved (some answers.now)
          (saturatingAdd answers.now config.orphanProofRecheckSecs)
          "bridge_login_rows=0 first_observation=true")
        pure false

def portalCleanupStatus (config : Config) (job : BridgeCleanupJob) : String :=
  if job.triggerKind = orphanAudit ∧ config.orphanExecuteEnabled = true then
    orphanLoginAbsentVerified
  else job.portalCleanupStatus

def proveOrphan (config : Config) (job : BridgeCleanupJob) (answers : JobAnswers) :
    Cleanup Unit :=
  if job.triggerKind = orphanAudit ∧ config.orphanExecuteEnabled = true then do
    let proved ← prepareOrphanLoginProof config job answers
    if proved then pure () else leave
  else pure ()

/-- The rooms after the discovery of the ones visible to the owner, which may fail. -/
def discoveredRooms (job : BridgeCleanupJob) (answers : JobAnswers) (rooms : CleanupRooms) :
    CleanupRooms :=
  match answers.discovered with
  | none => rooms
  | some (now, roomIds) => rooms.addBridgeCleanupRooms now job.id roomIds "matrix_visibility"

def discoverVisibleServiceRooms (job : BridgeCleanupJob) (answers : JobAnswers) : Cleanup Unit :=
  modify (fun p => { p with rooms := discoveredRooms job answers p.rooms })

def loadRooms (config : Config) (job : BridgeCleanupJob) (answers : JobAnswers) :
    Cleanup (List BridgeCleanupRoom) :=
  match answers.roomsLoaded with
  | .ok () => do
      let p ← read
      pure (p.rooms.listBridgeCleanupRooms job.id)
  | .error error => do
      retryJob config job answers.retryNow s!"room candidate load failed: {error}"
      leave

/-- The checks made once the lease is held. -/
def checkUnderLease (config : Config) (job : BridgeCleanupJob) (answers : JobAnswers) :
    Cleanup Unit :=
  match answers.leaseGeneration with
  | .ok none => emit (.recordStorage job.id true answers.storageBefore)
  | .ok (some current) => do
      emit (.updateJob job.id .cancelledReconnected job.attemptCount answers.now
        s!"cancelled after cleanup lease: bridge id={current.id} created_at={debugOption current.createdAt} status={current.status}"
        true)
      leave
  | .error error => do
      retryJob config job answers.retryNow s!"post-lease bridge generation check failed: {error}"
      leave

def recheckOrphan (config : Config) (job : BridgeCleanupJob) (answers : JobAnswers) :
    Cleanup Unit :=
  if job.triggerKind = orphanAudit then do
    let absent ← finalOrphanLoginAbsenceCheck config job answers.finalLogin answers.now
    if absent then pure () else leave
  else pure ()

def acquireCleanupLease (config : Config) (job : BridgeCleanupJob) (answers : JobAnswers) :
    Cleanup Unit :=
  match answers.leaseAcquired with
  | .ok true => do
      recheckOrphan config job answers
      checkUnderLease config job answers
  | .ok false => do
      retryJob config job answers.retryNow "reconnect operation currently holds bridge lease"
      leave
  | .error error => do
      retryJob config job answers.retryNow s!"cleanup lease acquisition failed: {error}"
      leave

/-- Does the job hold the lease? It takes it only to delete. -/
def cleanupLease (config : Config) (job : BridgeCleanupJob) (answers : JobAnswers)
    (execute : Bool) : Cleanup Bool := do
  let p ← read
  if execute = true ∧ 0 < p.remainingRoomDeletes then do
    acquireCleanupLease config job answers
    pure true
  else pure false

/-! ## The rooms -/

/-- The counters of a job; its rooms have distinct positive `i32` ids, so none overflows. -/
structure Tally where
  blocked : Nat
  failed : Nat
  deleted : Nat
  deferred : Nat
deriving DecidableEq, Repr

def Tally.start : Tally := ⟨0, 0, 0, 0⟩

/-- What the room loop is given. -/
structure RoomPlan where
  execute : Bool
  lease : Bool
  auditNote : String

def auditNote (config : Config) (job : BridgeCleanupJob) : String :=
  let executeRequested := config.executeEnabled &&
    (job.triggerKind != orphanAudit || config.orphanExecuteEnabled)
  if executeRequested then
    s!"blocked: portal cleanup status={portalCleanupStatus config job} (confirmed required)"
  else "eligible; destructive execution disabled by policy"

def deleteUnderGuard (config : Config) (codec : RoomCodec) (job : BridgeCleanupJob)
    (retryNow : Int) (room : BridgeCleanupRoom) (answers : RoomAnswers) (tally : Tally) :
    Cleanup Tally := do
  let guard ← refreshCleanupGuard config job answers.guard
  match guard with
  | .error error => do
      let reason := s!"pre-delete safety recheck failed: {error}"
      updateRoom answers.resultStored room.id .blockedActive room.attemptCount (some reason) false
      retryJob config job retryNow reason
      leave
  | .ok () => do
      let deleted ← deleteRoom config codec room answers
      if deleted then do
        modify (fun p => { p with remainingRoomDeletes := p.remainingRoomDeletes - 1 })
        pure { tally with deleted := tally.deleted + 1 }
      else pure { tally with failed := tally.failed + 1 }

/-- A room nobody else uses. -/
def processExclusiveRoom (config : Config) (codec : RoomCodec) (job : BridgeCleanupJob)
    (retryNow : Int) (plan : RoomPlan) (room : BridgeCleanupRoom) (answers : RoomAnswers)
    (tally : Tally) : Cleanup Tally :=
  if plan.execute then do
    let p ← read
    if p.remainingRoomDeletes ≤ 0 then do
      updateRoom answers.resultStored room.id .auditReady room.attemptCount
        (some "eligible; deferred by per-cycle destructive canary limit") false
      pure { tally with deferred := tally.deferred + 1 }
    else if plan.lease then deleteUnderGuard config codec job retryNow room answers tally
    else do
      retryJob config job retryNow "cleanup lease missing before room delete"
      leave
  else do
    updateRoom answers.resultStored room.id .auditReady room.attemptCount (some plan.auditNote)
      false
    pure tally

def processRoom (config : Config) (codec : RoomCodec) (job : BridgeCleanupJob) (retryNow : Int)
    (plan : RoomPlan) (room : BridgeCleanupRoom) (answers : RoomAnswers) (tally : Tally) :
    Cleanup Tally :=
  match auditRoom codec job answers.audit with
  | .ok () => processExclusiveRoom config codec job retryNow plan room answers tally
  | .error reason => do
      updateRoom answers.resultStored room.id .blockedActive room.attemptCount (some reason) true
      pure { tally with blocked := tally.blocked + 1 }

def processRooms (config : Config) (codec : RoomCodec) (job : BridgeCleanupJob)
    (answers : JobAnswers) (plan : RoomPlan) : List BridgeCleanupRoom → Tally → Cleanup Tally
  | [], tally => pure tally
  | room :: rest, tally => do
      let next ← processRoom config codec job answers.retryNow plan room (answers.room room.id) tally
      processRooms config codec job answers plan rest next

/-! ## After the rooms -/

def summary (config : Config) (job : BridgeCleanupJob) (execute : Bool) (tally : Tally) : String :=
  s!"rooms_deleted={tally.deleted} rooms_blocked={tally.blocked} rooms_failed={tally.failed} rooms_deferred={tally.deferred} execute={execute} portal_cleanup_status={portalCleanupStatus config job} canary_limit={config.roomDeleteLimit}"

def recordFreedStorage (job : BridgeCleanupJob) (answers : JobAnswers) (tally : Tally) :
    Cleanup Unit :=
  if 0 < tally.deleted then emit (.recordStorage job.id false answers.storageAfter) else pure ()

def finishJob (config : Config) (job : BridgeCleanupJob) (answers : JobAnswers) (execute : Bool)
    (tally : Tally) : Cleanup Unit :=
  let text := summary config job execute tally
  if 0 < tally.failed then retryJob config job answers.retryNow text
  else if execute = true ∧ tally.deferred = 0 then
    emit (.updateJob job.id .succeeded job.attemptCount answers.now text true)
  else if execute then
    emit (.updateJob job.id .auditReady job.attemptCount
      (saturatingAdd answers.now config.retrySecs) text false)
  else
    emit (.updateJob job.id .auditReady job.attemptCount
      (saturatingAdd answers.now config.orphanScanSecs) text false)

def processRemaining (config : Config) (codec : RoomCodec) (job : BridgeCleanupJob)
    (answers : JobAnswers) (rooms : List BridgeCleanupRoom) : Cleanup Unit := do
  let execute := bridgeCleanupExecutionAllowed job.triggerKind (portalCleanupStatus config job)
    config.executeEnabled config.orphanExecuteEnabled
  let lease ← cleanupLease config job answers execute
  let tally ← processRooms config codec job answers ⟨execute, lease, auditNote config job⟩ rooms
    .start
  recordFreedStorage job answers tally
  finishJob config job answers execute tally

def processJob (config : Config) (codec : RoomCodec) (job : BridgeCleanupJob)
    (answers : JobAnswers) : Cleanup Unit := do
  checkBridgeGeneration config job answers
  proveOrphan config job answers
  discoverVisibleServiceRooms job answers
  let rooms ← loadRooms config job answers
  processRemaining config codec job answers rooms

end Lightfriend.Bridge
