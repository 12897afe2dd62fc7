import Lightfriend.Core.Http
import Lightfriend.Core.Procedure
import Lightfriend.Purge.Event

/-! # Cleanup jobs of disconnected bridges

A job removes the homeserver rooms a disconnected bridge has left behind. Its
candidate rooms are rows of `bridge_cleanup_rooms`; a row leaves the worklist of
its job only when its status is `succeeded`.
-/

namespace Lightfriend.Bridge

/-! ## Rows -/

inductive BridgeJobStatus
  | auditPending
  | auditReady
  | pending
  | retrying
  | succeeded
  | exhausted
  | cancelledReconnected
deriving DecidableEq, Repr

inductive BridgeRoomStatus
  | pending
  | auditReady
  | blockedActive
  | deleting
  | succeeded
  | retrying
  | exhausted
deriving DecidableEq, Repr

structure BridgeCleanupJob where
  id : Int
  userId : Int
  bridgeType : String
  triggerKind : String
  expectedBridgeId : Option Int
  expectedBridgeCreatedAt : Option Int
  attemptCount : Int
  portalCleanupStatus : String
  portalCleanupConfirmedAt : Option Int
deriving DecidableEq, Repr

structure BridgeCleanupRoom where
  id : Int
  jobId : Int
  roomId : String
  source : String
  status : BridgeRoomStatus
  attemptCount : Int
  lastError : Option String
  discoveredAt : Int
  updatedAt : Int
  completedAt : Option Int
deriving DecidableEq, Repr

abbrev CleanupRooms := Table BridgeCleanupRoom Int BridgeCleanupRoom.id

/-- The current row of `bridges` for the user and the platform of a job. -/
structure BridgeGeneration where
  id : Int
  status : String
  createdAt : Option Int
deriving DecidableEq, Repr

structure StorageSnapshot where
  rootfsFreeBytes : Option Int
  tuwunelBytes : Option Int
deriving DecidableEq, Repr

structure Config where
  executeEnabled : Bool
  orphanExecuteEnabled : Bool
  maxAttempts : Int
  retrySecs : Int
  orphanScanSecs : Int
  orphanProofRecheckSecs : Int
  roomDeleteLimit : Int
deriving DecidableEq, Repr

/-- The JSON reading of a members answer, and the text of an HTTP status code. -/
structure RoomCodec where
  decodeMembers : String → Except String (List String)
  statusText : Nat → String

def connectionLeaseSecs : Int := 300

def orphanAudit : String := "orphan_audit"
def orphanLoginAbsenceObserved : String := "bridge_login_absence_observed"
def orphanLoginAbsentVerified : String := "bridge_login_absent_verified"
def orphanLoginPresent : String := "bridge_login_present"
def orphanLoginProbeFailed : String := "bridge_login_probe_failed"

/-- The derived `Debug` text of an optional number. -/
def debugOption : Option Int → String
  | none => "None"
  | some n => s!"Some({n})"

/-! ## Statements -/

namespace CleanupRooms

/-- One row of an `INSERT .. ON CONFLICT (job_id, room_id) DO NOTHING`. -/
def add (now jobId : Int) (source : String) (rooms : CleanupRooms) (roomId : String) :
    CleanupRooms :=
  if startsWithChar '!' roomId ∧ ∀ r ∈ rooms.rows, ¬ (r.jobId = jobId ∧ r.roomId = roomId) then
    rooms.insertOrIgnore
      { id := nextSerial (rooms.rows.map BridgeCleanupRoom.id)
        jobId, roomId, source
        status := .pending
        attemptCount := 0
        lastError := none
        discoveredAt := now
        updatedAt := now
        completedAt := none }
  else rooms

/-- `add_bridge_cleanup_rooms`, and each half of `seed_bridge_cleanup_rooms`. -/
def addBridgeCleanupRooms (now jobId : Int) (roomIds : List String) (source : String)
    (rooms : CleanupRooms) : CleanupRooms :=
  roomIds.foldl (add now jobId source) rooms

/-- `list_bridge_cleanup_rooms`. -/
def listBridgeCleanupRooms (jobId : Int) (rooms : CleanupRooms) : List BridgeCleanupRoom :=
  orderBy (fun a b => a.id ≤ b.id)
    (rooms.rows.filter (fun r => r.jobId = jobId ∧ r.status ≠ .succeeded))

/-- `update_bridge_cleanup_room`; its callers pass no `delete_id`. -/
def updateBridgeCleanupRoom (now id : Int) (status : BridgeRoomStatus) (attemptCount : Int)
    (error : Option String) (complete : Bool) (rooms : CleanupRooms) : CleanupRooms :=
  rooms.updateWhere (fun r => r.id = id)
    (fun r =>
      { r with
        status, attemptCount
        lastError := error.map Purge.trimError
        updatedAt := now
        completedAt := if complete then some now else none })
    (fun _ => rfl)

/-- The rows of deleted jobs go with them. -/
def deleteJobs (jobIds : List Int) (rooms : CleanupRooms) : CleanupRooms :=
  rooms.deleteWhere (fun r => r.jobId ∈ jobIds)

theorem mem_listBridgeCleanupRooms {jobId : Int} {rooms : CleanupRooms} {r : BridgeCleanupRoom} :
    r ∈ listBridgeCleanupRooms jobId rooms ↔
      r ∈ rooms ∧ r.jobId = jobId ∧ r.status ≠ .succeeded := by
  simp [listBridgeCleanupRooms, List.mem_filter]

/-- An inserted row is pending; every other row was there before. -/
theorem mem_add {now jobId : Int} {source roomId : String} {rooms : CleanupRooms}
    {r : BridgeCleanupRoom} (h : r ∈ add now jobId source rooms roomId) :
    r ∈ rooms ∨ r.status = .pending := by
  unfold add at h
  split at h
  · rcases Table.mem_insertOrIgnore.mp h with h | ⟨_, rfl⟩
    · exact Or.inl h
    · exact Or.inr rfl
  · exact Or.inl h

theorem mem_deleteJobs {jobIds : List Int} {rooms : CleanupRooms} {r : BridgeCleanupRoom}
    (h : r ∈ deleteJobs jobIds rooms) : r ∈ rooms :=
  (Table.mem_deleteWhere.mp h).1

end CleanupRooms

/-! ## What a cleanup issues -/

/-- The statements on the job, its rooms and its proof, and the deletions sent to the
homeserver with their answers, in the order they are issued. -/
inductive Effect
  | updateJob (id : Int) (status : BridgeJobStatus) (attemptCount notBefore : Int)
      (error : String) (complete : Bool)
  | updateRoom (id : Int) (status : BridgeRoomStatus) (attemptCount : Int)
      (error : Option String) (complete : Bool)
  | recordLoginProof (jobId : Int) (proofStatus : String) (firstAbsentAt : Option Int)
      (notBefore : Int) (detail : String)
  | recordStorage (jobId : Int) (before : Bool) (snapshot : StorageSnapshot)
  | deleteRoom (roomId : String) (answer : HttpOutcome)

/-- What a call of the cleanup changes: the rows, and the deletions left in the cycle. -/
structure Progress where
  rooms : CleanupRooms
  remainingRoomDeletes : Int

abbrev Cleanup := Procedure Progress Effect

/-- The homeserver deleted the room or knows no such room. -/
def confirmsGone : HttpOutcome → Bool
  | .transportError _ => false
  | .response status body =>
      isSuccess status ||
        (status == notFound &&
          match body with
          | .ok text => containsText (toAsciiLowercase text) "room not found"
          | .error _ => false)

/-- Some deletion of the room was confirmed. -/
def Gone (log : List Effect) (roomId : String) : Prop :=
  ∃ answer, Effect.deleteRoom roomId answer ∈ log ∧ confirmsGone answer = true

theorem Gone.append {log : List Effect} {roomId : String} (h : Gone log roomId)
    (rest : List Effect) : Gone (log ++ rest) roomId := by
  obtain ⟨answer, hmem, hgone⟩ := h
  exact ⟨answer, List.mem_append_left rest hmem, hgone⟩

/-- Every row marked `succeeded` names a room that is gone. -/
def SucceededGone (p : Progress) (log : List Effect) : Prop :=
  ∀ r ∈ p.rooms, r.status = .succeeded → Gone log r.roomId

end Lightfriend.Bridge
