import Lightfriend.Purge.Event

/-! # The room-history queue

One row of `tuwunel_room_history_purges` for every (user, service, room) whose
history is removed up to a cutoff timestamp. Several rows may name one room, so
completing one row also completes its sibling rows with a covered cutoff.
-/

namespace Lightfriend.Purge

inductive RoomHistoryStatus
  | pending
  | attempting
  | submitted
  | retrying
  | succeeded
  | exhausted
deriving DecidableEq, Repr

structure RoomHistoryPurge where
  id : Int
  userId : Int
  service : String
  roomId : String
  cutoffTs : Int
  submittedCutoffTs : Option Int
  purgeId : Option String
  status : RoomHistoryStatus
  attemptCount : Int
  lastError : Option String
  lastDiscoveredAt : Int
  lastAttemptedAt : Option Int
  completedAt : Option Int
  updatedAt : Int
deriving DecidableEq, Repr

abbrev RoomHistoryTable := Table RoomHistoryPurge Int RoomHistoryPurge.id

/-! ## The columns each statement sets -/

/-- `COALESCE(submitted_cutoff_ts, 0)`. -/
def coalesce (cutoff : Option Int) : Int := cutoff.getD 0

def failureStatus (attempt maxAttempts : Int) : RoomHistoryStatus :=
  if maxAttempts ≤ attempt then .exhausted else .retrying

namespace RoomHistoryPurge

/-- The conflict branch of the portal census. A submitted row keeps its cutoff; any other row
takes the larger one and is reopened when the new cutoff exceeds what was last submitted. -/
def censusUpdate (cutoffTs discoveredAt : Int) (r : RoomHistoryPurge) : RoomHistoryPurge :=
  { r with
    cutoffTs := if r.status = .submitted then r.cutoffTs else max r.cutoffTs cutoffTs
    status :=
      if r.status = .submitted then r.status
      else if coalesce r.submittedCutoffTs < cutoffTs then .pending
      else r.status
    attemptCount :=
      if r.status = .submitted then r.attemptCount
      else if coalesce r.submittedCutoffTs < cutoffTs then 0
      else r.attemptCount
    lastError := if r.status = .submitted then r.lastError else none
    lastDiscoveredAt := discoveredAt
    updatedAt := discoveredAt }

def startAttempt (now attempt : Int) (r : RoomHistoryPurge) : RoomHistoryPurge :=
  { r with
    status := .attempting
    attemptCount := attempt
    lastAttemptedAt := some now
    updatedAt := now }

def submit (now attempt cutoffTs : Int) (purgeId : String) (r : RoomHistoryPurge) :
    RoomHistoryPurge :=
  { r with
    status := .submitted
    attemptCount := attempt
    submittedCutoffTs := some cutoffTs
    purgeId := some purgeId
    lastError := none
    updatedAt := now }

def succeed (now : Int) (r : RoomHistoryPurge) : RoomHistoryPurge :=
  { r with
    status := .succeeded
    purgeId := none
    lastError := none
    completedAt := some now
    updatedAt := now }

def succeedNoop (now attempt cutoffTs : Int) (r : RoomHistoryPurge) : RoomHistoryPurge :=
  { r with
    status := .succeeded
    attemptCount := max r.attemptCount attempt
    submittedCutoffTs := some (max (coalesce r.submittedCutoffTs) cutoffTs)
    purgeId := none
    lastError := none
    completedAt := some now
    updatedAt := now }

def fail (now attempt maxAttempts : Int) (error : String) (r : RoomHistoryPurge) :
    RoomHistoryPurge :=
  { r with
    status := failureStatus attempt maxAttempts
    attemptCount := attempt
    purgeId := none
    lastError := some (trimError error)
    completedAt := if failureStatus attempt maxAttempts = .exhausted then some now else none
    updatedAt := now }

def requeue (now : Int) (r : RoomHistoryPurge) : RoomHistoryPurge :=
  { r with
    status := .retrying
    attemptCount := 0
    purgeId := none
    lastAttemptedAt := none
    completedAt := none
    updatedAt := now }

def isDue (r : RoomHistoryPurge) : Bool :=
  match r.status with
  | .pending | .attempting | .retrying => true
  | _ => false

/-- Do the row's room and cutoff lie within a purge of `roomId` up to `cutoffTs`? -/
def coveredBy (roomId : String) (cutoffTs : Int) (r : RoomHistoryPurge) : Bool :=
  decide (r.roomId = roomId) && decide (r.cutoffTs ≤ cutoffTs)

end RoomHistoryPurge

namespace RoomHistoryTable

/-! ## Census -/

/-- The unique constraint that the census inserts refer to. -/
def sameTarget (userId : Int) (service roomId : String) (r : RoomHistoryPurge) : Bool :=
  decide (r.userId = userId) && decide (r.service = service) && decide (r.roomId = roomId)

def censusRow (t : RoomHistoryTable) (userId : Int) (service : String)
    (cutoffTs discoveredAt : Int) (roomId : String) : RoomHistoryPurge where
  id := nextSerial (t.rows.map RoomHistoryPurge.id)
  userId := userId
  service := service
  roomId := roomId
  cutoffTs := cutoffTs
  submittedCutoffTs := none
  purgeId := none
  status := .pending
  attemptCount := 0
  lastError := none
  lastDiscoveredAt := discoveredAt
  lastAttemptedAt := none
  completedAt := none
  updatedAt := discoveredAt

theorem censusRow_free (t : RoomHistoryTable) (userId : Int) (service : String)
    (cutoffTs discoveredAt : Int) (roomId : String) :
    ¬ t.HasKey (t.censusRow userId service cutoffTs discoveredAt roomId).id :=
  nextSerial_not_mem (t.rows.map RoomHistoryPurge.id)

def recordPortalCensusRoom (userId : Int) (service : String) (cutoffTs discoveredAt : Int)
    (t : RoomHistoryTable) (roomId : String) : RoomHistoryTable :=
  if t.rows.any (sameTarget userId service roomId) then
    t.updateWhere (sameTarget userId service roomId)
      (RoomHistoryPurge.censusUpdate cutoffTs discoveredAt) (fun _ => rfl)
  else
    t.insert (t.censusRow userId service cutoffTs discoveredAt roomId)
      (t.censusRow_free userId service cutoffTs discoveredAt roomId)

/-- The statements of one call run in one transaction. -/
def recordPortalCensusRooms (t : RoomHistoryTable) (userId : Int) (service : String)
    (roomIds : List String) (cutoffTs discoveredAt : Int) : RoomHistoryTable :=
  roomIds.foldl (recordPortalCensusRoom userId service cutoffTs discoveredAt) t

def recordServerCensusRoom (userId : Int) (service : String) (cutoffTs discoveredAt : Int)
    (t : RoomHistoryTable) (roomId : String) : RoomHistoryTable :=
  if t.rows.any (sameTarget userId service roomId) then t
  else
    t.insert (t.censusRow userId service cutoffTs discoveredAt roomId)
      (t.censusRow_free userId service cutoffTs discoveredAt roomId)

def recordServerCensusRoomsOnce (t : RoomHistoryTable) (userId : Int) (service : String)
    (roomIds : List String) (cutoffTs discoveredAt : Int) : RoomHistoryTable :=
  roomIds.foldl (recordServerCensusRoom userId service cutoffTs discoveredAt) t

/-! ## Selections -/

def activeRooms (t : RoomHistoryTable) : List String :=
  (t.rows.filter (fun r => r.status = .submitted)).map RoomHistoryPurge.roomId

/-- `busyRooms` are the rooms with an event row that is being ingested, blocked, attempted
or submitted. -/
def listDueRoomHistoryPurges (t : RoomHistoryTable) (busyRooms : List String) (limit : Nat) :
    List RoomHistoryPurge :=
  (orderBy (fun r s => r.updatedAt ≤ s.updatedAt)
    (firstPerGroup RoomHistoryPurge.roomId
      (orderBy
        (fun r s => s.cutoffTs < r.cutoffTs ∨ (s.cutoffTs = r.cutoffTs ∧ r.updatedAt ≤ s.updatedAt))
        (t.rows.filter (fun r =>
          r.isDue && !t.activeRooms.contains r.roomId && !busyRooms.contains r.roomId))))).take limit

def listSubmittedRoomHistoryPurges (t : RoomHistoryTable) (limit : Nat) : List RoomHistoryPurge :=
  (orderBy (fun r s => r.updatedAt ≤ s.updatedAt)
    (t.rows.filter (fun r => r.status = .submitted))).take limit

/-! ## The life of a submission -/

def recordRoomHistoryAttempt (t : RoomHistoryTable) (now id attempt : Int) : RoomHistoryTable :=
  t.updateWhere (fun r => r.id = id) (RoomHistoryPurge.startAttempt now attempt) (fun _ => rfl)

def recordRoomHistorySubmitted (t : RoomHistoryTable) (now id attempt cutoffTs : Int)
    (purgeId : String) : RoomHistoryTable :=
  t.updateWhere (fun r => r.id = id) (RoomHistoryPurge.submit now attempt cutoffTs purgeId)
    (fun _ => rfl)

/-- Complete every row of the room whose cutoff the finished submission covers. -/
def recordRoomHistorySucceeded (t : RoomHistoryTable) (now id : Int) : RoomHistoryTable :=
  match t.find? id with
  | none => t
  | some completed =>
      t.updateWhere
        (RoomHistoryPurge.coveredBy completed.roomId (coalesce completed.submittedCutoffTs))
        (RoomHistoryPurge.succeed now) (fun _ => rfl)

def recordRoomHistoryNoopSucceeded (t : RoomHistoryTable) (now id attempt cutoffTs : Int) :
    RoomHistoryTable :=
  match t.find? id with
  | none => t
  | some completed =>
      t.updateWhere (RoomHistoryPurge.coveredBy completed.roomId cutoffTs)
        (RoomHistoryPurge.succeedNoop now attempt cutoffTs) (fun _ => rfl)

def recordRoomHistoryFailure (t : RoomHistoryTable) (now id attempt maxAttempts : Int)
    (error : String) : RoomHistoryTable :=
  t.updateWhere (fun r => r.id = id) (RoomHistoryPurge.fail now attempt maxAttempts error)
    (fun _ => rfl)

def exhaustedIds (t : RoomHistoryTable) (cutoff : Int) (limit : Nat) : List Int :=
  ((orderBy (fun r s => r.updatedAt ≤ s.updatedAt)
    (t.rows.filter (fun r => decide (r.status = .exhausted) && decide (r.updatedAt ≤ cutoff)))).take
      limit).map RoomHistoryPurge.id

def requeueExhaustedRoomHistory (t : RoomHistoryTable) (now cutoff : Int) (limit : Nat) :
    RoomHistoryTable :=
  t.updateWhere (fun r => (t.exhaustedIds cutoff limit).contains r.id)
    (RoomHistoryPurge.requeue now) (fun _ => rfl)

/-! ## What the selections return -/

theorem listSubmitted_spec {t : RoomHistoryTable} {limit : Nat} {r : RoomHistoryPurge}
    (h : r ∈ t.listSubmittedRoomHistoryPurges limit) : r ∈ t ∧ r.status = .submitted := by
  have hmem := List.mem_of_mem_take h
  rw [mem_orderBy, List.mem_filter] at hmem
  simpa using hmem

theorem mem_activeRooms {t : RoomHistoryTable} {room : String} :
    room ∈ t.activeRooms ↔ ∃ r ∈ t, r.status = .submitted ∧ r.roomId = room := by
  simp [activeRooms, and_assoc]

/-- A due room-history purge is a due row of the table whose room is not busy and has no
submitted room-history purge. -/
theorem listDue_spec {t : RoomHistoryTable} {busy : List String} {limit : Nat}
    {r : RoomHistoryPurge} (h : r ∈ t.listDueRoomHistoryPurges busy limit) :
    r ∈ t ∧ r.isDue = true ∧ r.roomId ∉ t.activeRooms ∧ r.roomId ∉ busy := by
  have hmem := List.mem_of_mem_take h
  rw [mem_orderBy] at hmem
  have hrow := mem_of_mem_firstPerGroup hmem
  rw [mem_orderBy, List.mem_filter] at hrow
  simpa [and_assoc] using hrow

theorem listDue_nodup (t : RoomHistoryTable) (busy : List String) (limit : Nat) :
    ((t.listDueRoomHistoryPurges busy limit).map RoomHistoryPurge.roomId).Nodup := by
  refine List.Nodup.sublist ((List.take_sublist _ _).map _) ?_
  refine ((List.perm_insertionSort _ _).map _).nodup_iff.mpr ?_
  exact firstPerGroup_nodup _

theorem listDue_length_le (t : RoomHistoryTable) (busy : List String) (limit : Nat) :
    (t.listDueRoomHistoryPurges busy limit).length ≤ limit :=
  List.length_take_le _ _

end RoomHistoryTable

/-- The rooms whose event rows keep a room-history purge from being submitted. -/
def EventTable.busyRooms (t : EventTable) : List String :=
  (t.rows.filter (fun e =>
    match e.status with
    | .ingesting | .ingestFailed | .purgeAttempting | .purgeSubmitted => true
    | _ => false)).map CleanupEvent.roomId

end Lightfriend.Purge
