import Lightfriend.Prune.Database
import Lightfriend.Prune.Pdu
import Lightfriend.Prune.StateDiff

/-! # Pruning historical state

The run audits every state event, repairs the state diffs that name an event
without payload, and then deletes the payloads of old state events, save those
that a retained state diff names or that authorise such an event.
-/

namespace Lightfriend.Prune

structure TimelineLocation where
  pduKey : Bytes
  indexKey : Bytes
  payloadBytes : Nat
deriving DecidableEq

structure StateEventRecord where
  metadata : StateEventMetadata
  timeline : Option TimelineLocation
  outlierPayloadBytes : Nat
deriving DecidableEq

def StateEventRecord.eventId (record : StateEventRecord) : String := record.metadata.eventId

abbrev StateEvents := Table StateEventRecord String StateEventRecord.eventId

/-! ## Scans -/

def scanTimelinePdu (fromSlice : JsonReader) (stateEvents : StateEvents) (row : Bytes × Bytes) :
    Result StateEvents := do
  let parsed ← withContext s!"invalid timeline PDU at key {hexEncode row.1}"
    (parseStateEventMetadata fromSlice row.2 none)
  match parsed with
  | none => .ok stateEvents
  | some metadata => do
      let roomId ← orContext "timeline state event has no room_id" metadata.roomId
      let count ← pduCountBytes row.1
      let record : StateEventRecord :=
        { metadata := metadata
          timeline := some
            { pduKey := row.1
              indexKey := timelineIndexKey roomId metadata.originServerTs count
              payloadBytes := row.2.length }
          outlierPayloadBytes := 0 }
      if h : stateEvents.HasKey record.eventId then
        bail s!"duplicate timeline state event id: {metadata.eventId}"
      else .ok (stateEvents.insert record h)

def scanTimelineStateEvents (fromSlice : JsonReader) (db : Database) : Result StateEvents :=
  (db .pduidPdu).rows.foldlM (scanTimelinePdu fromSlice) Table.empty

def scanOutlierPdu (fromSlice : JsonReader) (stateEvents : StateEvents) (row : Bytes × Bytes) :
    Result StateEvents := do
  let keyEventId ← orContext "outlier event id is not UTF-8" (fromUtf8 row.1)
  let parsed ← withContext s!"invalid outlier PDU for {keyEventId}"
    (parseStateEventMetadata fromSlice row.2 (some keyEventId))
  match parsed with
  | none => .ok stateEvents
  | some metadata =>
      if metadata.eventId ≠ keyEventId then
        bail s!"outlier key and payload event id disagree for {keyEventId}"
      else
        match stateEvents.find? keyEventId with
        | some existing =>
            if existing.metadata.originServerTs ≠ metadata.originServerTs ∨
                existing.metadata.authEvents ≠ metadata.authEvents then
              bail s!"timeline and outlier payloads disagree for {keyEventId}"
            else
              .ok (stateEvents.updateWhere (fun record => record.eventId = keyEventId)
                (fun record => { record with outlierPayloadBytes := row.2.length })
                (fun _ => rfl))
        | none =>
            .ok (stateEvents.insertOrIgnore
              { metadata := metadata, timeline := none, outlierPayloadBytes := row.2.length })

def scanOutlierStateEvents (fromSlice : JsonReader) (db : Database) (stateEvents : StateEvents) :
    Result StateEvents :=
  (db .eventidOutlierpdu).rows.foldlM (scanOutlierPdu fromSlice) stateEvents

def metadataMap (stateEvents : StateEvents) : List StateEventMetadata :=
  stateEvents.rows.map StateEventRecord.metadata

/-! ## State diffs -/

def eightBytes (message : String) (bytes : Bytes) : Result Nat :=
  if bytes.length = 8 then .ok (fromBeBytes bytes) else bail message

def loadCurrentStateHashes (db : Database) : Result (List Nat) :=
  (db .roomidShortstatehash).rows.mapM (fun row =>
    eightBytes "room current-state hash is not eight bytes" row.2)

/-- Every retained state diff with its hash; `what` names the key in an error. -/
def readStateDiffs (what : String) (db : Database) : Result (List (Nat × StateDiff)) :=
  (db .shortstatehashStatediff).rows.mapM (fun row => do
    let hash ← eightBytes s!"{what} key is not eight bytes: {hexEncode row.1}" row.1
    let diff ← withContext s!"invalid retained state diff {hash}" (parseStateDiff row.2)
    .ok (hash, diff))

/-- The event id behind a short id. -/
def resolveShortEventId (db : Database) (shortId : Nat) : Result String := do
  let value ← orContext s!"short event id {shortId} has no event id"
    (db.getCf .shorteventidEventid (toBeBytes shortId))
  orContext s!"event id for short id {shortId} is not UTF-8" (fromUtf8 value)

def loadStateEventId (db : Database) (shortId : Nat) : Result String := do
  let eventId ← resolveShortEventId db shortId
  if startsWithChar '$' eventId then .ok eventId
  else bail s!"event id for short id {shortId} is malformed"

def loadStateEventIds (db : Database) (shortEventIds : List Nat) : Result (List String) := do
  let eventIds ← shortEventIds.mapM (loadStateEventId db)
  .ok eventIds.dedup

/-- The ancestry of a state up to its root, the state itself first. -/
def stateChain (lookup : Nat → Result StateDiff) (cycle : String) :
    Nat → List Nat → Option Nat → Result (List StateDiff)
  | _, _, none => .ok []
  | 0, _, some hash => bail s!"{cycle} at hash {hash}"
  | fuel + 1, visited, some hash =>
      if visited.contains hash then bail s!"{cycle} at hash {hash}"
      else do
        let diff ← lookup hash
        let ancestors ← stateChain lookup cycle fuel (hash :: visited) diff.parent
        .ok (diff :: ancestors)

/-- The walk visits no hash twice, so it ends before its fuel does: `hashes` are those with a
diff, and `good` is what the hashes of a chain have in common. -/
theorem stateChain_fuel {lookup : Nat → Result StateDiff} {cycle : String} {good : Nat → Prop}
    {hashes : List Nat}
    (hlookup : ∀ hash diff, good hash → lookup hash = .ok diff →
      hash ∈ hashes ∧ ∀ parent, diff.parent = some parent → good parent)
    {fuel : Nat} {visited : List Nat} {cursor : Option Nat}
    (hcursor : ∀ hash, cursor = some hash → good hash)
    (hfuel : (hashes.filter (fun hash => hash ∉ visited)).length < fuel) (more : Nat) :
    stateChain lookup cycle (fuel + more) visited cursor =
      stateChain lookup cycle fuel visited cursor := by
  induction fuel generalizing visited cursor with
  | zero => omega
  | succ fuel ih =>
      rw [show fuel + 1 + more = (fuel + more) + 1 by omega]
      cases cursor with
      | none => rfl
      | some hash =>
          unfold stateChain
          split
          · rfl
          next hnew =>
            cases hdiff : lookup hash with
            | error chain => rfl
            | ok diff =>
                obtain ⟨hmem, hparent⟩ := hlookup hash diff (hcursor hash rfl) hdiff
                have hsub : hashes.filter (fun other => other ∉ hash :: visited) =
                    (hashes.filter (fun other => other ∉ visited)).filter
                      (fun other => other ≠ hash) := by
                  rw [List.filter_filter]
                  apply List.filter_congr
                  intro other _
                  simp [not_or]
                have hless : (hashes.filter (fun other => other ∉ hash :: visited)).length <
                    (hashes.filter (fun other => other ∉ visited)).length := by
                  rw [hsub]
                  refine List.length_filter_lt_length_iff_exists.mpr ⟨hash, ?_, by simp⟩
                  exact List.mem_filter.mpr ⟨hmem, by simpa using hnew⟩
                have hrest := @ih (hash :: visited) diff.parent hparent (by omega)
                simp only [bind, Except.bind]
                rw [hrest]

/-- One visit for each hash, and one to find the cycle. -/
def chainFuel (db : Database) : Nat := (db .shortstatehashStatediff).rows.length + 1

def loadStateDiff (db : Database) (hash : Nat) : Result StateDiff := do
  let value ← orContext s!"state diff {hash} is missing"
    (db.getCf .shortstatehashStatediff (toBeBytes hash))
  withContext s!"invalid state diff {hash}" (parseStateDiff value)

theorem loadStateDiff_mem {db : Database} {hash : Nat} {diff : StateDiff} (hhash : hash < 2 ^ 64)
    (h : loadStateDiff db hash = .ok diff) :
    hash ∈ (db .shortstatehashStatediff).rows.map (fun row => fromBeBytes row.1) ∧
      ∀ parent, diff.parent = some parent → parent < 2 ^ 64 := by
  unfold loadStateDiff at h
  simp only [bind_eq_ok, orContext_eq_ok, withContext_eq_ok] at h
  obtain ⟨value, hvalue, hparse⟩ := h
  have hrow := Database.getCf_eq_some_iff.mp hvalue
  constructor
  · exact List.mem_map.mpr ⟨(toBeBytes hash, value), hrow, fromBeBytes_toBeBytes hhash⟩
  · exact fun parent hparent => parseStateDiff_parent_lt hparse hparent

/-- The fuel given to the walk of a state of the database is enough. -/
theorem stateChain_loadStateDiff {db : Database} {cycle : String} {hash : Nat}
    (hhash : hash < 2 ^ 64) (more : Nat) :
    stateChain (loadStateDiff db) cycle (chainFuel db + more) [] (some hash) =
      stateChain (loadStateDiff db) cycle (chainFuel db) [] (some hash) := by
  refine stateChain_fuel (fun other diff hgood hdiff => loadStateDiff_mem hgood hdiff) ?_ ?_ more
  · intro other hother
    cases hother
    exact hhash
  · refine Nat.lt_succ_of_le (le_trans (List.length_filter_le _ _) ?_)
    rw [List.length_map]

def loadCurrentShortEventIds (db : Database) (currentStateHashes : List Nat) :
    Result (List Nat) := do
  let states ← currentStateHashes.mapM (fun hash => do
    let chain ← stateChain (loadStateDiff db) "cycle detected in state-diff ancestry"
      (chainFuel db) [] (some hash)
    .ok ((applyStateDiffChain chain.reverse).map shortEventId))
  .ok states.flatten.dedup

/-- The events of all retained diffs, and the number of diffs. -/
def loadRetainedShortEventIds (db : Database) : Result (List Nat × Nat) := do
  let diffs ← readStateDiffs "retained state-diff" db
  .ok ((diffs.flatMap (fun row => row.2.references)).dedup, diffs.length)

/-! ## Dangling references -/

structure StateReferenceRepair where
  danglingStateEventsRepaired : Nat := 0
  stateDiffReferencesRemoved : Nat := 0
  stateHashesRewritten : Nat := 0
deriving DecidableEq

def danglingShortIds (db : Database) (stateEvents : StateEvents) (shortEventIds : List Nat) :
    Result (List Nat) := do
  let resolved ← shortEventIds.mapM (fun shortId => do
    let eventId ← resolveShortEventId db shortId
    .ok (shortId, eventId))
  .ok ((resolved.filter (fun row => !decide (stateEvents.HasKey row.2))).map Prod.fst)

def StateDiff.retain (dangling : List Nat) (diff : StateDiff) : StateDiff :=
  { diff with
    added := diff.added.filter (fun compressed => !dangling.contains (shortEventId compressed))
    removed := diff.removed.filter (fun compressed => !dangling.contains (shortEventId compressed)) }

def referencesRemoved (dangling : List Nat) (diff : StateDiff) : Nat :=
  diff.references.length - (diff.retain dangling).references.length

def verifyStateEvent (db : Database) (stateEvents : StateEvents) (compressed : CompressedStateEvent) :
    Result Unit := do
  let eventId ← resolveShortEventId db (shortEventId compressed)
  if stateEvents.HasKey eventId then .ok ()
  else bail s!"current state still references a missing payload: {eventId}"

def verifyCurrentStateAfterRepair (db : Database) (stateEvents : StateEvents)
    (diffs : List (Nat × StateDiff)) (currentStateHashes : List Nat) : Result Unit :=
  currentStateHashes.forM (fun hash => do
    let chain ← stateChain
      (fun hash => orContext s!"repaired state diff {hash} is missing" (diffs.lookup hash))
      "cycle detected while verifying repaired state" (diffs.length + 1) [] (some hash)
    (applyStateDiffChain chain.reverse).forM (verifyStateEvent db stateEvents))

def repairBatch (dangling : List Nat) (diffs : List (Nat × StateDiff)) : WriteBatch :=
  (diffs.filter (fun row => 0 < referencesRemoved dangling row.2)).map (fun row =>
    .put .shortstatehashStatediff (toBeBytes row.1) (serializeStateDiff (row.2.retain dangling)))

def repairDanglingStateReferences (db : Database) (stateEvents : StateEvents)
    (currentStateHashes : List Nat) : Result (Database × StateReferenceRepair) := do
  let diffs ← readStateDiffs "state-diff" db
  let dangling ← danglingShortIds db stateEvents
    (diffs.flatMap (fun row => row.2.references)).dedup
  if dangling.isEmpty then .ok (db, {})
  else do
    verifyCurrentStateAfterRepair db stateEvents
      (diffs.map (fun row => (row.1, row.2.retain dangling))) currentStateHashes
    .ok (db.write (repairBatch dangling diffs),
      { danglingStateEventsRepaired := dangling.length
        stateDiffReferencesRemoved := (diffs.map (fun row => referencesRemoved dangling row.2)).sum
        stateHashesRewritten := (repairBatch dangling diffs).length })

/-! ## Deletion -/

structure DeletionPlan where
  timelinePayloadsDeleted : Nat := 0
  outlierPayloadsDeleted : Nat := 0
  originalPayloadKeysDeleted : Nat := 0
  estimatedPayloadBytesDeleted : Nat := 0
deriving DecidableEq

def findCandidate (records : StateEvents) (eventId : String) : Result StateEventRecord :=
  orContext s!"candidate event disappeared from audit map: {eventId}" (records.find? eventId)

def verifyTimeline (db : Database) (eventId : String) (plan : DeletionPlan) :
    Option TimelineLocation → Result DeletionPlan
  | none => .ok plan
  | some timeline => do
      let mappedKey ← orContext s!"timeline mapping is missing for {eventId}"
        (db.getCf .eventidPduid (asBytes eventId))
      if mappedKey ≠ timeline.pduKey then
        bail s!"timeline mapping points at a different PDU for {eventId}"
      else do
        let count ← pduCountBytes timeline.pduKey
        let indexedCount ← orContext s!"timeline index is missing for {eventId}"
          (db.getCf .roomidTscountPducount timeline.indexKey)
        if indexedCount ≠ count then
          bail s!"timeline index points at a different PDU for {eventId}"
        else
          .ok { plan with
            timelinePayloadsDeleted := plan.timelinePayloadsDeleted + 1
            estimatedPayloadBytesDeleted :=
              plan.estimatedPayloadBytesDeleted + timeline.payloadBytes }

def verifyOutlier (db : Database) (eventId : String) (payloadBytes : Nat) (plan : DeletionPlan) :
    Result DeletionPlan :=
  if 0 < payloadBytes then
    if (db.getCf .eventidOutlierpdu (asBytes eventId)).isNone then
      bail s!"outlier payload is missing for {eventId}"
    else
      .ok { plan with
        outlierPayloadsDeleted := plan.outlierPayloadsDeleted + 1
        estimatedPayloadBytesDeleted := plan.estimatedPayloadBytesDeleted + payloadBytes }
  else .ok plan

def countOriginal (db : Database) (eventId : String) (plan : DeletionPlan) : DeletionPlan :=
  match db.getCf .eventidOriginalpdu (asBytes eventId) with
  | none => plan
  | some original =>
      { plan with
        originalPayloadKeysDeleted := plan.originalPayloadKeysDeleted + 1
        estimatedPayloadBytesDeleted := plan.estimatedPayloadBytesDeleted + original.length }

def verifyDeletionPlan (db : Database) (records : StateEvents) (candidates : List String) :
    Result DeletionPlan :=
  candidates.foldlM (fun plan eventId => do
    let record ← findCandidate records eventId
    let plan ← verifyTimeline db eventId plan record.timeline
    let plan ← verifyOutlier db eventId record.outlierPayloadBytes plan
    .ok (countOriginal db eventId plan)) {}

def StateEventRecord.deletions (eventId : String) (record : StateEventRecord) : WriteBatch :=
  (match record.timeline with
    | none => []
    | some timeline =>
        [.delete .pduidPdu timeline.pduKey, .delete .eventidPduid (asBytes eventId),
          .delete .roomidTscountPducount timeline.indexKey]) ++
  (if 0 < record.outlierPayloadBytes then [.delete .eventidOutlierpdu (asBytes eventId)] else []) ++
  [.delete .eventidOriginalpdu (asBytes eventId)]

def applyDeletionPlan (records : StateEvents) (candidates : List String) : Result WriteBatch := do
  let deletions ← candidates.mapM (fun eventId => do
    let record ← findCandidate records eventId
    .ok (record.deletions eventId))
  .ok deletions.flatten

/-! ## The run -/

structure PruneStatus where
  status : String
  startedAtEpoch : Nat
  cutoffEpochMillis : Nat
  retentionSecs : Nat
  roomsScanned : Nat
  stateHashesLoaded : Nat
  timelinePdusScanned : Nat
  outlierPdusScanned : Nat
  stateEventsScanned : Nat
  currentStateEventsPreserved : Nat
  retainedStateEventsPreserved : Nat
  authClosureEventsPreserved : Nat
  missingAuthEventPayloads : Nat
  danglingStateEventsRepaired : Nat
  stateDiffReferencesRemoved : Nat
  stateHashesRewritten : Nat
  historicalStateEventsDeleted : Nat
  timelinePayloadsDeleted : Nat
  outlierPayloadsDeleted : Nat
  originalPayloadKeysDeleted : Nat
  timelineIndexKeysDeleted : Nat
  estimatedPayloadBytesDeleted : Nat
deriving DecidableEq

def defaultRetentionSecs : Nat := 60

def cutoffEpochMillis (startedAtEpoch retentionSecs : Nat) : Nat :=
  saturatingMulU64 (startedAtEpoch - retentionSecs) 1000

/-- What the run has read when it starts to repair. -/
structure PruneAudit where
  currentStateHashes : List Nat
  stateEvents : StateEvents

def auditDatabase (fromSlice : JsonReader) (db : Database) : Result PruneAudit := do
  let currentStateHashes ← loadCurrentStateHashes db
  let timelineEvents ← scanTimelineStateEvents fromSlice db
  let stateEvents ← scanOutlierStateEvents fromSlice db timelineEvents
  .ok { currentStateHashes, stateEvents }

/-- What the run has decided when it starts to delete. -/
structure PruneDecision where
  currentStateEventIds : List String
  retainedStateEventIds : List String
  stateHashesLoaded : Nat
  protectedEvents : List String
  missingAuthEvents : List String
  candidates : List String
  plan : DeletionPlan
  batch : WriteBatch

/-- With a missing payload among the protected events nothing is deleted. -/
def pruneCandidates (stateEvents : StateEvents) (protectedEvents missingAuthEvents : List String)
    (cutoffMillis : Nat) : List String :=
  if missingAuthEvents.isEmpty then
    (stateEvents.rows.filter (fun record =>
      isHistoricalStateCandidate record.metadata protectedEvents cutoffMillis)).map
      StateEventRecord.eventId
  else []

def decideDeletions (db : Database) (audit : PruneAudit) (cutoffMillis : Nat) :
    Result PruneDecision := do
  let currentShortEventIds ← loadCurrentShortEventIds db audit.currentStateHashes
  let currentStateEventIds ← loadStateEventIds db currentShortEventIds
  let (retainedShortEventIds, stateHashesLoaded) ← loadRetainedShortEventIds db
  let retainedStateEventIds ← loadStateEventIds db retainedShortEventIds
  let (protectedEvents, missingAuthEvents) :=
    protectedAuthClosureAllowingMissing retainedStateEventIds (metadataMap audit.stateEvents)
  let candidates :=
    pruneCandidates audit.stateEvents protectedEvents missingAuthEvents cutoffMillis
  let plan ← verifyDeletionPlan db audit.stateEvents candidates
  let batch ← applyDeletionPlan audit.stateEvents candidates
  .ok
    { currentStateEventIds, retainedStateEventIds, stateHashesLoaded, protectedEvents,
      missingAuthEvents, candidates, plan, batch }

def pruneStatus (startedAtEpoch retentionSecs : Nat) (db : Database) (audit : PruneAudit)
    (repair : StateReferenceRepair) (decision : PruneDecision) : PruneStatus where
  status := "success"
  startedAtEpoch := startedAtEpoch
  cutoffEpochMillis := cutoffEpochMillis startedAtEpoch retentionSecs
  retentionSecs := retentionSecs
  roomsScanned := audit.currentStateHashes.length
  stateHashesLoaded := decision.stateHashesLoaded
  timelinePdusScanned := (db .pduidPdu).rows.length
  outlierPdusScanned := (db .eventidOutlierpdu).rows.length
  stateEventsScanned := audit.stateEvents.rows.length
  currentStateEventsPreserved := decision.currentStateEventIds.length
  retainedStateEventsPreserved := decision.retainedStateEventIds.length
  authClosureEventsPreserved :=
    decision.protectedEvents.length - decision.retainedStateEventIds.length
  missingAuthEventPayloads := decision.missingAuthEvents.length
  danglingStateEventsRepaired := repair.danglingStateEventsRepaired
  stateDiffReferencesRemoved := repair.stateDiffReferencesRemoved
  stateHashesRewritten := repair.stateHashesRewritten
  historicalStateEventsDeleted := decision.candidates.length
  timelinePayloadsDeleted := decision.plan.timelinePayloadsDeleted
  outlierPayloadsDeleted := decision.plan.outlierPayloadsDeleted
  originalPayloadKeysDeleted := decision.plan.originalPayloadKeysDeleted
  timelineIndexKeysDeleted := decision.plan.timelinePayloadsDeleted
  estimatedPayloadBytesDeleted := decision.plan.estimatedPayloadBytesDeleted

/-- The database after the run, and its result. A run that fails late has repaired already. -/
def prune (fromSlice : JsonReader) (startedAtEpoch retentionSecs : Nat) (db : Database) :
    Database × Result PruneStatus :=
  match auditDatabase fromSlice db with
  | .error chain => (db, .error chain)
  | .ok audit =>
      match repairDanglingStateReferences db audit.stateEvents audit.currentStateHashes with
      | .error chain => (db, .error chain)
      | .ok (repaired, repair) =>
          match decideDeletions repaired audit
              (cutoffEpochMillis startedAtEpoch retentionSecs) with
          | .error chain => (repaired, .error chain)
          | .ok decision =>
              (repaired.write decision.batch,
                .ok (pruneStatus startedAtEpoch retentionSecs db audit repair decision))

end Lightfriend.Prune
