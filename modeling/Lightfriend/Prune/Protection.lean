import Lightfriend.Prune.Audit

/-! # What the pruning must keep

The events a retained state diff names, and those that authorise them, keep
every payload they had. If one of them has none, nothing is deleted.
-/

namespace Lightfriend.Prune

/-- `authEvent` authorises `eventId`. An event stored as a state event is read as one; of any
other event every payload counts. -/
def AuthEdge (fromSlice : JsonReader) (db : Database) (eventId authEvent : String) : Prop :=
  (∃ metadata, StatePayload fromSlice db eventId metadata ∧ authEvent ∈ metadata.authEvents) ∨
  (∀ metadata, ¬ StatePayload fromSlice db eventId metadata) ∧
    ∃ source value, HasPayload fromSlice db eventId source value ∧
      authEvent ∈ pduAuthEvents fromSlice value

/-- A retained state diff names the event. -/
def Referenced (db : Database) (eventId : String) : Prop :=
  ∃ row ∈ db .shortstatehashStatediff, ∃ diff, parseStateDiff row.2 = .ok diff ∧
    ∃ shortId ∈ diff.references, ∃ value, (toBeBytes shortId, value) ∈ db .shorteventidEventid ∧
      fromUtf8 value = some eventId

/-- Named by a diff that is retained in `after`, or reached from such an event through the
payloads of `before`. -/
def Protected (fromSlice : JsonReader) (before after : Database) (eventId : String) : Prop :=
  ∃ referenced, Referenced after referenced ∧
    Relation.ReflTransGen (AuthEdge fromSlice before) referenced eventId

/-- The column families that hold payloads and the keys to them. -/
def payloadColumns : List Column :=
  [.pduidPdu, .eventidPduid, .eventidOutlierpdu, .eventidOriginalpdu, .roomidTscountPducount]

/-! ## Repair -/

theorem repair_cf {db repaired : Database} {stateEvents : StateEvents} {hashes : List Nat}
    {repair : StateReferenceRepair}
    (h : repairDanglingStateReferences db stateEvents hashes = .ok (repaired, repair)) {cf : Column}
    (hcf : cf ≠ .shortstatehashStatediff) : repaired cf = db cf := by
  unfold repairDanglingStateReferences at h
  simp only [bind_eq_ok] at h
  obtain ⟨diffs, _, dangling, _, h⟩ := h
  split at h
  · cases h
    rfl
  · rw [bind_eq_ok] at h
    obtain ⟨_, _, h⟩ := h
    cases h
    refine Database.write_of_column (fun op hop => ?_)
    obtain ⟨row, _, rfl⟩ := List.mem_map.mp hop
    exact Ne.symm hcf

/-! ## Decision -/

section Decision

variable {fromSlice : JsonReader} {db repaired : Database} {audit : PruneAudit}
  {cutoffMillis : Nat} {decision : PruneDecision}

theorem mem_readStateDiffs {what : String} {diffs : List (Nat × StateDiff)}
    (h : readStateDiffs what db = .ok diffs) {row : Bytes × Bytes}
    (hrow : row ∈ db .shortstatehashStatediff) {diff : StateDiff}
    (hdiff : parseStateDiff row.2 = .ok diff) : ∃ hash, (hash, diff) ∈ diffs := by
  obtain ⟨entry, hentry, hread⟩ := mem_of_mapM_eq_ok h hrow
  simp only [bind_eq_ok, withContext_eq_ok] at hread
  obtain ⟨hash, _, parsed, hparsed, hread⟩ := hread
  cases hread
  rw [hdiff] at hparsed
  cases hparsed
  exact ⟨hash, hentry⟩

theorem mem_loadStateEventIds {shortIds : List Nat} {eventIds : List String}
    (h : loadStateEventIds db shortIds = .ok eventIds) {shortId : Nat} (hshort : shortId ∈ shortIds)
    {value : Bytes} (hvalue : (toBeBytes shortId, value) ∈ db .shorteventidEventid)
    {eventId : String} (hutf8 : fromUtf8 value = some eventId) : eventId ∈ eventIds := by
  unfold loadStateEventIds at h
  rw [bind_eq_ok] at h
  obtain ⟨loaded, hloaded, h⟩ := h
  cases h
  obtain ⟨found, hfound, hload⟩ := mem_of_mapM_eq_ok hloaded hshort
  unfold loadStateEventId resolveShortEventId at hload
  rw [Database.getCf_eq_some_iff.mpr hvalue] at hload
  simp only [orContext, bind_eq_ok] at hload
  obtain ⟨resolved, ⟨bytes, hbytes, hresolved⟩, hload⟩ := hload
  cases hbytes
  rw [hutf8] at hresolved
  cases hresolved
  split at hload
  · cases hload
    exact List.mem_dedup.mpr hfound
  · cases hload

/-- Every event named by a retained diff is among the roots of the closure. -/
theorem mem_retained {shortIds : List Nat} {count : Nat} {eventIds : List String}
    (hshort : loadRetainedShortEventIds db = .ok (shortIds, count))
    (hids : loadStateEventIds db shortIds = .ok eventIds) {eventId : String}
    (h : Referenced db eventId) : eventId ∈ eventIds := by
  obtain ⟨row, hrow, diff, hdiff, shortId, href, value, hvalue, hutf8⟩ := h
  unfold loadRetainedShortEventIds at hshort
  rw [bind_eq_ok] at hshort
  obtain ⟨diffs, hdiffs, hshort⟩ := hshort
  cases hshort
  obtain ⟨hash, hmem⟩ := mem_readStateDiffs hdiffs hrow hdiff
  refine mem_loadStateEventIds hids ?_ hvalue hutf8
  exact List.mem_dedup.mpr (List.mem_flatMap.mpr ⟨(hash, diff), hmem, href⟩)

theorem mem_applyDeletionPlan {records : StateEvents} {candidates : List String}
    {batch : WriteBatch} (h : applyDeletionPlan records candidates = .ok batch) {op : BatchOp}
    (hop : op ∈ batch) :
    ∃ r ∈ records, r.eventId ∈ candidates ∧ op ∈ r.deletions r.eventId := by
  unfold applyDeletionPlan at h
  rw [bind_eq_ok] at h
  obtain ⟨deletions, hdeletions, h⟩ := h
  cases h
  obtain ⟨ops, hops, hop⟩ := List.mem_flatten.mp hop
  obtain ⟨eventId, heventId, hread⟩ := exists_of_mapM_eq_ok hdeletions hops
  unfold findCandidate at hread
  simp only [bind_eq_ok, orContext_eq_ok] at hread
  obtain ⟨r, hr, hread⟩ := hread
  cases hread
  obtain ⟨hmem, rfl⟩ := Table.find?_eq_some_iff.mp hr
  exact ⟨r, hmem, heventId, hop⟩

/-- What is known of the batch a successful run writes. -/
structure Decided (db : Database) (audit : PruneAudit) (decision : PruneDecision) : Prop where
  roots : ∀ eventId, Referenced db eventId → eventId ∈ decision.retainedStateEventIds
  closure : (protectedAuthClosureAllowingMissing decision.retainedStateEventIds
    (metadataMap audit.stateEvents)).1 = decision.protectedEvents
  missing : (protectedAuthClosureAllowingMissing decision.retainedStateEventIds
    (metadataMap audit.stateEvents)).2 = decision.missingAuthEvents
  spared : ∀ eventId ∈ decision.candidates, eventId ∉ decision.protectedEvents
  halted : decision.missingAuthEvents ≠ [] → decision.candidates = []
  batch : ∀ op ∈ decision.batch, ∃ r ∈ audit.stateEvents, r.eventId ∈ decision.candidates ∧
    op ∈ r.deletions r.eventId

theorem decideDeletions_spec (h : decideDeletions db audit cutoffMillis = .ok decision) :
    Decided db audit decision := by
  unfold decideDeletions at h
  simp only [bind_eq_ok] at h
  obtain ⟨currentShort, _, current, _, ⟨shortIds, count⟩, hshort, retained, hretained, h⟩ := h
  obtain ⟨plan, _, batch, hbatch, h⟩ := h
  cases h
  constructor
  · exact fun eventId href => mem_retained hshort hretained href
  · rfl
  · rfl
  · intro eventId hmem
    simp only [pruneCandidates] at hmem
    split at hmem
    · obtain ⟨r, hr, rfl⟩ := List.mem_map.mp hmem
      have hcandidate := (List.mem_filter.mp hr).2
      simp only [isHistoricalStateCandidate, Bool.and_eq_true, Bool.not_eq_true',
        List.contains_eq_mem, decide_eq_false_iff_not] at hcandidate
      exact hcandidate.2
    · cases hmem
  · intro hmissing
    simp only [pruneCandidates]
    rw [if_neg]
    rw [List.isEmpty_iff]
    exact hmissing
  · exact fun op hop => mem_applyDeletionPlan hbatch hop

end Decision

/-! ## The closure over the database -/

section Closure

variable {fromSlice : JsonReader} {db after : Database} {audit : PruneAudit}
  {decision : PruneDecision}

theorem record_of_authLookup {stateEvents : StateEvents} {eventId : String}
    {authEvents : List String} (h : authLookup (metadataMap stateEvents) eventId = some authEvents) :
    ∃ r ∈ stateEvents, r.eventId = eventId ∧ r.metadata.authEvents = authEvents := by
  obtain ⟨metadata, hfind, rfl⟩ := Option.map_eq_some_iff.mp h
  obtain ⟨r, hr, rfl⟩ := List.mem_map.mp (List.mem_of_find?_eq_some hfind)
  have hid : r.metadata.eventId = eventId := by simpa using List.find?_some hfind
  exact ⟨r, hr, hid, rfl⟩

theorem Decided.mem_protected_iff (h : Decided after audit decision) {eventId : String} :
    eventId ∈ decision.protectedEvents ↔ Worklist.Reach
      (authLookup (metadataMap audit.stateEvents)) decision.retainedStateEventIds eventId := by
  rw [← h.closure]
  exact Prune.mem_protected_iff

theorem Decided.mem_missing_iff (h : Decided after audit decision) {eventId : String} :
    eventId ∈ decision.missingAuthEvents ↔
      eventId ∈ decision.protectedEvents ∧
        authLookup (metadataMap audit.stateEvents) eventId = none := by
  rw [← h.missing, h.mem_protected_iff]
  exact Prune.mem_missing_iff

/-- With no payload missing, every protected event is in the closure the run computed. -/
theorem Decided.mem_protected (h : Decided after audit decision)
    (haudit : auditDatabase fromSlice db = .ok audit) (hmissing : decision.missingAuthEvents = [])
    {eventId : String} (hprotected : Protected fromSlice db after eventId) :
    eventId ∈ decision.protectedEvents := by
  obtain ⟨root, hroot, hpath⟩ := hprotected
  induction hpath with
  | refl => exact h.mem_protected_iff.2 ⟨root, h.roots root hroot, .refl⟩
  | @tail middle last _ hedge ih =>
      cases hlookup : authLookup (metadataMap audit.stateEvents) middle with
      | none =>
          have hmem := h.mem_missing_iff.2 ⟨ih, hlookup⟩
          rw [hmissing] at hmem
          cases hmem
      | some authEvents =>
          obtain ⟨r, hr, hid, hauth⟩ := record_of_authLookup hlookup
          rcases hedge with ⟨metadata, hpayload, hmem⟩ | ⟨hnone, _⟩
          · obtain ⟨other, hother, hotherId, hotherAuth⟩ := record_of_statePayload haudit hpayload
            have hsame := Table.eq_of_key_eq hother hr (hotherId.trans hid.symm)
            rw [← hotherAuth, hsame, hauth] at hmem
            exact h.mem_protected_iff.2
              ((h.mem_protected_iff.1 ih).edge ⟨authEvents, hlookup, hmem⟩)
          · obtain ⟨metadata, hpayload⟩ := statePayload_of_record haudit hr
            rw [hid] at hpayload
            exact absurd hpayload (hnone metadata)

/-- A protected event that is not stored as a state event is missing. -/
theorem Decided.missing_ne_nil (h : Decided after audit decision)
    (haudit : auditDatabase fromSlice db = .ok audit) {eventId : String}
    (hprotected : Protected fromSlice db after eventId)
    (hnone : ∀ metadata, ¬ StatePayload fromSlice db eventId metadata) :
    decision.missingAuthEvents ≠ [] := by
  intro hmissing
  have hmem := h.mem_protected haudit hmissing hprotected
  cases hlookup : authLookup (metadataMap audit.stateEvents) eventId with
  | none =>
      have hin := h.mem_missing_iff.2 ⟨hmem, hlookup⟩
      rw [hmissing] at hin
      cases hin
  | some authEvents =>
      obtain ⟨r, hr, hid, _⟩ := record_of_authLookup hlookup
      obtain ⟨metadata, hpayload⟩ := statePayload_of_record haudit hr
      exact hnone metadata (hid ▸ hpayload)

end Closure

/-! ## Deletion -/

section Deletion

variable {fromSlice : JsonReader} {db after : Database} {audit : PruneAudit}
  {decision : PruneDecision}

theorem StateEventRecord.mem_deletions {r : StateEventRecord} {op : BatchOp}
    (h : op ∈ r.deletions r.eventId) :
    (∃ location, r.timeline = some location ∧ (op = .delete .pduidPdu location.pduKey ∨
        op = .delete .eventidPduid (asBytes r.eventId) ∨
        op = .delete .roomidTscountPducount location.indexKey)) ∨
      op = .delete .eventidOutlierpdu (asBytes r.eventId) ∨
        op = .delete .eventidOriginalpdu (asBytes r.eventId) := by
  unfold StateEventRecord.deletions at h
  rcases List.mem_append.mp h with h | h
  · rcases List.mem_append.mp h with h | h
    · cases htimeline : r.timeline with
      | none => simp [htimeline] at h
      | some location =>
          rw [htimeline] at h
          simp only [List.mem_cons, List.not_mem_nil, or_false] at h
          exact Or.inl ⟨location, rfl, h⟩
    · split at h
      · exact Or.inr (Or.inl (List.mem_singleton.mp h))
      · cases h
  · exact Or.inr (Or.inr (List.mem_singleton.mp h))

theorem Decided.deletes (h : Decided after audit decision) :
    ∀ op ∈ decision.batch, ∃ cf key, op = .delete cf key := by
  intro op hop
  obtain ⟨r, _, _, hmem⟩ := h.batch op hop
  rcases StateEventRecord.mem_deletions hmem with ⟨_, _, rfl | rfl | rfl⟩ | rfl | rfl <;>
    exact ⟨_, _, rfl⟩

/-- The batch deletes payloads only, no state diff and no short id. -/
theorem Decided.columns (h : Decided after audit decision) :
    ∀ op ∈ decision.batch, op.column ∈ payloadColumns := by
  intro op hop
  obtain ⟨r, _, _, hmem⟩ := h.batch op hop
  rcases StateEventRecord.mem_deletions hmem with ⟨_, _, rfl | rfl | rfl⟩ | rfl | rfl <;>
    simp [BatchOp.column, payloadColumns]

theorem Decided.write_cf (h : Decided after audit decision) (cf : Column)
    (hcf : cf ∉ payloadColumns) : after.write decision.batch cf = after cf :=
  Database.write_of_column (fun op hop heq => hcf (heq ▸ h.columns op hop))

/-- A payload of an event outside the candidates survives the batch. -/
theorem Decided.hasPayload (h : Decided after audit decision)
    (haudit : auditDatabase fromSlice db = .ok audit)
    (hsame : ∀ cf ∈ payloadColumns, after cf = db cf) {eventId : String}
    (hspared : eventId ∉ decision.candidates) {source : PayloadSource} {value : Bytes}
    (hpayload : HasPayload fromSlice db eventId source value) :
    HasPayload fromSlice (after.write decision.batch) eventId source value := by
  have hkeep : ∀ cf ∈ payloadColumns, ∀ row ∈ db cf, BatchOp.delete cf row.1 ∉ decision.batch →
      row ∈ after.write decision.batch cf := by
    intro cf hcf row hrow hnot
    rw [Database.mem_write_deletes h.deletes, hsame cf hcf]
    exact ⟨hrow, hnot⟩
  have hkey : ∀ cf, (cf = .eventidOutlierpdu ∨ cf = .eventidOriginalpdu) →
      BatchOp.delete cf (asBytes eventId) ∉ decision.batch := by
    intro cf hcf hop
    obtain ⟨r, _, hcandidate, hmem⟩ := h.batch _ hop
    rcases StateEventRecord.mem_deletions hmem with ⟨_, _, heq | heq | heq⟩ | heq | heq
    · have hcolumn : cf = .pduidPdu := congrArg BatchOp.column heq
      simp [hcolumn] at hcf
    · have hcolumn : cf = .eventidPduid := congrArg BatchOp.column heq
      simp [hcolumn] at hcf
    · have hcolumn : cf = .roomidTscountPducount := congrArg BatchOp.column heq
      simp [hcolumn] at hcf
    · injection heq with _ hbytes
      exact hspared (asBytes_inj hbytes ▸ hcandidate)
    · injection heq with _ hbytes
      exact hspared (asBytes_inj hbytes ▸ hcandidate)
  cases hpayload with
  | @timeline key value hrow hid =>
      refine .timeline (hkeep .pduidPdu (by simp [payloadColumns]) _ hrow ?_) hid
      intro hop
      obtain ⟨r, hr, hcandidate, hmem⟩ := h.batch _ hop
      rcases StateEventRecord.mem_deletions hmem with ⟨location, htimeline, heq | heq | heq⟩ |
        heq | heq
      · injection heq with _ hbytes
        obtain ⟨other, hother, hparse⟩ := (auditDatabase_scanned haudit).located r hr location htimeline
        rw [← hbytes] at hother
        have hvalue := congrArg Prod.snd (Table.eq_of_key_eq (t := db .pduidPdu) hother hrow rfl)
        have hrid := parseStateEventMetadata_spec hparse
        change other = value at hvalue
        rw [hvalue, hid] at hrid
        exact hspared (Option.some.inj hrid ▸ hcandidate)
      · cases heq
      · cases heq
      · cases heq
      · cases heq
  | outlier hrow =>
      exact .outlier (hkeep .eventidOutlierpdu (by simp [payloadColumns]) _ hrow
        (hkey _ (Or.inl rfl)))
  | original hrow =>
      exact .original (hkeep .eventidOriginalpdu (by simp [payloadColumns]) _ hrow
        (hkey _ (Or.inr rfl)))

end Deletion

/-! ## The run -/

section Run

variable {fromSlice : JsonReader} {startedAtEpoch retentionSecs : Nat} {db : Database}

theorem prune_spec {status : PruneStatus}
    (h : (prune fromSlice startedAtEpoch retentionSecs db).2 = .ok status) :
    ∃ audit repaired decision, auditDatabase fromSlice db = .ok audit ∧
      (∀ cf ≠ Column.shortstatehashStatediff, repaired cf = db cf) ∧
      Decided repaired audit decision ∧
      (prune fromSlice startedAtEpoch retentionSecs db).1 = repaired.write decision.batch := by
  unfold prune at h ⊢
  split at h
  · cases h
  next audit haudit =>
    split at h
    · cases h
    next repaired repair hrepair =>
      split at h
      · cases h
      next decision hdecision =>
        refine ⟨audit, repaired, decision, haudit, fun cf hcf => repair_cf hrepair hcf,
          decideDeletions_spec hdecision, rfl⟩

/-- The diffs and the short ids a successful run leaves are the repaired ones. -/
theorem Decided.protected_iff {repaired : Database} {audit : PruneAudit}
    {decision : PruneDecision} (h : Decided repaired audit decision) {eventId : String} :
    Protected fromSlice db (repaired.write decision.batch) eventId ↔
      Protected fromSlice db repaired eventId := by
  unfold Protected Referenced
  rw [h.write_cf .shortstatehashStatediff (by simp [payloadColumns]),
    h.write_cf .shorteventidEventid (by simp [payloadColumns])]

/-- A successful run keeps every payload of every event that a retained diff names or that
authorises such an event; and when one of these events is not stored as a state event, in
particular when it has no payload, the run deletes no payload at all. -/
theorem prune_keeps_protected {status : PruneStatus}
    (h : (prune fromSlice startedAtEpoch retentionSecs db).2 = .ok status) :
    (∀ eventId,
      Protected fromSlice db (prune fromSlice startedAtEpoch retentionSecs db).1 eventId →
        ∀ source value, HasPayload fromSlice db eventId source value →
          HasPayload fromSlice (prune fromSlice startedAtEpoch retentionSecs db).1 eventId source
            value) ∧
    ((∃ eventId,
      Protected fromSlice db (prune fromSlice startedAtEpoch retentionSecs db).1 eventId ∧
        ∀ metadata, ¬ StatePayload fromSlice db eventId metadata) →
      ∀ cf ∈ payloadColumns, (prune fromSlice startedAtEpoch retentionSecs db).1 cf = db cf) := by
  obtain ⟨audit, repaired, decision, haudit, hrepaired, hdecided, hresult⟩ := prune_spec h
  have hsame : ∀ cf ∈ payloadColumns, repaired cf = db cf := by
    intro cf hcf
    refine hrepaired cf (fun heq => ?_)
    rw [heq] at hcf
    simp [payloadColumns] at hcf
  rw [hresult]
  constructor
  · intro eventId hprotected source value hpayload
    refine hdecided.hasPayload haudit hsame (fun hcandidate => ?_) hpayload
    by_cases hmissing : decision.missingAuthEvents = []
    · exact hdecided.spared eventId hcandidate
        (hdecided.mem_protected haudit hmissing (hdecided.protected_iff.1 hprotected))
    · rw [hdecided.halted hmissing] at hcandidate
      cases hcandidate
  · intro hexists cf hcf
    obtain ⟨eventId, hprotected, hnone⟩ := hexists
    have hhalted := hdecided.halted
      (hdecided.missing_ne_nil haudit (hdecided.protected_iff.1 hprotected) hnone)
    have hempty : decision.batch = [] := by
      refine List.eq_nil_iff_forall_not_mem.mpr (fun op hop => ?_)
      obtain ⟨r, _, hcandidate, _⟩ := hdecided.batch op hop
      rw [hhalted] at hcandidate
      cases hcandidate
    rw [hempty]
    exact hsame cf hcf

end Run

/-! ## A small database -/

namespace PruneExample

def stateEvent (eventId : String) (authEvents : List String) : Json :=
  .object [("state_key", .string ""), ("event_id", .string eventId), ("room_id", .string "!r"),
    ("origin_server_ts", .number (some 5)), ("auth_events", .array (authEvents.map .string))]

/-- The three payloads of the timeline. -/
def reader : JsonReader := fun value =>
  if value = [1] then some (stateEvent "$a" ["$b"])
  else if value = [2] then some (stateEvent "$b" [])
  else if value = [3] then some (stateEvent "$c" [])
  else none

def pduKey (count : UInt8) : Bytes := List.replicate 15 0 ++ [count]

def column (rows : List (Bytes × Bytes)) (h : (rows.map Prod.fst).Nodup) : ColumnFamily := ⟨rows, h⟩

/-- One room, whose state is `$a`, authorised by `$b`; `$c` is historical. -/
def database : Database
  | .roomidShortstatehash => column [([33], toBeBytes 7)] (by decide)
  | .shortstatehashStatediff =>
      column [(toBeBytes 7, toBeBytes 0 ++ toBeBytes 1 ++ toBeBytes 9)] (by decide)
  | .shorteventidEventid => column [(toBeBytes 9, [36, 97])] (by decide)
  | .pduidPdu => column [(pduKey 1, [1]), (pduKey 2, [2]), (pduKey 3, [3])] (by decide)
  | .eventidPduid =>
      column [([36, 97], pduKey 1), ([36, 98], pduKey 2), ([36, 99], pduKey 3)] (by decide)
  | .eventidOutlierpdu => Table.empty
  | .eventidOriginalpdu => column [([36, 98], [4]), ([36, 99], [5])] (by decide)
  | .roomidTscountPducount =>
      column [(timelineIndexKey "!r" 5 (toBeBytes 3), toBeBytes 3)] (by decide)

def pruned : Database := (prune reader 100 60 database).1

end PruneExample

open PruneExample in
theorem prune_keeps_authorising_event :
    HasPayload reader pruned "$b" (.timeline (pduKey 2)) [2] ∧
      HasPayload reader pruned "$b" .original [4] ∧
      pruned.getCf .pduidPdu (pduKey 3) = none := by
  have hok : ((prune reader 100 60 database).2.toOption).isSome = true := by decide
  obtain ⟨status, hstatus⟩ := Option.isSome_iff_exists.mp hok
  have hrun : (prune reader 100 60 database).2 = .ok status := by
    cases hresult : (prune reader 100 60 database).2 with
    | ok other => simpa [hresult, Except.toOption] using hstatus
    | error chain => simp [hresult, Except.toOption] at hstatus
  have hedge : AuthEdge reader database "$a" "$b" := by
    refine Or.inl ⟨⟨"$a", some "!r", 5, ["$b"]⟩, ?_, by decide⟩
    have hrow : (pduKey 1, [1]) ∈ database .pduidPdu := by decide
    exact .timeline hrow rfl rfl
  have hprotected : Protected reader database pruned "$b" := by
    refine ⟨"$a", ?_, .single hedge⟩
    exact ⟨(toBeBytes 7, toBeBytes 0 ++ toBeBytes 1 ++ toBeBytes 9), by decide, _, rfl, 9, by decide,
      [36, 97], by decide, by decide⟩
  have hkept := (prune_keeps_protected hrun).1 "$b" hprotected
  refine ⟨hkept _ _ ?_, hkept _ _ ?_, by decide⟩
  · exact .timeline (by decide) (by decide)
  · exact .original (by decide)

end Lightfriend.Prune
