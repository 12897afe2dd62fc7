import Lightfriend.Prune.History

/-! # The audit of the state events

Before anything is changed the run reads every event of the timeline and every
outlier. Its records are exactly the events stored as state events, each with
the authorising events its payloads name.
-/

namespace Lightfriend.Prune

/-! ## Payloads -/

inductive PayloadSource
  | timeline (key : Bytes)
  | outlier
  | original
deriving DecidableEq

/-- The payloads of an event: in the timeline, as an outlier, or in its original form. -/
inductive HasPayload (fromSlice : JsonReader) (db : Database) (eventId : String) :
    PayloadSource → Bytes → Prop
  | timeline {key value : Bytes} (h : (key, value) ∈ db .pduidPdu)
      (hid : pduEventId fromSlice value = some eventId) :
      HasPayload fromSlice db eventId (.timeline key) value
  | outlier {value : Bytes} (h : (asBytes eventId, value) ∈ db .eventidOutlierpdu) :
      HasPayload fromSlice db eventId .outlier value
  | original {value : Bytes} (h : (asBytes eventId, value) ∈ db .eventidOriginalpdu) :
      HasPayload fromSlice db eventId .original value

/-- A payload that makes the event a state event. -/
inductive StatePayload (fromSlice : JsonReader) (db : Database) (eventId : String) :
    StateEventMetadata → Prop
  | timeline {key value : Bytes} {metadata : StateEventMetadata} (h : (key, value) ∈ db .pduidPdu)
      (hparse : parseStateEventMetadata fromSlice value none = .ok (some metadata))
      (hid : metadata.eventId = eventId) : StatePayload fromSlice db eventId metadata
  | outlier {value : Bytes} {metadata : StateEventMetadata}
      (h : (asBytes eventId, value) ∈ db .eventidOutlierpdu)
      (hparse : parseStateEventMetadata fromSlice value (some eventId) = .ok (some metadata)) :
      StatePayload fromSlice db eventId metadata

/-! ## The scans -/

/-- The records after the given rows of the timeline and of the outliers. -/
structure Scanned (fromSlice : JsonReader) (timeline outliers : List (Bytes × Bytes))
    (stateEvents : StateEvents) : Prop where
  located : ∀ r ∈ stateEvents, ∀ loc, r.timeline = some loc → ∃ value,
    (loc.pduKey, value) ∈ timeline ∧
      parseStateEventMetadata fromSlice value none = .ok (some r.metadata)
  outlying : ∀ r ∈ stateEvents, r.timeline = none → ∃ key value metadata,
    (key, value) ∈ outliers ∧ fromUtf8 key = some r.eventId ∧
      parseStateEventMetadata fromSlice value (some r.eventId) = .ok (some metadata)
  timeline : ∀ row ∈ timeline, ∀ metadata,
    parseStateEventMetadata fromSlice row.2 none = .ok (some metadata) →
      ∃ r ∈ stateEvents, r.metadata = metadata
  outliers : ∀ row ∈ outliers, ∀ eventId metadata, fromUtf8 row.1 = some eventId →
    parseStateEventMetadata fromSlice row.2 (some eventId) = .ok (some metadata) →
      ∃ r ∈ stateEvents, r.eventId = eventId ∧ r.metadata.authEvents = metadata.authEvents

section Scans

variable {fromSlice : JsonReader} {stateEvents next : StateEvents} {row : Bytes × Bytes}

theorem scanTimelinePdu_spec (h : scanTimelinePdu fromSlice stateEvents row = .ok next) :
    (parseStateEventMetadata fromSlice row.2 none = .ok none ∧ next = stateEvents) ∨
    ∃ record location, parseStateEventMetadata fromSlice row.2 none = .ok (some record.metadata) ∧
      record.timeline = some location ∧ location.pduKey = row.1 ∧
        ∃ hfree, next = stateEvents.insert record hfree := by
  unfold scanTimelinePdu at h
  rw [bind_eq_ok] at h
  obtain ⟨parsed, hparse, h⟩ := h
  rw [withContext_eq_ok] at hparse
  cases parsed with
  | none =>
      cases h
      exact Or.inl ⟨hparse, rfl⟩
  | some metadata =>
      simp only [bind_eq_ok] at h
      obtain ⟨roomId, _, count, _, h⟩ := h
      split at h
      · cases h
      next hfree =>
        cases h
        exact Or.inr ⟨_, _, hparse, rfl, rfl, hfree, rfl⟩

theorem scanOutlierPdu_spec (h : scanOutlierPdu fromSlice stateEvents row = .ok next) :
    ∃ eventId, fromUtf8 row.1 = some eventId ∧
      ((parseStateEventMetadata fromSlice row.2 (some eventId) = .ok none ∧ next = stateEvents) ∨
      ∃ metadata, parseStateEventMetadata fromSlice row.2 (some eventId) = .ok (some metadata) ∧
        metadata.eventId = eventId ∧
        ((∃ existing ∈ stateEvents, existing.eventId = eventId ∧
            existing.metadata.authEvents = metadata.authEvents ∧
            ∀ r, r ∈ next ↔ ∃ old ∈ stateEvents, r = if old.eventId = eventId then
              { old with outlierPayloadBytes := row.2.length } else old) ∨
          ∃ record, record.metadata = metadata ∧ record.timeline = none ∧
            ∃ hfree, next = stateEvents.insert record hfree)) := by
  unfold scanOutlierPdu at h
  rw [bind_eq_ok] at h
  obtain ⟨eventId, hkey, h⟩ := h
  rw [orContext_eq_ok] at hkey
  refine ⟨eventId, hkey, ?_⟩
  rw [bind_eq_ok] at h
  obtain ⟨parsed, hparse, h⟩ := h
  rw [withContext_eq_ok] at hparse
  cases parsed with
  | none =>
      cases h
      exact Or.inl ⟨hparse, rfl⟩
  | some metadata =>
      refine Or.inr ⟨metadata, hparse, ?_⟩
      simp only at h
      split at h
      · cases h
      next hid =>
        refine ⟨not_not.mp hid, ?_⟩
        cases hfind : stateEvents.find? eventId with
        | some existing =>
            obtain ⟨hmem, heid⟩ := Table.find?_eq_some_iff.mp hfind
            simp only [hfind] at h
            split at h
            · cases h
            next hsame =>
              cases h
              have hkey : ∀ r : StateEventRecord, StateEventRecord.eventId
                  { r with outlierPayloadBytes := row.2.length } = r.eventId := fun _ => rfl
              refine Or.inl ⟨existing, hmem, heid, ?_, fun r => ?_⟩
              · exact not_not.mp (not_or.mp hsame).2
              · simp [Table.mem_updateWhere hkey]
        | none =>
            simp only [hfind] at h
            cases h
            have hfree : ¬ stateEvents.HasKey metadata.eventId := by
              rw [not_not.mp hid, Table.hasKey_iff]
              intro hex
              obtain ⟨r, hr, hrid⟩ := hex
              exact Table.find?_eq_none_iff.mp hfind r hr hrid
            let record : StateEventRecord :=
              { metadata := metadata, timeline := none, outlierPayloadBytes := row.2.length }
            exact Or.inr ⟨record, rfl, rfl, hfree, dif_neg hfree⟩

theorem Scanned.timelineStep {timeline outliers : List (Bytes × Bytes)}
    (h : Scanned fromSlice timeline outliers stateEvents)
    (hstep : scanTimelinePdu fromSlice stateEvents row = .ok next) :
    Scanned fromSlice (timeline ++ [row]) outliers next := by
  rcases scanTimelinePdu_spec hstep with ⟨hparse, rfl⟩ |
    ⟨record, location, hparse, hloc, hkey, hfree, rfl⟩
  · constructor
    · intro r hr loc hrloc
      obtain ⟨value, hmem, hvalue⟩ := h.located r hr loc hrloc
      exact ⟨value, List.mem_append_left _ hmem, hvalue⟩
    · exact h.outlying
    · intro other hother metadata hother'
      rcases List.mem_append.mp hother with hold | hnew
      · exact h.timeline other hold metadata hother'
      · rw [List.mem_singleton.mp hnew, hparse] at hother'
        cases hother'
    · exact h.outliers
  · constructor
    · intro r hr loc hrloc
      rcases Table.mem_insert.mp hr with hr | rfl
      · obtain ⟨value, hmem, hvalue⟩ := h.located r hr loc hrloc
        exact ⟨value, List.mem_append_left _ hmem, hvalue⟩
      · rw [hloc] at hrloc
        cases hrloc
        refine ⟨row.2, List.mem_append_right _ ?_, hparse⟩
        rw [hkey]
        exact List.mem_singleton.mpr rfl
    · intro r hr hnone
      rcases Table.mem_insert.mp hr with hr | rfl
      · exact h.outlying r hr hnone
      · rw [hloc] at hnone
        cases hnone
    · intro other hother metadata hother'
      rcases List.mem_append.mp hother with hold | hnew
      · obtain ⟨r, hr, hmeta⟩ := h.timeline other hold metadata hother'
        exact ⟨r, Table.mem_insert.mpr (Or.inl hr), hmeta⟩
      · rw [List.mem_singleton.mp hnew, hparse] at hother'
        cases hother'
        exact ⟨record, Table.mem_insert.mpr (Or.inr rfl), rfl⟩
    · intro other hother eventId metadata hid hother'
      obtain ⟨r, hr, hmeta⟩ := h.outliers other hother eventId metadata hid hother'
      exact ⟨r, Table.mem_insert.mpr (Or.inl hr), hmeta⟩

variable {timeline outliers : List (Bytes × Bytes)} {eventId : String}
  {metadata : StateEventMetadata}

/-- The outlier behind a record is among the rows that have been scanned by then. -/
theorem Scanned.outlying_append (h : Scanned fromSlice timeline outliers stateEvents)
    {r : StateEventRecord} (hr : r ∈ stateEvents) (hnone : r.timeline = none) :
    ∃ key value metadata, (key, value) ∈ outliers ++ [row] ∧ fromUtf8 key = some r.eventId ∧
      parseStateEventMetadata fromSlice value (some r.eventId) = .ok (some metadata) := by
  obtain ⟨key, value, metadata, hmem, hrest⟩ := h.outlying r hr hnone
  exact ⟨key, value, metadata, List.mem_append_left _ hmem, hrest⟩

/-- The records after one more outlier, where the ones before carry over and the row has its
own. -/
theorem Scanned.outliers_append (h : Scanned fromSlice timeline outliers stateEvents)
    (hkeep : ∀ old ∈ stateEvents, ∃ r ∈ next, r.metadata = old.metadata)
    (hrow : ∀ eventId metadata, fromUtf8 row.1 = some eventId →
      parseStateEventMetadata fromSlice row.2 (some eventId) = .ok (some metadata) →
        ∃ r ∈ next, r.eventId = eventId ∧ r.metadata.authEvents = metadata.authEvents) :
    ∀ other ∈ outliers ++ [row], ∀ eventId metadata, fromUtf8 other.1 = some eventId →
      parseStateEventMetadata fromSlice other.2 (some eventId) = .ok (some metadata) →
        ∃ r ∈ next, r.eventId = eventId ∧ r.metadata.authEvents = metadata.authEvents := by
  intro other hother eventId metadata hid hparse
  rcases List.mem_append.mp hother with hmem | hnew
  · obtain ⟨old, hold, holdid, hauth⟩ := h.outliers other hmem eventId metadata hid hparse
    obtain ⟨r, hr, hmeta⟩ := hkeep old hold
    refine ⟨r, hr, ?_, ?_⟩
    · exact (congrArg StateEventMetadata.eventId hmeta).trans holdid
    · rw [hmeta, hauth]
  · rw [List.mem_singleton.mp hnew] at hid hparse
    exact hrow eventId metadata hid hparse

/-- An outlier that is no state event. -/
theorem Scanned.skipOutlier (h : Scanned fromSlice timeline outliers stateEvents)
    (hutf8 : fromUtf8 row.1 = some eventId)
    (hparse : parseStateEventMetadata fromSlice row.2 (some eventId) = .ok none) :
    Scanned fromSlice timeline (outliers ++ [row]) stateEvents where
  located := h.located
  outlying := fun _ hr hnone => h.outlying_append hr hnone
  timeline := h.timeline
  outliers := h.outliers_append (fun old hold => ⟨old, hold, rfl⟩) (by
    intro otherId other hid hother
    cases Option.some.inj (hutf8.symm.trans hid)
    rw [hparse] at hother
    cases hother)

/-- An outlier whose event has a record already, which takes the size of its payload. -/
theorem Scanned.amendOutlier (h : Scanned fromSlice timeline outliers stateEvents)
    (hutf8 : fromUtf8 row.1 = some eventId)
    (hparse : parseStateEventMetadata fromSlice row.2 (some eventId) = .ok (some metadata))
    {existing : StateEventRecord} (hexisting : existing ∈ stateEvents)
    (hid : existing.eventId = eventId)
    (hauth : existing.metadata.authEvents = metadata.authEvents)
    (hnext : ∀ r, r ∈ next ↔ ∃ old ∈ stateEvents, r = if old.eventId = eventId then
      { old with outlierPayloadBytes := row.2.length } else old) :
    Scanned fromSlice timeline (outliers ++ [row]) next := by
  have hback : ∀ r ∈ next, ∃ old ∈ stateEvents, r.metadata = old.metadata ∧
      r.timeline = old.timeline := by
    intro r hr
    obtain ⟨old, hmem, rfl⟩ := (hnext r).mp hr
    refine ⟨old, hmem, ?_⟩
    split <;> exact ⟨rfl, rfl⟩
  have hforth : ∀ old ∈ stateEvents, ∃ r ∈ next, r.metadata = old.metadata := by
    intro old hmem
    refine ⟨_, (hnext _).mpr ⟨old, hmem, rfl⟩, ?_⟩
    split <;> rfl
  constructor
  · intro r hr loc hrloc
    obtain ⟨old, hmem, hmeta, htimeline⟩ := hback r hr
    rw [hmeta]
    exact h.located old hmem loc (htimeline.symm.trans hrloc)
  · intro r hr hrnone
    obtain ⟨old, hmem, hmeta, htimeline⟩ := hback r hr
    have hroid : r.eventId = old.eventId := congrArg StateEventMetadata.eventId hmeta
    rw [hroid]
    exact h.outlying_append hmem (htimeline.symm.trans hrnone)
  · intro other hother md hmd
    obtain ⟨old, hmem, hmeta⟩ := h.timeline other hother md hmd
    obtain ⟨r, hr, hrmeta⟩ := hforth old hmem
    exact ⟨r, hr, hrmeta.trans hmeta⟩
  · apply h.outliers_append hforth
    intro otherId md hother hmd
    cases Option.some.inj (hutf8.symm.trans hother)
    rw [hparse] at hmd
    cases hmd
    obtain ⟨r, hr, hrmeta⟩ := hforth existing hexisting
    refine ⟨r, hr, ?_, ?_⟩
    · exact (congrArg StateEventMetadata.eventId hrmeta).trans hid
    · rw [hrmeta, hauth]

/-- An outlier whose event has no record yet. -/
theorem Scanned.insertOutlier (h : Scanned fromSlice timeline outliers stateEvents)
    (hutf8 : fromUtf8 row.1 = some eventId)
    {record : StateEventRecord} (hid : record.eventId = eventId)
    (hparse : parseStateEventMetadata fromSlice row.2 (some eventId) = .ok (some record.metadata))
    (hnone : record.timeline = none) (hfree : ¬ stateEvents.HasKey record.eventId) :
    Scanned fromSlice timeline (outliers ++ [row]) (stateEvents.insert record hfree) := by
  have hkeep : ∀ old ∈ stateEvents, ∃ r ∈ stateEvents.insert record hfree,
      r.metadata = old.metadata :=
    fun old hold => ⟨old, Table.mem_insert.mpr (Or.inl hold), rfl⟩
  constructor
  · intro r hr loc hrloc
    rcases Table.mem_insert.mp hr with hr | rfl
    · exact h.located r hr loc hrloc
    · rw [hnone] at hrloc
      cases hrloc
  · intro r hr hrnone
    rcases Table.mem_insert.mp hr with hr | rfl
    · exact h.outlying_append hr hrnone
    · refine ⟨row.1, row.2, r.metadata, List.mem_append_right _ (List.mem_singleton.mpr rfl),
        ?_, ?_⟩
      · rw [hid, hutf8]
      · rw [hid, hparse]
  · intro other hother md hmd
    obtain ⟨r, hr, hrmeta⟩ := h.timeline other hother md hmd
    exact ⟨r, Table.mem_insert.mpr (Or.inl hr), hrmeta⟩
  · apply h.outliers_append hkeep
    intro otherId md hother hmd
    cases Option.some.inj (hutf8.symm.trans hother)
    rw [hparse] at hmd
    cases hmd
    exact ⟨record, Table.mem_insert.mpr (Or.inr rfl), hid, rfl⟩

theorem Scanned.outlierStep (h : Scanned fromSlice timeline outliers stateEvents)
    (hstep : scanOutlierPdu fromSlice stateEvents row = .ok next) :
    Scanned fromSlice timeline (outliers ++ [row]) next := by
  obtain ⟨eventId, hutf8, ⟨hparse, rfl⟩ | ⟨metadata, hparse, hid, hcases⟩⟩ :=
    scanOutlierPdu_spec hstep
  · exact h.skipOutlier hutf8 hparse
  · rcases hcases with ⟨existing, hexisting, heid, hauth, hnext⟩ | ⟨record, rfl, hnone, hfree, rfl⟩
    · exact h.amendOutlier hutf8 hparse hexisting heid hauth hnext
    · exact h.insertOutlier hutf8 hid hparse hnone hfree

theorem scanned_empty (fromSlice : JsonReader) : Scanned fromSlice [] [] Table.empty where
  located := fun r hr => absurd hr (Table.not_mem_empty r)
  outlying := fun r hr => absurd hr (Table.not_mem_empty r)
  timeline := by simp
  outliers := by simp

end Scans

/-! ## The records -/

section Records

variable {fromSlice : JsonReader} {db : Database} {audit : PruneAudit}

theorem auditDatabase_scanned (h : auditDatabase fromSlice db = .ok audit) :
    Scanned fromSlice (db .pduidPdu).rows (db .eventidOutlierpdu).rows audit.stateEvents := by
  unfold auditDatabase at h
  simp only [bind_eq_ok] at h
  obtain ⟨hashes, _, timelineEvents, htimeline, stateEvents, houtliers, h⟩ := h
  cases h
  have hfirst : Scanned fromSlice (db .pduidPdu).rows [] timelineEvents :=
    foldlM_invariant (P := fun done events => Scanned fromSlice done [] events)
      (scanned_empty fromSlice) (fun _ _ _ _ hinv hstep => hinv.timelineStep hstep) htimeline
  exact foldlM_invariant (P := fun done events => Scanned fromSlice (db .pduidPdu).rows done events)
    hfirst (fun _ _ _ _ hinv hstep => hinv.outlierStep hstep) houtliers

theorem statePayload_of_record (h : auditDatabase fromSlice db = .ok audit)
    {r : StateEventRecord} (hr : r ∈ audit.stateEvents) :
    ∃ metadata, StatePayload fromSlice db r.eventId metadata := by
  have hscanned := auditDatabase_scanned h
  cases htimeline : r.timeline with
  | some location =>
      obtain ⟨value, hmem, hparse⟩ := hscanned.located r hr location htimeline
      exact ⟨r.metadata, .timeline hmem hparse rfl⟩
  | none =>
      obtain ⟨key, value, metadata, hmem, hkey, hparse⟩ := hscanned.outlying r hr htimeline
      rw [← asBytes_of_fromUtf8 hkey] at hmem
      exact ⟨metadata, .outlier hmem hparse⟩

theorem record_of_statePayload (h : auditDatabase fromSlice db = .ok audit) {eventId : String}
    {metadata : StateEventMetadata} (hpayload : StatePayload fromSlice db eventId metadata) :
    ∃ r ∈ audit.stateEvents, r.eventId = eventId ∧
      r.metadata.authEvents = metadata.authEvents := by
  have hscanned := auditDatabase_scanned h
  cases hpayload with
  | timeline hmem hparse hid =>
      obtain ⟨r, hr, hmeta⟩ := hscanned.timeline _ hmem _ hparse
      refine ⟨r, hr, ?_, by rw [hmeta]⟩
      rw [StateEventRecord.eventId, hmeta, hid]
  | outlier hmem hparse =>
      exact hscanned.outliers _ hmem eventId metadata (fromUtf8_asBytes eventId) hparse

end Records

end Lightfriend.Prune
