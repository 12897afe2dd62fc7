import Lightfriend.Purge.Homeserver

/-! # Coverage of succeeded room-history rows

A row of the room-history queue is succeeded only where a purge of its room
completed, or was reported to be a no-op, at least as far as the row's cutoff.
The three columns `cutoff_ts`, `submitted_cutoff_ts` and `status` are tied
together by one invariant on every row, and the candidates the worker holds
between two statements are tied to their rows.
-/

namespace Lightfriend.Purge

/-! ## Coverage -/

/-- A purge of the room that completed, or a report that the room is already clean, at least
as far as a purge up to `cutoffTs` asks for. -/
def Covered (tasks : List PurgeTask) (reports : List CleanReport) (roomId : String)
    (cutoffTs : Int) : Prop :=
  (∃ task ∈ tasks, task.roomId = roomId ∧ task.outcome = some .complete ∧
    ∃ ms, task.boundary = .upToTimestamp ms ∧ roomHistoryTimestampMs cutoffTs ≤ ms) ∨
  ∃ report ∈ reports, report.roomId = roomId ∧ roomHistoryTimestampMs cutoffTs ≤ report.timestampMs

theorem roomHistoryTimestampMs_mono {a b : Int} (h : a ≤ b) :
    roomHistoryTimestampMs a ≤ roomHistoryTimestampMs b := by
  unfold roomHistoryTimestampMs saturatingMulU64
  have hmax : (max a 1).toNat ≤ (max b 1).toNat := Int.toNat_le_toNat (max_le_max_right 1 h)
  omega

/-- Below one second every cutoff asks for the same. -/
theorem roomHistoryTimestampMs_coalesce (cutoff : Int) :
    roomHistoryTimestampMs (max cutoff 0) = roomHistoryTimestampMs cutoff := by
  have hmax : max (max cutoff 0) 1 = max cutoff 1 := by omega
  unfold roomHistoryTimestampMs
  rw [hmax]

theorem Covered.le {tasks : List PurgeTask} {reports : List CleanReport} {roomId : String}
    {a b : Int} (h : Covered tasks reports roomId b) (hab : a ≤ b) :
    Covered tasks reports roomId a := by
  have hms := roomHistoryTimestampMs_mono hab
  rcases h with ⟨task, htask, hroom, hdone, ms, hboundary, hle⟩ | ⟨report, hreport, hroom, hle⟩
  · exact Or.inl ⟨task, htask, hroom, hdone, ms, hboundary, le_trans hms hle⟩
  · exact Or.inr ⟨report, hreport, hroom, le_trans hms hle⟩

theorem Covered.max_zero {tasks : List PurgeTask} {reports : List CleanReport} {roomId : String}
    {cutoff : Int} (h : Covered tasks reports roomId cutoff) :
    Covered tasks reports roomId (max cutoff 0) := by
  unfold Covered
  rw [roomHistoryTimestampMs_coalesce]
  exact h

theorem Covered.mono {tasks : List PurgeTask} {reports : List CleanReport} {roomId : String}
    {cutoff : Int} (h : Covered tasks reports roomId cutoff) (e : HomeserverEvent) :
    Covered (e.onTasks tasks) (e.onReports reports) roomId cutoff := by
  rcases h with ⟨task, htask, hroom, hdone, ms, hboundary, hle⟩ | ⟨report, hreport, hroom, hle⟩
  · obtain ⟨after, hafter, haroom, habound, hadone⟩ := e.exists_completed_onTasks htask hdone
    exact Or.inl ⟨after, hafter, haroom.trans hroom, hadone, ms, habound.trans hboundary, hle⟩
  · refine Or.inr ⟨report, ?_, hroom, hle⟩
    cases e with
    | reportClean other => exact List.mem_cons_of_mem _ hreport
    | _ => exact hreport

/-- A completed task accepted for a room-history cutoff covers it. -/
theorem Covered.of_completed {tasks : List PurgeTask} {reports : List CleanReport}
    {purgeId roomId : String} {cutoff : Int} (hids : TaskIdsUnique tasks)
    (hfor : TaskFor tasks purgeId roomId (.upToTimestamp (roomHistoryTimestampMs cutoff)))
    (hdone : TaskCompleted tasks purgeId) : Covered tasks reports roomId cutoff := by
  obtain ⟨task, htask, hid, hroom, hboundary⟩ := hfor
  obtain ⟨other, hother, hotherId, hcomplete⟩ := hdone
  have heq : other = task := eq_of_purgeId_eq hids hother htask (hotherId.trans hid.symm)
  exact Or.inl ⟨task, htask, hroom, heq ▸ hcomplete, _, hboundary, le_refl _⟩

/-! ## The invariant -/

/-- What ties the columns of one row together. -/
structure RowCovered (tasks : List PurgeTask) (reports : List CleanReport)
    (r : RoomHistoryPurge) : Prop where
  succeeded : r.status = .succeeded →
    Covered tasks reports r.roomId (max r.cutoffTs (coalesce r.submittedCutoffTs))
  stale : ∀ cutoff, r.submittedCutoffTs = some cutoff →
    cutoff ≤ r.cutoffTs ∨ Covered tasks reports r.roomId cutoff
  running : r.status = .submitted → ∃ cutoff purgeId, r.submittedCutoffTs = some cutoff ∧
    r.purgeId = some purgeId ∧
      TaskFor tasks purgeId r.roomId (.upToTimestamp (roomHistoryTimestampMs cutoff))

/-- A candidate about to be submitted: the cutoff of its row can only have grown since. -/
def HeldDue (rooms : RoomHistoryTable) (c : RoomHistoryPurge) : Prop :=
  ∃ r ∈ rooms, r.id = c.id ∧ r.roomId = c.roomId ∧ c.cutoffTs ≤ r.cutoffTs

/-- A candidate about to be polled: its task is the one for the cutoff its row has submitted. -/
def HeldSubmitted (tasks : List PurgeTask) (rooms : RoomHistoryTable) (c : RoomHistoryPurge) :
    Prop :=
  ∃ r ∈ rooms, r.id = c.id ∧ ∀ purgeId, c.purgeId = some purgeId →
    TaskFor tasks purgeId r.roomId
      (.upToTimestamp (roomHistoryTimestampMs (coalesce r.submittedCutoffTs)))

/-- A write that is still to be executed. -/
def WriteCovered (tasks : List PurgeTask) (reports : List CleanReport)
    (rooms : RoomHistoryTable) : PurgeWrite → Prop
  | .roomSubmitted id _ cutoffTs purgeId =>
      ∃ r ∈ rooms, r.id = id ∧ cutoffTs ≤ r.cutoffTs ∧
        TaskFor tasks purgeId r.roomId (.upToTimestamp (roomHistoryTimestampMs cutoffTs))
  | .roomSucceeded id =>
      ∃ r ∈ rooms, r.id = id ∧ Covered tasks reports r.roomId (coalesce r.submittedCutoffTs)
  | .roomNoopSucceeded id _ cutoffTs =>
      ∃ r ∈ rooms, r.id = id ∧ Covered tasks reports r.roomId cutoffTs
  | _ => True

/-- The statement leaves every `submitted_cutoff_ts` as it is. -/
def RoomStatement.KeepsSubmitted : RoomStatement → Prop
  | .submitted .. => False
  | .noopSucceeded .. => False
  | _ => True

def StageCovered (tasks : List PurgeTask) (reports : List CleanReport)
    (rooms : RoomHistoryTable) : Stage → Prop
  | .poll _ submittedRooms => ∀ c ∈ submittedRooms, HeldSubmitted tasks rooms c
  | .pollWrite write _ submittedRooms =>
      (∀ now, (write.onRooms now).KeepsSubmitted) ∧ WriteCovered tasks reports rooms write ∧
        ∀ c ∈ submittedRooms, HeldSubmitted tasks rooms c
  | .submit _ dueRooms => ∀ c ∈ dueRooms, HeldDue rooms c
  | .prepare _ _ _ dueRooms => ∀ c ∈ dueRooms, HeldDue rooms c
  | .send _ _ _ _ dueRooms => ∀ c ∈ dueRooms, HeldDue rooms c
  | .probe _ _ _ dueRooms => ∀ c ∈ dueRooms, HeldDue rooms c
  | .sendRoom candidate _ dueRooms => HeldDue rooms candidate ∧ ∀ c ∈ dueRooms, HeldDue rooms c
  | .settle write _ dueRooms =>
      WriteCovered tasks reports rooms write ∧ ∀ c ∈ dueRooms, HeldDue rooms c
  | _ => True

structure HistoryInv (s : PurgeState) : Prop where
  ids : TaskIdsUnique s.tasks
  rows : ∀ r ∈ s.rooms, RowCovered s.tasks s.cleanReports r
  held : StageCovered s.tasks s.cleanReports s.rooms s.stage

/-! ## The homeserver's steps -/

section Mono

variable {tasks : List PurgeTask} {reports : List CleanReport} {rooms : RoomHistoryTable}
  (e : HomeserverEvent)

theorem RowCovered.mono {r : RoomHistoryPurge} (h : RowCovered tasks reports r) :
    RowCovered (e.onTasks tasks) (e.onReports reports) r where
  succeeded := fun hs => (h.succeeded hs).mono e
  stale := fun cutoff hc => (h.stale cutoff hc).imp_right (fun hcov => hcov.mono e)
  running := by
    intro hs
    obtain ⟨cutoff, purgeId, hsub, hid, hfor⟩ := h.running hs
    exact ⟨cutoff, purgeId, hsub, hid, e.taskFor_onTasks hfor⟩

theorem HeldSubmitted.mono {c : RoomHistoryPurge} (h : HeldSubmitted tasks rooms c) :
    HeldSubmitted (e.onTasks tasks) rooms c := by
  obtain ⟨r, hr, hid, hfor⟩ := h
  exact ⟨r, hr, hid, fun purgeId hp => e.taskFor_onTasks (hfor purgeId hp)⟩

theorem WriteCovered.mono {write : PurgeWrite} (h : WriteCovered tasks reports rooms write) :
    WriteCovered (e.onTasks tasks) (e.onReports reports) rooms write := by
  cases write with
  | roomSubmitted id attempt cutoffTs purgeId =>
      obtain ⟨r, hr, hid, hle, hfor⟩ := h
      exact ⟨r, hr, hid, hle, e.taskFor_onTasks hfor⟩
  | roomSucceeded id =>
      obtain ⟨r, hr, hid, hcov⟩ := h
      exact ⟨r, hr, hid, hcov.mono e⟩
  | roomNoopSucceeded id attempt cutoffTs =>
      obtain ⟨r, hr, hid, hcov⟩ := h
      exact ⟨r, hr, hid, hcov.mono e⟩
  | _ => trivial

theorem StageCovered.mono {stage : Stage} (h : StageCovered tasks reports rooms stage) :
    StageCovered (e.onTasks tasks) (e.onReports reports) rooms stage := by
  cases stage with
  | poll submitted submittedRooms => exact fun c hc => (h c hc).mono e
  | pollWrite write submitted submittedRooms =>
      exact ⟨h.1, h.2.1.mono e, fun c hc => (h.2.2 c hc).mono e⟩
  | settle write due dueRooms => exact ⟨h.1.mono e, h.2⟩
  | _ => exact h

end Mono

/-! ## The statements on the rows -/

section Statements

variable {tasks : List PurgeTask} {reports : List CleanReport} {rooms : RoomHistoryTable}

/-- What a statement must know about the row it names. -/
def StatementCovered (tasks : List PurgeTask) (reports : List CleanReport)
    (rooms : RoomHistoryTable) : RoomStatement → Prop
  | .submitted _ id _ cutoffTs purgeId => ∀ r ∈ rooms, r.id = id → cutoffTs ≤ r.cutoffTs ∧
      TaskFor tasks purgeId r.roomId (.upToTimestamp (roomHistoryTimestampMs cutoffTs))
  | .succeeded _ id => ∀ r ∈ rooms, r.id = id →
      Covered tasks reports r.roomId (coalesce r.submittedCutoffTs)
  | .noopSucceeded _ id _ cutoffTs => ∀ r ∈ rooms, r.id = id →
      Covered tasks reports r.roomId cutoffTs
  | _ => True

theorem WriteCovered.statement {write : PurgeWrite} (h : WriteCovered tasks reports rooms write)
    (now : Int) : StatementCovered tasks reports rooms (write.onRooms now) := by
  cases write with
  | roomSubmitted id attempt cutoffTs purgeId =>
      obtain ⟨row, hrow, hid, hle, hfor⟩ := h
      intro r hr hrid
      rw [Table.eq_of_key_eq hr hrow (hrid.trans hid.symm)]
      exact ⟨hle, hfor⟩
  | roomSucceeded id =>
      obtain ⟨row, hrow, hid, hcov⟩ := h
      intro r hr hrid
      rw [Table.eq_of_key_eq hr hrow (hrid.trans hid.symm)]
      exact hcov
  | roomNoopSucceeded id attempt cutoffTs =>
      obtain ⟨row, hrow, hid, hcov⟩ := h
      intro r hr hrid
      rw [Table.eq_of_key_eq hr hrow (hrid.trans hid.symm)]
      exact hcov
  | _ => trivial

/-- A row whose cutoff is reached has everything it ever submitted covered. -/
theorem RowCovered.reach {r : RoomHistoryPurge} (h : RowCovered tasks reports r) {cutoff : Int}
    (hcov : Covered tasks reports r.roomId cutoff) (hle : r.cutoffTs ≤ cutoff) :
    Covered tasks reports r.roomId (max r.cutoffTs (coalesce r.submittedCutoffTs)) := by
  have hrow : Covered tasks reports r.roomId r.cutoffTs := hcov.le hle
  cases hsub : r.submittedCutoffTs with
  | none => exact hrow.max_zero
  | some submitted =>
      rcases le_total submitted r.cutoffTs with hle' | hle'
      · rwa [coalesce, Option.getD_some, max_eq_left hle']
      · rw [coalesce, Option.getD_some, max_eq_right hle']
        rcases h.stale submitted hsub with hstale | hstale
        · exact hrow.le hstale
        · exact hstale

theorem RowCovered.of_status {r : RoomHistoryPurge} (h : RowCovered tasks reports r)
    {r' : RoomHistoryPurge} (hroom : r'.roomId = r.roomId) (hcutoff : r'.cutoffTs = r.cutoffTs)
    (hsub : r'.submittedCutoffTs = r.submittedCutoffTs) (hne : r'.status ≠ .succeeded)
    (hnr : r'.status ≠ .submitted) : RowCovered tasks reports r' where
  succeeded := fun hs => absurd hs hne
  stale := by
    rw [hroom, hcutoff, hsub]
    exact h.stale
  running := fun hs => absurd hs hnr

theorem RowCovered.succeed {r : RoomHistoryPurge} (h : RowCovered tasks reports r)
    {cutoff : Int} (hcov : Covered tasks reports r.roomId cutoff) (hle : r.cutoffTs ≤ cutoff)
    (now : Int) : RowCovered tasks reports (r.succeed now) where
  succeeded := fun _ => h.reach hcov hle
  stale := h.stale
  running := fun hs => by cases hs

theorem RowCovered.succeedNoop {r : RoomHistoryPurge} (h : RowCovered tasks reports r)
    {cutoff : Int} (hcov : Covered tasks reports r.roomId cutoff) (hle : r.cutoffTs ≤ cutoff)
    (now attempt : Int) : RowCovered tasks reports (r.succeedNoop now attempt cutoff) := by
  have hreach := h.reach hcov hle
  have hall : Covered tasks reports r.roomId
      (max r.cutoffTs (max (coalesce r.submittedCutoffTs) cutoff)) := by
    rcases le_total (coalesce r.submittedCutoffTs) cutoff with hsub | hsub
    · rw [max_eq_right hsub, max_eq_right hle]
      exact hcov
    · rw [max_eq_left hsub]
      exact hreach
  constructor
  · exact fun _ => hall
  · intro submitted hsub
    have heq : max (coalesce r.submittedCutoffTs) cutoff = submitted := by
      simpa [RoomHistoryPurge.succeedNoop] using hsub
    exact Or.inr (hall.le (heq ▸ le_max_right _ _))
  · intro hs
    cases hs

theorem RowCovered.censusUpdate {r : RoomHistoryPurge} (h : RowCovered tasks reports r)
    (cutoffTs discoveredAt : Int) :
    RowCovered tasks reports (r.censusUpdate cutoffTs discoveredAt) := by
  by_cases hsubmitted : r.status = .submitted
  · -- a submitted row keeps cutoff and status
    constructor
    · intro hs
      simp [RoomHistoryPurge.censusUpdate, hsubmitted] at hs
    · simpa [RoomHistoryPurge.censusUpdate, hsubmitted] using h.stale
    · simpa [RoomHistoryPurge.censusUpdate, hsubmitted] using h.running
  · constructor
    · intro hs
      by_cases hopen : coalesce r.submittedCutoffTs < cutoffTs
      · simp [RoomHistoryPurge.censusUpdate, hsubmitted, hopen] at hs
      · have hstatus : r.status = .succeeded := by
          simpa [RoomHistoryPurge.censusUpdate, hsubmitted, hopen] using hs
        refine (h.succeeded hstatus).le ?_
        simp only [RoomHistoryPurge.censusUpdate, hsubmitted, if_false]
        omega
    · intro submitted hsub
      simp only [RoomHistoryPurge.censusUpdate, hsubmitted, if_false]
      rcases h.stale submitted hsub with hle | hcov
      · exact Or.inl (le_max_of_le_left hle)
      · exact Or.inr hcov
    · intro hs
      by_cases hopen : coalesce r.submittedCutoffTs < cutoffTs
      · simp [RoomHistoryPurge.censusUpdate, hsubmitted, hopen] at hs
      · simp [RoomHistoryPurge.censusUpdate, hsubmitted, hopen] at hs

theorem RowCovered.censusRow (t : RoomHistoryTable) (userId : Int) (service : String)
    (cutoffTs discoveredAt : Int) (roomId : String) :
    RowCovered tasks reports (t.censusRow userId service cutoffTs discoveredAt roomId) where
  succeeded := fun hs => by cases hs
  stale := fun _ hsub => by cases hsub
  running := fun hs => by cases hs

/-- Every statement keeps the columns of every row tied together. -/
theorem rowCovered_apply {stmt : RoomStatement} (hok : StatementCovered tasks reports rooms stmt)
    (h : ∀ r ∈ rooms, RowCovered tasks reports r) :
    ∀ r ∈ stmt.apply rooms, RowCovered tasks reports r := by
  refine RoomStatement.forall_apply ?_ (fun cutoffTs discoveredAt r hr =>
    hr.censusUpdate cutoffTs discoveredAt) RowCovered.censusRow h
  intro hcensus r hr hrow
  cases stmt with
  | keep => exact hrow
  | portalCensus userId service roomIds cutoffTs discoveredAt => exact absurd trivial hcensus
  | serverCensus userId service roomIds cutoffTs discoveredAt => exact absurd trivial hcensus
  | requeueExhausted now cutoff limit =>
      simp only [RoomStatement.rewrite]
      split
      · exact hrow.of_status rfl rfl rfl (by simp [RoomHistoryPurge.requeue])
          (by simp [RoomHistoryPurge.requeue])
      · exact hrow
  | attempt now id n =>
      simp only [RoomStatement.rewrite]
      split
      · exact hrow.of_status rfl rfl rfl (by simp [RoomHistoryPurge.startAttempt])
          (by simp [RoomHistoryPurge.startAttempt])
      · exact hrow
  | submitted now id n cutoffTs purgeId =>
      simp only [RoomStatement.rewrite]
      split
      next hid =>
        obtain ⟨hle, hfor⟩ := hok r hr hid
        constructor
        · intro hs
          cases hs
        · intro cutoff hcutoff
          cases hcutoff
          exact Or.inl hle
        · exact fun _ => ⟨cutoffTs, purgeId, rfl, rfl, hfor⟩
      · exact hrow
  | succeeded now id =>
      simp only [RoomStatement.rewrite]
      cases hfind : rooms.find? id with
      | none => exact hrow
      | some completed =>
          obtain ⟨hcompleted, hid⟩ := Table.find?_eq_some_iff.mp hfind
          have hcov := hok completed hcompleted hid
          simp only
          split
          next hcovered =>
            simp only [RoomHistoryPurge.coveredBy, Bool.and_eq_true, decide_eq_true_eq]
              at hcovered
            exact hrow.succeed (hcovered.1 ▸ hcov) hcovered.2 now
          · exact hrow
  | noopSucceeded now id n cutoffTs =>
      simp only [RoomStatement.rewrite]
      cases hfind : rooms.find? id with
      | none => exact hrow
      | some completed =>
          obtain ⟨hcompleted, hid⟩ := Table.find?_eq_some_iff.mp hfind
          have hcov := hok completed hcompleted hid
          simp only
          split
          next hcovered =>
            simp only [RoomHistoryPurge.coveredBy, Bool.and_eq_true, decide_eq_true_eq]
              at hcovered
            exact hrow.succeedNoop (hcovered.1 ▸ hcov) hcovered.2 now n
          · exact hrow
  | failure now id n maxAttempts error =>
      simp only [RoomStatement.rewrite]
      split
      · have hstatus : (r.fail now n maxAttempts error).status = .exhausted ∨
            (r.fail now n maxAttempts error).status = .retrying := by
          simp only [RoomHistoryPurge.fail, failureStatus]
          split <;> simp
        exact hrow.of_status rfl rfl rfl (by rcases hstatus with hs | hs <;> simp [hs])
          (by rcases hstatus with hs | hs <;> simp [hs])
      · exact hrow
  | reorder rows => exact hrow

/-! ## The statements on the candidates held -/

theorem rewrite_cutoffTs (t : RoomHistoryTable) (stmt : RoomStatement) (r : RoomHistoryPurge) :
    (stmt.rewrite t r).cutoffTs = r.cutoffTs := by
  cases stmt <;> simp only [RoomStatement.rewrite] <;> (repeat' split) <;> rfl

theorem rewrite_submittedCutoffTs {t : RoomHistoryTable} {stmt : RoomStatement}
    (hkeeps : stmt.KeepsSubmitted) (r : RoomHistoryPurge) :
    (stmt.rewrite t r).submittedCutoffTs = r.submittedCutoffTs := by
  cases stmt with
  | submitted now id n cutoffTs purgeId => exact hkeeps.elim
  | noopSucceeded now id n cutoffTs => exact hkeeps.elim
  | _ =>
      simp only [RoomStatement.rewrite]
      repeat' split
      all_goals rfl

theorem HeldDue.apply {c : RoomHistoryPurge} (h : HeldDue rooms c) (stmt : RoomStatement) :
    HeldDue (stmt.apply rooms) c := by
  refine RoomStatement.exists_apply ?_ ?_ h
  · intro _ r _ hr
    rw [RoomStatement.rewrite_id, RoomStatement.rewrite_roomId, rewrite_cutoffTs]
    exact hr
  · intro cutoffTs discoveredAt r hr
    refine ⟨hr.1, hr.2.1, le_trans hr.2.2 ?_⟩
    simp only [RoomHistoryPurge.censusUpdate]
    split
    · exact le_refl _
    · exact le_max_left _ _

theorem HeldSubmitted.apply {c : RoomHistoryPurge} (h : HeldSubmitted tasks rooms c)
    {stmt : RoomStatement} (hkeeps : stmt.KeepsSubmitted) :
    HeldSubmitted tasks (stmt.apply rooms) c := by
  refine RoomStatement.exists_apply ?_ (fun _ _ r hr => hr) h
  intro _ r _ hr
  rw [RoomStatement.rewrite_id, RoomStatement.rewrite_roomId, rewrite_submittedCutoffTs hkeeps]
  exact hr

theorem WriteCovered.apply {write : PurgeWrite} (h : WriteCovered tasks reports rooms write)
    {stmt : RoomStatement} (hkeeps : stmt.KeepsSubmitted) :
    WriteCovered tasks reports (stmt.apply rooms) write := by
  cases write with
  | roomSubmitted id attempt cutoffTs purgeId =>
      refine RoomStatement.exists_apply ?_ ?_ h
      · intro _ r _ hr
        rw [RoomStatement.rewrite_id, RoomStatement.rewrite_roomId, rewrite_cutoffTs]
        exact hr
      · intro newCutoff discoveredAt r hr
        refine ⟨hr.1, le_trans hr.2.1 ?_, hr.2.2⟩
        simp only [RoomHistoryPurge.censusUpdate]
        split
        · exact le_refl _
        · exact le_max_left _ _
  | roomSucceeded id =>
      refine RoomStatement.exists_apply ?_ (fun _ _ r hr => hr) h
      intro _ r _ hr
      rw [RoomStatement.rewrite_id, RoomStatement.rewrite_roomId,
        rewrite_submittedCutoffTs hkeeps]
      exact hr
  | roomNoopSucceeded id attempt cutoffTs =>
      refine RoomStatement.exists_apply ?_ (fun _ _ r hr => hr) h
      intro _ r _ hr
      rw [RoomStatement.rewrite_id, RoomStatement.rewrite_roomId]
      exact hr
  | _ => trivial

theorem StageCovered.apply {stage : Stage} (h : StageCovered tasks reports rooms stage)
    {stmt : RoomStatement} (hkeeps : stmt.KeepsSubmitted) :
    StageCovered tasks reports (stmt.apply rooms) stage := by
  cases stage with
  | poll submitted submittedRooms => exact fun c hc => (h c hc).apply hkeeps
  | pollWrite write submitted submittedRooms =>
      exact ⟨h.1, h.2.1.apply hkeeps, fun c hc => (h.2.2 c hc).apply hkeeps⟩
  | submit due dueRooms => exact fun c hc => (h c hc).apply stmt
  | prepare candidate attempt due dueRooms => exact fun c hc => (h c hc).apply stmt
  | send candidate attempt request due dueRooms => exact fun c hc => (h c hc).apply stmt
  | probe candidate attempt due dueRooms => exact fun c hc => (h c hc).apply stmt
  | sendRoom candidate attempt dueRooms =>
      exact ⟨h.1.apply stmt, fun c hc => (h.2 c hc).apply stmt⟩
  | settle write due dueRooms =>
      exact ⟨h.1.apply hkeeps, fun c hc => (h.2 c hc).apply stmt⟩
  | _ => trivial

end Statements

/-! ## The steps of the worker -/

section Steps

variable {codec : PurgeCodec} {s : PurgeState} {a : Action} {p : Plan}

theorem writeCovered_recordPurgeFailure (tasks : List PurgeTask) (reports : List CleanReport)
    (rooms : RoomHistoryTable) (maxAttempts : Int) (candidate : CleanupEvent) (attempt : Int)
    (error : String) :
    WriteCovered tasks reports rooms (recordPurgeFailure maxAttempts candidate attempt error) := by
  unfold recordPurgeFailure
  split <;> trivial

/-- A submitted row is held with its own task. -/
theorem HistoryInv.heldSubmitted (h : HistoryInv s) {c : RoomHistoryPurge} (hc : c ∈ s.rooms)
    (hstatus : c.status = .submitted) : HeldSubmitted s.tasks s.rooms c := by
  obtain ⟨cutoff, purgeId, hsub, hid, hfor⟩ := (h.rows c hc).running hstatus
  refine ⟨c, hc, rfl, ?_⟩
  intro other hother
  rw [hid, Option.some.injEq] at hother
  rwa [hsub, ← hother]

/-- A purge reported complete by an honest homeserver covers what its row has submitted. -/
theorem HeldSubmitted.covered {c : RoomHistoryPurge} (h : HeldSubmitted s.tasks s.rooms c)
    (hids : TaskIdsUnique s.tasks) {outcome : HttpOutcome} (htask : c.purgeId ≠ none)
    (hhonest : honestPoll codec s.tasks c.purgeId outcome = true)
    (hcomplete : reportsStatus codec "complete" outcome = true) :
    WriteCovered s.tasks s.cleanReports s.rooms (.roomSucceeded c.id) := by
  obtain ⟨purgeId, htask⟩ := Option.ne_none_iff_exists'.mp htask
  obtain ⟨r, hr, hid, hfor⟩ := h
  have hdone : TaskCompleted s.tasks purgeId := by
    cases hparse : parseStatusResponse codec outcome with
    | error error => simp [reportsStatus_of_error hparse] at hcomplete
    | ok status =>
        rw [reportsStatus_of_ok hparse, beq_iff_eq] at hcomplete
        simpa [honestPoll, htask, hparse, hcomplete] using hhonest
  exact ⟨r, hr, hid, Covered.of_completed hids (hfor purgeId htask) hdone⟩

/-- What the worker writes after a room-history submission is covered by the answer. -/
theorem HeldDue.afterSubmitRoom {c : RoomHistoryPurge} (h : HeldDue s.rooms c)
    {outcome : HttpOutcome} {accepted : Option String} (maxAttempts attempt : Int)
    (hhonest : honestSubmit codec s.tasks outcome accepted = true) :
    WriteCovered ((roomAcceptance codec c outcome accepted).onTasks s.tasks)
      ((roomAcceptance codec c outcome accepted).onReports s.cleanReports) s.rooms
      (afterSubmitRoom codec maxAttempts c attempt outcome) := by
  obtain ⟨r, hr, hid, hroom, hle⟩ := h
  unfold Purge.afterSubmitRoom roomAcceptance
  cases hparse : parseSubmitResponse codec outcome with
  | ok submitted =>
      rw [accepted_of_ok hhonest hparse]
      exact ⟨r, hr, hid, hle, _, List.mem_cons_self, rfl, hroom.symm, rfl⟩
  | error error =>
      by_cases hclean : roomHistoryWasAlreadyClean error = true
      · simp only [hclean, if_true]
        exact ⟨r, hr, hid, Or.inr ⟨_, List.mem_cons_self, hroom.symm, le_refl _⟩⟩
      · simp only [hclean, if_false, Bool.false_eq_true]
        trivial

theorem planned_statementCovered (h : Planned codec s a p) (hinv : HistoryInv s) :
    StatementCovered s.tasks s.cleanReports s.rooms p.rooms := by
  have hheld := hinv.held
  cases h with
  | census stmt hcensus => cases stmt <;> trivial
  | pollWrite now ok write submitted submittedRooms hstage =>
      rw [hstage] at hheld
      cases ok with
      | true => exact hheld.2.1.statement now
      | false => trivial
  | settle now ok write due dueRooms hstage =>
      rw [hstage] at hheld
      cases ok with
      | true => exact hheld.1.statement now
      | false => trivial
  | _ => trivial

/-- Only the write that ends a submission changes a `submitted_cutoff_ts`. -/
theorem planned_keepsSubmitted (h : Planned codec s a p) (hinv : HistoryInv s) :
    p.rooms.KeepsSubmitted ∨ ∃ due dueRooms, p.stage = .submit due dueRooms := by
  have hheld := hinv.held
  cases h with
  | census stmt hcensus =>
      refine Or.inl ?_
      cases stmt <;> trivial
  | pollWrite now ok write submitted submittedRooms hstage =>
      rw [hstage] at hheld
      cases ok with
      | true => exact Or.inl (hheld.1 now)
      | false => exact Or.inl trivial
  | settle now ok write due dueRooms hstage => exact Or.inr ⟨due, dueRooms, rfl⟩
  | _ => exact Or.inl trivial

theorem planned_stageCovered (h : Planned codec s a p) (hhonest : honest codec s a = true)
    (hinv : HistoryInv s) :
    StageCovered (p.homeserver.onTasks s.tasks) (p.homeserver.onReports s.cleanReports) s.rooms
      p.stage := by
  have hheld := hinv.held
  cases h with
  | ingest stmt hingest => exact hheld
  | storeMessage msg => exact hheld
  | census stmt hcensus => exact hheld
  | reorderEvents rows => exact hheld
  | reorderRooms rows => exact hheld
  | finish purgeId outcome => exact hheld.mono (.finish purgeId outcome)
  | begin config now runBackfill hstage =>
      simp only
      split <;> trivial
  | requeueRooms now runBackfill hstage =>
      simp only
      split <;> trivial
  | audit now verified summary candidate queue scanned recorded hstage =>
      simp only
      split <;> trivial
  | listSubmittedRooms now submitted hstage =>
      intro c hc
      obtain ⟨hmem, hstatus⟩ := RoomHistoryTable.listSubmitted_spec hc
      exact hinv.heldSubmitted hmem hstatus
  | pollKept outcome candidate submitted submittedRooms hstage hpoll =>
      rw [hstage] at hheld
      exact hheld
  | polled outcome candidate submitted submittedRooms write hstage hpoll =>
      rw [hstage] at hheld
      rcases pollSubmittedPurge_spec hpoll with ⟨rfl, _, _⟩ | ⟨error, rfl⟩
      · exact ⟨fun _ => trivial, trivial, hheld⟩
      · refine ⟨fun now => ?_, writeCovered_recordPurgeFailure _ _ _ _ _ _ _, hheld⟩
        rw [recordPurgeFailure_onRooms]
        trivial
  | pollRoomKept outcome candidate submittedRooms hstage hpoll =>
      rw [hstage] at hheld
      exact fun c hc => hheld c (List.mem_cons_of_mem _ hc)
  | polledRoom outcome candidate submittedRooms write hstage hpoll =>
      rw [hstage] at hheld
      have htail := fun c hc => hheld c (List.mem_cons_of_mem _ hc)
      rcases pollSubmittedRoomHistoryPurge_spec hpoll with ⟨rfl, htask, hcomplete⟩ | ⟨error, rfl⟩
      · rw [honest_pollRoom hstage] at hhonest
        exact ⟨fun _ => trivial, (hheld candidate List.mem_cons_self).covered hinv.ids htask
          hhonest hcomplete, htail⟩
      · exact ⟨fun _ => trivial, trivial, htail⟩
  | pollWrite now ok write submitted submittedRooms hstage =>
      rw [hstage] at hheld
      exact hheld.2.2
  | listDueRooms now slots due hstage =>
      intro c hc
      exact ⟨c, (RoomHistoryTable.listDue_spec hc).1, rfl, rfl, le_refl _⟩
  | attempt now candidate due dueRooms hstage =>
      rw [hstage] at hheld
      exact hheld
  | attemptFailed now candidate due dueRooms hstage =>
      rw [hstage] at hheld
      exact hheld
  | attemptRoom now candidate dueRooms hstage =>
      rw [hstage] at hheld
      exact ⟨hheld candidate List.mem_cons_self, fun c hc => hheld c (List.mem_cons_of_mem _ hc)⟩
  | attemptRoomFailed now candidate dueRooms hstage =>
      rw [hstage] at hheld
      exact fun c hc => hheld c (List.mem_cons_of_mem _ hc)
  | prepared now candidate attempt request due dueRooms hstage hrequest =>
      rw [hstage] at hheld
      exact hheld
  | sent outcome accepted candidate attempt request due dueRooms hstage =>
      rw [hstage] at hheld
      simp only [afterSubmit]
      split
      · exact ⟨trivial, hheld⟩
      · split
        · exact hheld
        · exact ⟨writeCovered_recordPurgeFailure _ _ _ _ _ _ _, hheld⟩
  | sentRoom outcome accepted candidate attempt dueRooms hstage =>
      rw [hstage] at hheld
      simp only [honest, hstage] at hhonest
      exact ⟨hheld.1.afterSubmitRoom _ _ hhonest, hheld.2⟩
  | failed action candidate attempt error due dueRooms hstage =>
      have hdue : ∀ c ∈ dueRooms, HeldDue s.rooms c := by
        rcases hstage with hstage | hstage <;> rw [hstage] at hheld <;> exact hheld
      exact ⟨writeCovered_recordPurgeFailure _ _ _ _ _ _ _, hdue⟩
  | probed now candidate attempt due dueRooms hstage hnewer =>
      rw [hstage] at hheld
      exact ⟨trivial, hheld⟩
  | settle now ok write due dueRooms hstage =>
      rw [hstage] at hheld
      exact hheld.2
  | pollDone now hstage => trivial
  | _ => trivial

/-- Every step under an honest homeserver keeps the invariant. -/
theorem historyInv_step {next : PurgeState} (hinv : HistoryInv s)
    (hhonest : honest codec s a = true) (hstep : step codec s a = some next) :
    HistoryInv next := by
  obtain ⟨p, hp, rfl⟩ := step_spec hstep
  have hok := planned_statementCovered hp hinv
  have hstage := planned_stageCovered hp hhonest hinv
  constructor
  · exact p.homeserver.taskIdsUnique_onTasks hinv.ids (planned_fresh hp hhonest)
  · intro r hr
    exact (rowCovered_apply hok hinv.rows r hr).mono p.homeserver
  · rcases planned_keepsSubmitted hp hinv with hkeeps | ⟨due, dueRooms, hsubmit⟩
    · exact hstage.apply hkeeps
    · simp only [PurgeState.perform, hsubmit] at hstage ⊢
      exact fun c hc => (hstage c hc).apply p.rooms

theorem historyInv_initial : HistoryInv PurgeState.initial where
  ids := List.nodup_nil
  rows := fun _ hr => (Table.not_mem_empty _ hr).elim
  held := trivial

end Steps

/-! ## Coverage in every run -/

/-- A census only rewrites a row in place. -/
theorem census_roomId {codec : PurgeCodec} {s next : PurgeState} {stmt : RoomStatement}
    (hstep : step codec s (.census stmt) = some next) {r r' : RoomHistoryPurge} (hr : r ∈ s.rooms)
    (hr' : r' ∈ next.rooms) (hid : r'.id = r.id) : r'.roomId = r.roomId := by
  obtain ⟨p, hp, rfl⟩ := step_spec hstep
  cases hp with
  | census _ hcensus =>
      obtain ⟨row, hrow, hrowId, hroom⟩ := RoomStatement.census_exists
        (P := fun x => x.id = r.id ∧ x.roomId = r.roomId) hcensus (fun _ _ _ h => h)
        ⟨r, hr, rfl, rfl⟩
      rw [Table.eq_of_key_eq hr' hrow (hid.trans hrowId.symm)]
      exact hroom
  | failed _ candidate attempt error due dueRooms hstage =>
      rw [Table.eq_of_key_eq hr' hr hid]

/-- In every run under an honest homeserver a succeeded row is covered up to its cutoff; and
where a census raises the cutoff of a succeeded row without reopening it, the room was already
covered up to the new cutoff. -/
theorem succeeded_rows_covered {codec : PurgeCodec} {actions : List Action} {s : PurgeState}
    (hhonest : Transition.Meets (step codec) (fun s a => honest codec s a = true)
      PurgeState.initial actions)
    (hrun : Transition.run (step codec) PurgeState.initial actions = some s) :
    (∀ r ∈ s.rooms, r.status = .succeeded →
      Covered s.tasks s.cleanReports r.roomId r.cutoffTs) ∧
    ∀ stmt next, step codec s (.census stmt) = some next →
      ∀ r ∈ s.rooms, r.status = .succeeded → ∀ r' ∈ next.rooms, r'.id = r.id →
        r'.status = .succeeded → Covered s.tasks s.cleanReports r.roomId r'.cutoffTs := by
  have hinv : HistoryInv s := Transition.run_invariant
    (fun s a next hinv hok hstep => historyInv_step hinv hok hstep) historyInv_initial hhonest hrun
  refine ⟨fun r hr hs => ((hinv.rows r hr).succeeded hs).le (le_max_left _ _), ?_⟩
  intro stmt next hstep r hr hstatus r' hr' hid hstatus'
  have hnext : HistoryInv next := historyInv_step hinv rfl hstep
  have hcov := ((hnext.rows r' hr').succeeded hstatus').le (le_max_left _ _)
  rw [census_roomId hstep hr hr' hid] at hcov
  obtain ⟨p, hp, rfl⟩ := step_spec hstep
  cases hp <;> exact hcov

/-! ## A census that raises a cutoff without reopening the row -/

namespace CensusExample

/-- Two users share the room; the homeserver reports it clean up to the cutoff of the first,
which also completes the row of the second. -/
def actions : List Action :=
  [.census (.portalCensus 1 "whatsapp" ["!r:s"] 100 100),
   .census (.portalCensus 2 "whatsapp" ["!r:s"] 50 100),
   .begin EventPurgeConfig.default 200 false,
   .advance 200, .advance 200, .advance 200, .advance 200, .advance 200, .advance 200,
   .advance 200, .advance 200, .advance 200,
   .write 200 true,
   .submit (.response 404 (.ok "No event found before the given timestamp")) none,
   .write 200 true]

def state : PurgeState := Transition.final (step PollExample.codec) PurgeState.initial actions

def census : RoomStatement := .portalCensus 2 "whatsapp" ["!r:s"] 80 300

def before : RoomHistoryPurge where
  id := 2
  userId := 2
  service := "whatsapp"
  roomId := "!r:s"
  cutoffTs := 50
  submittedCutoffTs := some 100
  purgeId := none
  status := .succeeded
  attemptCount := 1
  lastError := none
  lastDiscoveredAt := 100
  lastAttemptedAt := none
  completedAt := some 200
  updatedAt := 200

end CensusExample

theorem succeeded_rows_covered_after_noop :
    (∀ r ∈ CensusExample.state.rooms, r.status = .succeeded →
      Covered CensusExample.state.tasks CensusExample.state.cleanReports r.roomId r.cutoffTs) ∧
    ∀ stmt next, step PollExample.codec CensusExample.state (.census stmt) = some next →
      ∀ r ∈ CensusExample.state.rooms, r.status = .succeeded → ∀ r' ∈ next.rooms, r'.id = r.id →
        r'.status = .succeeded → Covered CensusExample.state.tasks
          CensusExample.state.cleanReports r.roomId r'.cutoffTs :=
  @succeeded_rows_covered PollExample.codec CensusExample.actions _ (by decide)
    (Transition.run_eq_final (by decide))

/-- The census of the second user raises the cutoff of a succeeded row from 50 to 80; the row
stays succeeded, because the no-op of the first user had set its `submitted_cutoff_ts` to 100. -/
theorem census_raises_succeeded_cutoff :
    ¬ ∀ (codec : PurgeCodec) (actions : List Action) (s next : PurgeState) (stmt : RoomStatement),
      Transition.Meets (step codec) (fun s a => honest codec s a = true)
        PurgeState.initial actions →
      Transition.run (step codec) PurgeState.initial actions = some s →
      step codec s (.census stmt) = some next →
      ∀ r ∈ s.rooms, r.status = .succeeded → ∀ r' ∈ next.rooms, r'.id = r.id →
        r'.status = .succeeded → r'.cutoffTs ≤ r.cutoffTs := by
  intro h
  have hstep : step PollExample.codec CensusExample.state (.census CensusExample.census) =
      some (CensusExample.state.perform
        { rooms := CensusExample.census, stage := CensusExample.state.stage }) := rfl
  have hle := h PollExample.codec CensusExample.actions CensusExample.state _ CensusExample.census
    (by decide) (Transition.run_eq_final (by decide)) hstep CensusExample.before (by decide) rfl
    (CensusExample.before.censusUpdate 80 300) (by decide) rfl rfl
  exact absurd hle (by decide)

end Lightfriend.Purge
