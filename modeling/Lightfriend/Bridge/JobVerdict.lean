import Lightfriend.Bridge.DisconnectedCleanup

/-! # What a job is left as

Whatever the services answer, and wherever the work on a job stops, the last statement
settles the job: it closes the job or puts it off. No statement before it closes the job
or counts an attempt.
-/

namespace Lightfriend.Bridge

open Procedure

/-- One of the waiting times, counted from a time at which the job was worked on. -/
def PutOff (config : Config) (answers : JobAnswers) (notBefore : Int) : Prop :=
  ∃ now secs, (now = answers.now ∨ now = answers.retryNow) ∧
    (secs = config.retrySecs ∨ secs = config.orphanScanSecs ∨
      secs = config.orphanProofRecheckSecs) ∧ notBefore = saturatingAdd now secs

/-- The statement is the last word on the job. -/
inductive Effect.Settles (config : Config) (job : BridgeCleanupJob) (answers : JobAnswers) :
    Effect → Prop
  | closed {status : BridgeJobStatus} {notBefore : Int} {error : String} :
      status = .succeeded ∨ status = .cancelledReconnected →
      Settles config job answers (.updateJob job.id status job.attemptCount notBefore error true)
  | exhausted {notBefore : Int} {error : String} :
      config.maxAttempts ≤ saturatingAdd job.attemptCount 1 →
      Settles config job answers
        (.updateJob job.id .exhausted (saturatingAdd job.attemptCount 1) notBefore error true)
  | retried {notBefore : Int} {error : String} :
      saturatingAdd job.attemptCount 1 < config.maxAttempts → PutOff config answers notBefore →
      Settles config job answers
        (.updateJob job.id .retrying (saturatingAdd job.attemptCount 1) notBefore error false)
  | waiting {status : BridgeJobStatus} {notBefore : Int} {error : String} :
      status = .retrying ∨ status = .auditReady → PutOff config answers notBefore →
      Settles config job answers (.updateJob job.id status job.attemptCount notBefore error false)
  | proof {status detail : String} {first : Option Int} {notBefore : Int} :
      job.triggerKind = orphanAudit → PutOff config answers notBefore →
      Settles config job answers (.recordLoginProof job.id status first notBefore detail)
  | unstored {detail error : String} {first : Option Int} {notBefore : Int} :
      job.triggerKind = orphanAudit → answers.proofStored = .error error →
      Settles config job answers
        (.recordLoginProof job.id orphanLoginAbsentVerified first notBefore detail)

/-- Only an update closes a job or counts an attempt; a recorded proof does neither. -/
def Effect.Verdict : Effect → Prop
  | .updateJob _ _ _ _ _ _ => True
  | _ => False

def Undecided (log : List Effect) : Prop := ∀ e ∈ log, ¬ e.Verdict

def Settled (config : Config) (job : BridgeCleanupJob) (answers : JobAnswers)
    (log : List Effect) : Prop :=
  ∃ front last, log = front ++ [last] ∧ last.Settles config job answers ∧ Undecided front

section Verdict

variable {config : Config} {codec : RoomCodec} {job : BridgeCleanupJob} {answers : JobAnswers}
  {α β : Type} {p : Cleanup α} {e : Effect} {log : List Effect}

theorem Undecided.concat (h : Undecided log) (he : ¬ e.Verdict) : Undecided (log ++ [e]) := by
  intro d hd
  rcases List.mem_append.mp hd with hd | hd
  · exact h d hd
  · rw [List.mem_singleton.mp hd]
    exact he

theorem Undecided.settled (h : Undecided log) (he : e.Settles config job answers) :
    Settled config job answers (log ++ [e]) :=
  ⟨log, e, rfl, he, h⟩

/-! ## Parts that leave the job open, or settle it and stop -/

variable (config job answers) in
/-- The part goes on with the job undecided, or stops with it settled. -/
def Decides (p : Cleanup α) : Prop :=
  Ensures (fun _ log => Undecided log) p (fun _ _ log => Undecided log)
    (fun _ log => Settled config job answers log)

theorem decides_pure (a : α) : Decides config job answers (pure a) :=
  ensures_pure (fun _ _ h => h)

theorem decides_read : Decides config job answers (read : Cleanup Progress) :=
  ensures_read (fun _ _ h => h)

theorem decides_modify (g : Progress → Progress) : Decides config job answers (modify g) :=
  ensures_modify (fun _ _ h => h)

theorem decides_emit (he : ¬ e.Verdict) : Decides config job answers (emit e) :=
  ensures_emit (fun _ _ h => h.concat he)

theorem Decides.bind {f : α → Cleanup β} (hp : Decides config job answers p)
    (hf : ∀ a, Decides config job answers (f a)) : Decides config job answers (p >>= f) :=
  Ensures.bind hp hf

theorem Decides.after_emit {f : Unit → Cleanup β} (hf : Decides config job answers (f ()))
    (he : ¬ e.Verdict) : Decides config job answers (emit e >>= f) :=
  (decides_emit he).bind (fun _ => hf)

/-- The last word is spoken, and the work stops. -/
theorem decides_settle (he : e.Settles config job answers) :
    Decides config job answers (emit e >>= fun _ => (leave : Cleanup α)) :=
  Ensures.bind (ensures_emit (fun _ _ h => h.settled he)) (fun _ => ensures_leave (fun _ _ h => h))

/-- A check that is passed leaves the job undecided; one that is not has settled it. -/
def Checks (config : Config) (job : BridgeCleanupJob) (answers : JobAnswers) (p : Cleanup Bool) :
    Prop :=
  Ensures (fun _ log => Undecided log) p
    (fun passed _ log => if passed then Undecided log else Settled config job answers log)
    (fun _ log => Settled config job answers log)

theorem checks_true : Checks config job answers (pure true) := ensures_pure (fun _ _ h => h)

theorem checks_false (he : e.Settles config job answers) :
    Checks config job answers (emit e >>= fun _ => pure false) :=
  Ensures.bind (ensures_emit (fun _ _ h => h.settled he)) (fun _ => ensures_pure (fun _ _ h => h))

theorem Checks.decides {p : Cleanup Bool} (hp : Checks config job answers p) :
    Decides config job answers (p >>= fun passed => if passed then pure () else leave) := by
  refine Ensures.bind hp (fun passed => ?_)
  cases passed with
  | true => exact ensures_pure (fun _ _ h => h)
  | false => exact ensures_leave (fun _ _ h => h)

/-! ## Before the rooms -/

theorem putOff_retry : PutOff config answers (saturatingAdd answers.now config.retrySecs) :=
  ⟨answers.now, config.retrySecs, Or.inl rfl, Or.inl rfl, rfl⟩

theorem putOff_scan : PutOff config answers (saturatingAdd answers.now config.orphanScanSecs) :=
  ⟨answers.now, config.orphanScanSecs, Or.inl rfl, Or.inr (Or.inl rfl), rfl⟩

theorem retryJob_settles (error : String) {now : Int}
    (hnow : now = answers.now ∨ now = answers.retryNow) :
    ∃ e, retryJob config job now error = emit e ∧ e.Settles config job answers := by
  refine ⟨_, rfl, ?_⟩
  by_cases hmax : config.maxAttempts ≤ saturatingAdd job.attemptCount 1
  · rw [decide_eq_true hmax, if_pos rfl]
    exact .exhausted hmax
  · rw [decide_eq_false hmax, if_neg Bool.false_ne_true]
    exact .retried (not_le.mp hmax) ⟨now, config.retrySecs, hnow, Or.inl rfl, rfl⟩

theorem decides_retryJob (error : String) {now : Int}
    (hnow : now = answers.now ∨ now = answers.retryNow) : Decides config job answers
      (retryJob config job now error >>= fun _ => (leave : Cleanup α)) := by
  obtain ⟨e, heq, he⟩ := @retryJob_settles config job answers error now hnow
  rw [heq]
  exact decides_settle he

theorem checkBridgeGeneration_decides :
    Decides config job answers (checkBridgeGeneration config job answers) := by
  unfold checkBridgeGeneration
  split
  · exact decides_pure _
  · split
    · exact decides_settle (.waiting (Or.inl rfl) putOff_retry)
    · exact decides_settle (.closed (Or.inr rfl))
  · exact decides_retryJob _ (Or.inr rfl)

theorem prepareOrphanLoginProof_checks (hkind : job.triggerKind = orphanAudit) :
    Checks config job answers (prepareOrphanLoginProof config job answers) := by
  unfold prepareOrphanLoginProof
  split
  · exact checks_false (.proof hkind putOff_retry)
  · split
    · exact checks_false (.proof hkind putOff_scan)
    · split
      · exact checks_true
      · split
        · split
          · exact Ensures.bind (decides_emit id) (fun _ => checks_true)
          next error herror => exact checks_false (.unstored hkind herror)
        · exact checks_false (.proof hkind
            ⟨answers.now, config.orphanProofRecheckSecs, Or.inl rfl, Or.inr (Or.inr rfl), rfl⟩)

theorem proveOrphan_decides : Decides config job answers (proveOrphan config job answers) := by
  unfold proveOrphan
  split
  next h => exact (prepareOrphanLoginProof_checks h.1).decides
  next => exact decides_pure _

theorem loadRooms_decides : Decides config job answers (loadRooms config job answers) := by
  unfold loadRooms
  split
  · exact decides_read.bind (fun _ => decides_pure _)
  · exact decides_retryJob _ (Or.inr rfl)

theorem recheckOrphan_decides : Decides config job answers (recheckOrphan config job answers) := by
  unfold recheckOrphan
  split
  next hkind =>
    refine Checks.decides ?_
    unfold finalOrphanLoginAbsenceCheck
    split
    · split
      · exact checks_true
      · exact checks_false (.proof hkind putOff_scan)
    · exact checks_false (.proof hkind putOff_retry)
  next => exact decides_pure _

theorem cleanupLease_decides (execute : Bool) :
    Decides config job answers (cleanupLease config job answers execute) := by
  unfold cleanupLease
  refine decides_read.bind (fun p => ?_)
  split
  · refine Decides.bind ?_ (fun _ => decides_pure _)
    unfold acquireCleanupLease
    split
    · refine recheckOrphan_decides.bind (fun _ => ?_)
      unfold checkUnderLease
      split
      · exact decides_emit id
      · exact decides_settle (.closed (Or.inr rfl))
      · exact decides_retryJob _ (Or.inr rfl)
    · exact decides_retryJob _ (Or.inr rfl)
    · exact decides_retryJob _ (Or.inr rfl)
  · exact decides_pure _

/-! ## The rooms -/

theorem updateRoom_decides (stored : Option Int) (id : Int) (status : BridgeRoomStatus)
    (attemptCount : Int) (error : Option String) (complete : Bool) : Decides config job answers
      (updateRoom stored id status attemptCount error complete) := by
  unfold updateRoom
  refine Decides.after_emit ?_ not_false
  cases stored with
  | none => exact decides_pure _
  | some now => exact decides_modify _

/-- The guard may record that a login is back, and leaves the verdict to its caller. -/
theorem refreshCleanupGuard_decides (guard : GuardAnswers) :
    Decides config job answers (refreshCleanupGuard config job guard) := by
  have hfinal : Decides config job answers
      (finalOrphanLoginAbsenceCheck config job guard.login guard.now) := by
    unfold finalOrphanLoginAbsenceCheck
    split
    · split
      · exact decides_pure _
      · exact Decides.after_emit (decides_pure _) not_false
    · exact Decides.after_emit (decides_pure _) not_false
  unfold refreshCleanupGuard
  split
  · exact decides_pure _
  · exact decides_pure _
  · split
    · exact decides_pure _
    · exact decides_pure _
    · split
      · refine hfinal.bind (fun absent => ?_)
        cases absent <;> exact decides_pure _
      · exact decides_pure _

theorem deleteRoom_decides (room : BridgeCleanupRoom) (roomAnswers : RoomAnswers) :
    Decides config job answers (deleteRoom config codec room roomAnswers) := by
  unfold deleteRoom
  refine (updateRoom_decides _ _ _ _ _ _).bind (fun _ => ?_)
  refine Decides.after_emit ?_ not_false
  split
  · exact (updateRoom_decides _ _ _ _ _ _).bind (fun _ => decides_pure _)
  · exact (updateRoom_decides _ _ _ _ _ _).bind (fun _ => decides_pure _)

theorem processRoom_decides (plan : RoomPlan) (room : BridgeCleanupRoom)
    (roomAnswers : RoomAnswers) (tally : Tally) : Decides config job answers
      (processRoom config codec job answers.retryNow plan room roomAnswers tally) := by
  have hupdate : ∀ (status : BridgeRoomStatus) (error : String) (complete : Bool) (next : Tally),
      Decides config job answers (updateRoom roomAnswers.resultStored room.id status
        room.attemptCount (some error) complete >>= fun _ => pure next) :=
    fun _ _ _ _ => (updateRoom_decides _ _ _ _ _ _).bind (fun _ => decides_pure _)
  unfold processRoom
  split
  · unfold processExclusiveRoom
    split
    · refine decides_read.bind (fun p => ?_)
      split
      · exact hupdate _ _ _ _
      · split
        · unfold deleteUnderGuard
          refine (refreshCleanupGuard_decides _).bind (fun guard => ?_)
          split
          · exact (updateRoom_decides _ _ _ _ _ _).bind
              (fun _ => decides_retryJob _ (Or.inr rfl))
          · refine (deleteRoom_decides _ _).bind (fun deleted => ?_)
            split
            · exact (decides_modify _).bind (fun _ => decides_pure _)
            · exact decides_pure _
        · exact decides_retryJob _ (Or.inr rfl)
    · exact hupdate _ _ _ _
  · exact hupdate _ _ _ _

theorem processRooms_decides (plan : RoomPlan) (rooms : List BridgeCleanupRoom) (tally : Tally) :
    Decides config job answers (processRooms config codec job answers plan rooms tally) := by
  induction rooms generalizing tally with
  | nil => exact decides_pure _
  | cons room rest ih => exact (processRoom_decides _ _ _ _).bind (fun next => ih next)

/-! ## The verdict -/

theorem finishJob_settles (execute : Bool) (tally : Tally) :
    ∃ e, finishJob config job answers execute tally = emit e ∧ e.Settles config job answers := by
  unfold finishJob
  dsimp only
  split
  · exact retryJob_settles _ (Or.inr rfl)
  · split
    · exact ⟨_, rfl, .closed (Or.inl rfl)⟩
    · split
      · exact ⟨_, rfl, .waiting (Or.inr rfl) putOff_retry⟩
      · exact ⟨_, rfl, .waiting (Or.inr rfl) putOff_scan⟩

/-- However a job goes, the last statement for it closes it or puts it off, and no other closes
it or counts an attempt; or the job ends with a proof of absence that could not be stored. -/
theorem processJob_settled (config : Config) (codec : RoomCodec) (job : BridgeCleanupJob)
    (answers : JobAnswers) (p : Progress) :
    ∃ front last, (processJob config codec job answers p).effects = front ++ [last] ∧
      last.Settles config job answers ∧ ∀ e ∈ front, ¬ e.Verdict := by
  have hfinish : ∀ execute tally, Ensures (fun _ log => Undecided log)
      (finishJob config job answers execute tally)
      (fun _ _ log => Settled config job answers log)
      (fun _ log => Settled config job answers log) := by
    intro execute tally
    obtain ⟨e, heq, he⟩ := @finishJob_settles config job answers execute tally
    rw [heq]
    exact ensures_emit (fun _ _ h => h.settled he)
  have hjob : Ensures (fun _ log => Undecided log) (processJob config codec job answers)
      (fun _ _ log => Settled config job answers log)
      (fun _ log => Settled config job answers log) := by
    unfold processJob
    refine Ensures.bind checkBridgeGeneration_decides (fun _ => ?_)
    refine Ensures.bind proveOrphan_decides (fun _ => ?_)
    refine Ensures.bind (decides_modify _) (fun _ => ?_)
    refine Ensures.bind loadRooms_decides (fun rooms => ?_)
    unfold processRemaining
    refine Ensures.bind (cleanupLease_decides _) (fun lease => ?_)
    refine Ensures.bind (processRooms_decides _ _ _) (fun tally => ?_)
    refine Ensures.bind ?_ (fun _ => hfinish _ _)
    unfold recordFreedStorage
    split
    · exact decides_emit id
    · exact decides_pure _
  have hend := hjob p [] (fun _ he => absurd he List.not_mem_nil)
  rw [List.nil_append] at hend
  split at hend
  · exact hend
  · exact hend

end Verdict

end Lightfriend.Bridge
