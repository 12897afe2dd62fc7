import Lightfriend.Bridge.CleanupOutcome

/-! # Runs of the cleanup

Jobs are seeded, processed any number of times and deleted with their user. A
row is marked `succeeded` only after the homeserver confirmed that its room is
gone, in every run; what a job that is marked succeeded leaves behind follows.
-/

namespace Lightfriend.Bridge

open Procedure

/-! ## What every statement keeps -/

/-- Succeeded rows are gone, and a job lists a room once. -/
structure Sound (p : Progress) (log : List Effect) : Prop where
  gone : SucceededGone p log
  distinct : ∀ r ∈ p.rooms, ∀ r' ∈ p.rooms, r.jobId = r'.jobId → r.roomId = r'.roomId →
    r.id = r'.id

/-- The rows still carry the names the listed rooms have. -/
def Named (rooms : List BridgeCleanupRoom) (p : Progress) : Prop :=
  ∀ listed ∈ rooms, ∀ r ∈ p.rooms, r.id = listed.id → r.roomId = listed.roomId

/-- What holds while the listed rooms are processed. -/
structure Working (rooms : List BridgeCleanupRoom) (p : Progress) (log : List Effect) : Prop where
  sound : Sound p log
  named : Named rooms p

section Keeps

variable {config : Config} {codec : RoomCodec} {job : BridgeCleanupJob} {answers : JobAnswers}
  {rooms : List BridgeCleanupRoom} {p : Progress} {log : List Effect}

theorem Sound.append (h : Sound p log) (rest : List Effect) : Sound p (log ++ rest) where
  gone r hr hstatus := (h.gone r hr hstatus).append rest
  distinct := h.distinct

theorem Working.append (h : Working rooms p log) (rest : List Effect) :
    Working rooms p (log ++ rest) :=
  ⟨h.sound.append rest, h.named⟩

theorem keeps_sound {α : Type} {proc : Cleanup α} (h : Steady proc) : Keeps Sound proc :=
  h.keeps (fun _ _ rest hp => hp.append rest)

theorem keeps_working {α : Type} {proc : Cleanup α} (h : Steady proc) :
    Keeps (Working rooms) proc :=
  h.keeps (fun _ _ rest hp => hp.append rest)

/-- Updating the row of one room, to `succeeded` only when that room is gone. -/
theorem Working.updateRoom (h : Working rooms p log) {room : BridgeCleanupRoom}
    (hroom : room ∈ rooms) {now attemptCount : Int} {status : BridgeRoomStatus}
    {error : Option String} {complete : Bool}
    (hgone : status = .succeeded → Gone log room.roomId) :
    Working rooms
      { p with
        rooms := p.rooms.updateBridgeCleanupRoom now room.id status attemptCount error complete }
      log := by
  have hold : ∀ r ∈ p.rooms.updateBridgeCleanupRoom now room.id status attemptCount error complete,
      ∃ old ∈ p.rooms, r.id = old.id ∧ r.jobId = old.jobId ∧ r.roomId = old.roomId ∧
        (r.status = old.status ∨ (r.status = status ∧ old.id = room.id)) := by
    intro r hr
    obtain ⟨old, hmem, rfl⟩ := (Table.mem_updateWhere _).mp hr
    refine ⟨old, hmem, ?_⟩
    by_cases hid : old.id = room.id
    · simp [hid]
    · simp [hid]
  constructor
  · constructor
    · intro r hr hstatus
      obtain ⟨old, hmem, _, _, hname, hcase⟩ := hold r hr
      rw [hname]
      rcases hcase with hsame | ⟨hset, hid⟩
      · exact h.sound.gone old hmem (hsame ▸ hstatus)
      · rw [h.named room hroom old hmem hid]
        exact hgone (hset ▸ hstatus)
    · intro r hr r' hr' hjob hname
      obtain ⟨old, hmem, hid, hoj, hon, _⟩ := hold r hr
      obtain ⟨old', hmem', hid', hoj', hon', _⟩ := hold r' hr'
      rw [hid, hid']
      exact h.sound.distinct old hmem old' hmem' (by rw [← hoj, ← hoj', hjob])
        (by rw [← hon, ← hon', hname])
  · intro listed hlisted r hr hid
    obtain ⟨old, hmem, hoid, _, hon, _⟩ := hold r hr
    rw [hon]
    exact h.named listed hlisted old hmem (hoid ▸ hid)

theorem updateRoom_ensures {room : BridgeCleanupRoom} (hroom : room ∈ rooms)
    (stored : Option Int) (status : BridgeRoomStatus) (attemptCount : Int)
    (error : Option String) (complete : Bool) :
    Ensures (fun p log => Working rooms p log ∧ (status = .succeeded → Gone log room.roomId))
      (updateRoom stored room.id status attemptCount error complete)
      (fun _ => Working rooms) (Working rooms) := by
  have hemit : Ensures
      (fun p log => Working rooms p log ∧ (status = .succeeded → Gone log room.roomId))
      (emit (.updateRoom room.id status attemptCount error complete) : Cleanup Unit)
      (fun _ p log => Working rooms p log ∧ (status = .succeeded → Gone log room.roomId))
      (Working rooms) :=
    ensures_emit (fun p log h => ⟨h.1.append _, fun hstatus => (h.2 hstatus).append _⟩)
  unfold Bridge.updateRoom
  refine hemit.bind (fun _ => ?_)
  cases stored with
  | none => exact ensures_pure (fun p log h => h.1)
  | some now => exact ensures_modify (fun p log h => h.1.updateRoom hroom h.2)

theorem updateRoom_keeps {room : BridgeCleanupRoom} (hroom : room ∈ rooms)
    (stored : Option Int) {status : BridgeRoomStatus} (hstatus : status ≠ .succeeded)
    (attemptCount : Int) (error : Option String) (complete : Bool) :
    Keeps (Working rooms) (updateRoom stored room.id status attemptCount error complete) :=
  fun p log h => updateRoom_ensures hroom stored status attemptCount error complete p log
    ⟨h, fun hs => absurd hs hstatus⟩

theorem deleteRoom_keeps {room : BridgeCleanupRoom} (hroom : room ∈ rooms)
    (answers : RoomAnswers) : Keeps (Working rooms) (deleteRoom config codec room answers) := by
  have hemit : Ensures (Working rooms)
      (emit (.deleteRoom room.roomId answers.deletion) : Cleanup Unit)
      (fun _ p log => Working rooms p log ∧
        (confirmsGone answers.deletion = true → Gone log room.roomId)) (Working rooms) :=
    ensures_emit (fun p log h => ⟨h.append _, fun hgone =>
      ⟨answers.deletion, List.mem_append_right _ List.mem_cons_self, hgone⟩⟩)
  have hpure : ∀ deleted, Ensures (Working rooms) (pure deleted : Cleanup Bool)
      (fun _ => Working rooms) (Working rooms) :=
    fun deleted => ensures_pure (fun _ _ h => h)
  unfold deleteRoom
  refine (updateRoom_keeps hroom _ (by decide) _ _ _).bind (fun _ => hemit.bind (fun _ => ?_))
  split
  next hresult =>
    have hgone := deleteResult_eq_ok_iff.mp hresult
    have hupdate : Ensures (fun p log => Working rooms p log ∧
          (confirmsGone answers.deletion = true → Gone log room.roomId))
        (updateRoom answers.resultStored room.id .succeeded (saturatingAdd room.attemptCount 1)
          none true) (fun _ => Working rooms) (Working rooms) :=
      fun p log h => updateRoom_ensures hroom _ _ _ _ _ p log ⟨h.1, fun _ => h.2 hgone⟩
    exact hupdate.bind (fun _ => hpure true)
  next error _ =>
    have hstatus : (if decide (config.maxAttempts ≤ saturatingAdd room.attemptCount 1) = true then
        BridgeRoomStatus.exhausted else .retrying) ≠ .succeeded := by
      split <;> decide
    have hupdate : Ensures (fun p log => Working rooms p log ∧
          (confirmsGone answers.deletion = true → Gone log room.roomId))
        (updateRoom answers.resultStored room.id
          (if decide (config.maxAttempts ≤ saturatingAdd room.attemptCount 1) = true then .exhausted
            else .retrying) (saturatingAdd room.attemptCount 1) (some error)
          (decide (config.maxAttempts ≤ saturatingAdd room.attemptCount 1)))
        (fun _ => Working rooms) (Working rooms) :=
      fun p log h => updateRoom_keeps hroom _ hstatus _ _ _ p log h.1
    exact hupdate.bind (fun _ => hpure false)

/-! ## The checks leave the rows as they are -/

theorem retryJob_steady (now : Int) (error : String) : Steady (retryJob config job now error) :=
  steady_emit _

/-- A check that failed: it retries the job and returns. -/
theorem retryAndLeave_steady {α : Type} (now : Int) (error : String) :
    Steady (retryJob config job now error >>= fun _ => (leave : Cleanup α)) :=
  (retryJob_steady now error).bind (fun _ => steady_leave)

theorem checkBridgeGeneration_steady : Steady (checkBridgeGeneration config job answers) := by
  unfold checkBridgeGeneration
  split
  · exact steady_pure _
  · split
    · exact (steady_emit _).bind (fun _ => steady_leave)
    · exact (steady_emit _).bind (fun _ => steady_leave)
  · exact retryAndLeave_steady _ _

theorem finalOrphanLoginAbsenceCheck_steady (login : LoginAnswers) (now : Int) :
    Steady (finalOrphanLoginAbsenceCheck config job login now) := by
  unfold finalOrphanLoginAbsenceCheck
  split
  · split
    · exact steady_pure _
    · exact (steady_emit _).bind (fun _ => steady_pure _)
  · exact (steady_emit _).bind (fun _ => steady_pure _)

theorem refreshCleanupGuard_steady (guard : GuardAnswers) :
    Steady (refreshCleanupGuard config job guard) := by
  intro p
  obtain ⟨result, hgoes, _⟩ := refreshCleanupGuard_goes config job guard p
  exact hgoes.2

theorem prepareOrphanLoginProof_steady : Steady (prepareOrphanLoginProof config job answers) := by
  unfold prepareOrphanLoginProof
  split
  · exact (steady_emit _).bind (fun _ => steady_pure _)
  · split
    · exact (steady_emit _).bind (fun _ => steady_pure _)
    · split
      · exact steady_pure _
      · split
        · refine (steady_emit _).bind (fun _ => ?_)
          split
          · exact steady_pure _
          · exact steady_pure _
        · exact (steady_emit _).bind (fun _ => steady_pure _)

theorem proveOrphan_steady : Steady (proveOrphan config job answers) := by
  unfold proveOrphan
  split
  · refine prepareOrphanLoginProof_steady.bind (fun proved => ?_)
    cases proved with
    | true => exact steady_pure _
    | false => exact steady_leave
  · exact steady_pure _

theorem checkUnderLease_steady : Steady (checkUnderLease config job answers) := by
  unfold checkUnderLease
  split
  · exact steady_emit _
  · exact (steady_emit _).bind (fun _ => steady_leave)
  · exact retryAndLeave_steady _ _

theorem recheckOrphan_steady : Steady (recheckOrphan config job answers) := by
  unfold recheckOrphan
  split
  · refine (finalOrphanLoginAbsenceCheck_steady _ _).bind (fun absent => ?_)
    cases absent with
    | true => exact steady_pure _
    | false => exact steady_leave
  · exact steady_pure _

theorem cleanupLease_steady (execute : Bool) :
    Steady (cleanupLease config job answers execute) := by
  have hacquire : Steady (acquireCleanupLease config job answers) := by
    unfold acquireCleanupLease
    split
    · exact recheckOrphan_steady.bind (fun _ => checkUnderLease_steady)
    · exact retryAndLeave_steady _ _
    · exact retryAndLeave_steady _ _
  unfold cleanupLease
  refine steady_read.bind (fun p => ?_)
  split
  · exact hacquire.bind (fun _ => steady_pure _)
  · exact steady_pure _

theorem recordFreedStorage_steady (tally : Tally) :
    Steady (recordFreedStorage job answers tally) := by
  unfold recordFreedStorage
  split
  · exact steady_emit _
  · exact steady_pure _

theorem finishJob_steady (execute : Bool) (tally : Tally) :
    Steady (finishJob config job answers execute tally) := by
  unfold finishJob
  split
  · exact retryJob_steady _ _
  · split
    · exact steady_emit _
    · split
      · exact steady_emit _
      · exact steady_emit _

/-! ## The rooms -/

theorem processRoom_keeps {room : BridgeCleanupRoom} (hroom : room ∈ rooms) (retryNow : Int)
    (plan : RoomPlan) (answers : RoomAnswers) (tally : Tally) :
    Keeps (Working rooms) (processRoom config codec job retryNow plan room answers tally) := by
  have hpure : ∀ tally, Keeps (Working rooms) (pure tally : Cleanup Tally) :=
    fun tally => keeps_working (steady_pure tally)
  have hstop : ∀ error, Keeps (Working rooms)
      (retryJob config job retryNow error >>= fun _ => (leave : Cleanup Tally)) :=
    fun error => keeps_working (retryAndLeave_steady retryNow error)
  unfold processRoom
  split
  · unfold processExclusiveRoom
    split
    · refine Keeps.bind (keeps_working steady_read) (fun p => ?_)
      split
      · exact (updateRoom_keeps hroom _ (by decide) _ _ _).bind (fun _ => hpure _)
      · split
        · unfold deleteUnderGuard
          refine Keeps.bind (keeps_working (refreshCleanupGuard_steady _)) (fun guard => ?_)
          split
          · exact (updateRoom_keeps hroom _ (by decide) _ _ _).bind (fun _ => hstop _)
          · refine (deleteRoom_keeps hroom _).bind (fun deleted => ?_)
            cases deleted with
            | true =>
                have hmodify : Keeps (Working rooms) (modify (fun p =>
                    { p with remainingRoomDeletes := p.remainingRoomDeletes - 1 })) :=
                  ensures_modify (fun p log h => ⟨⟨h.sound.gone, h.sound.distinct⟩, h.named⟩)
                exact hmodify.bind (fun _ => hpure _)
            | false => exact hpure _
        · exact hstop _
    · exact (updateRoom_keeps hroom _ (by decide) _ _ _).bind (fun _ => hpure _)
  · exact (updateRoom_keeps hroom _ (by decide) _ _ _).bind (fun _ => hpure _)

theorem processRooms_keeps {listed : List BridgeCleanupRoom} (hsub : ∀ r ∈ listed, r ∈ rooms)
    (plan : RoomPlan) (tally : Tally) :
    Keeps (Working rooms) (processRooms config codec job answers plan listed tally) := by
  induction listed generalizing tally with
  | nil => exact keeps_working (steady_pure _)
  | cons room rest ih =>
      refine (processRoom_keeps (hsub room List.mem_cons_self) _ _ _ _).bind (fun next => ?_)
      exact ih (fun r hr => hsub r (List.mem_cons_of_mem _ hr)) next

theorem processRemaining_keeps :
    Keeps (Working rooms) (processRemaining config codec job answers rooms) := by
  unfold processRemaining
  refine Keeps.bind (keeps_working (cleanupLease_steady _)) (fun lease => ?_)
  refine (processRooms_keeps (fun r hr => hr) _ _).bind (fun tally => ?_)
  refine Keeps.bind (keeps_working (recordFreedStorage_steady _)) (fun _ => ?_)
  exact keeps_working (finishJob_steady _ _)

/-! ## The job -/

/-- A new candidate is pending, and no other row of its job has its name. -/
theorem Sound.add (h : Sound p log) (now jobId : Int) (source roomId : String) :
    Sound { p with rooms := CleanupRooms.add now jobId source p.rooms roomId } log := by
  constructor
  · intro r hr hstatus
    rcases CleanupRooms.mem_add hr with hr | hpending
    · exact h.gone r hr hstatus
    · rw [hpending] at hstatus
      cases hstatus
  · simp only [CleanupRooms.add]
    split
    next hfree =>
      intro r hr r' hr' hjob hname
      rcases Table.mem_insertOrIgnore.mp hr with hr | ⟨_, rfl⟩
      · rcases Table.mem_insertOrIgnore.mp hr' with hr' | ⟨_, rfl⟩
        · exact h.distinct r hr r' hr' hjob hname
        · exact absurd ⟨hjob, hname⟩ (hfree.2 r hr)
      · rcases Table.mem_insertOrIgnore.mp hr' with hr' | ⟨_, rfl⟩
        · exact absurd ⟨hjob.symm, hname.symm⟩ (hfree.2 r' hr')
        · rfl
    · exact h.distinct

theorem Sound.addBridgeCleanupRooms (h : Sound p log) (now jobId : Int) (roomIds : List String)
    (source : String) :
    Sound { p with rooms := p.rooms.addBridgeCleanupRooms now jobId roomIds source } log := by
  induction roomIds generalizing p with
  | nil => exact h
  | cons roomId rest ih => exact ih (h.add now jobId source roomId)

theorem Sound.discoveredRooms (h : Sound p log) (job : BridgeCleanupJob) (answers : JobAnswers) :
    Sound { p with rooms := discoveredRooms job answers p.rooms } log := by
  unfold Bridge.discoveredRooms
  split
  · exact h
  · exact h.addBridgeCleanupRooms _ _ _ _

/-- The rows just listed are named as the table has them. -/
theorem Sound.working (h : Sound p log) (jobId : Int) :
    Working (p.rooms.listBridgeCleanupRooms jobId) p log where
  sound := h
  named listed hlisted r hr hid := by
    have hmem := (CleanupRooms.mem_listBridgeCleanupRooms.mp hlisted).1
    rw [Table.eq_of_key_eq hr hmem hid]

theorem loadRooms_ensures : Ensures Sound (loadRooms config job answers) Working Sound := by
  unfold loadRooms
  split
  · have hread : Ensures Sound (read : Cleanup Progress) (fun q p log => q = p ∧ Sound p log)
        Sound := ensures_read (fun p log h => ⟨rfl, h⟩)
    refine hread.bind (fun q => ensures_pure (fun p log h => ?_))
    obtain ⟨rfl, hsound⟩ := h
    exact hsound.working job.id
  · refine (keeps_sound (retryJob_steady _ _)).bind (fun _ => ensures_leave (fun _ _ h => h))

/-- However a job ends, no row is marked `succeeded` without its room being gone. -/
theorem processJob_keeps : Keeps Sound (processJob config codec job answers) := by
  have hdiscover : Keeps Sound (discoverVisibleServiceRooms job answers) :=
    ensures_modify (fun p log h => h.discoveredRooms job answers)
  unfold processJob
  refine (keeps_sound checkBridgeGeneration_steady).bind (fun _ => ?_)
  refine (keeps_sound proveOrphan_steady).bind (fun _ => ?_)
  refine hdiscover.bind (fun _ => ?_)
  refine loadRooms_ensures.bind (fun rooms => ?_)
  exact processRemaining_keeps.weaken (fun _ _ _ h => h.sound) (fun _ _ h => h.sound)

end Keeps

/-! ## Runs -/

structure Store where
  rooms : CleanupRooms
  log : List Effect

def Store.empty : Store := ⟨Table.empty, []⟩

inductive Action
  | seed (now jobId : Int) (source : String) (roomIds : List String)
  | process (config : Config) (codec : RoomCodec) (job : BridgeCleanupJob) (answers : JobAnswers)
      (remainingRoomDeletes : Int)
  | deleteJobs (jobIds : List Int)

def Store.progress (s : Store) (remainingRoomDeletes : Int) : Progress :=
  ⟨s.rooms, remainingRoomDeletes⟩

def step (s : Store) : Action → Option Store
  | .seed now jobId source roomIds =>
      some { s with rooms := s.rooms.addBridgeCleanupRooms now jobId roomIds source }
  | .process config codec job answers remaining =>
      let outcome := processJob config codec job answers (s.progress remaining)
      some { rooms := outcome.state.rooms, log := s.log ++ outcome.effects }
  | .deleteJobs jobIds => some { s with rooms := s.rooms.deleteJobs jobIds }

theorem Sound.of_rooms {p q : Progress} {log : List Effect} (h : Sound p log)
    (hrooms : p.rooms = q.rooms) : Sound q log where
  gone r hr := h.gone r (hrooms ▸ hr)
  distinct r hr r' hr' := h.distinct r (hrooms ▸ hr) r' (hrooms ▸ hr')

theorem step_sound {s next : Store} {action : Action}
    (h : Sound (s.progress 0) s.log) (hstep : step s action = some next) :
    Sound (next.progress 0) next.log := by
  cases action with
  | seed now jobId source roomIds =>
      cases hstep
      exact h.addBridgeCleanupRooms now jobId roomIds source
  | process config codec job answers remaining =>
      cases hstep
      have hstart : Sound (s.progress remaining) s.log := h.of_rooms rfl
      exact (processJob_keeps.apply hstart).of_rooms rfl
  | deleteJobs jobIds =>
      cases hstep
      exact ⟨fun r hr => h.gone r (CleanupRooms.mem_deleteJobs hr), fun r hr r' hr' =>
        h.distinct r (CleanupRooms.mem_deleteJobs hr) r' (CleanupRooms.mem_deleteJobs hr')⟩

/-- In every run, a row marked `succeeded` names a room the homeserver confirmed gone. -/
theorem run_sound {actions : List Action} {s : Store}
    (hrun : Transition.run step Store.empty actions = some s) (remaining : Int) :
    Sound (s.progress remaining) s.log := by
  have hempty : Sound (Store.empty.progress 0) Store.empty.log :=
    ⟨fun r hr => absurd hr (Table.not_mem_empty r), fun r hr => absurd hr (Table.not_mem_empty r)⟩
  have hsound := @Transition.run_invariant_all _ _ step (fun s => Sound (s.progress 0) s.log)
    (fun s a next h hs => step_sound h hs) _ _ _ hempty hrun
  exact hsound.of_rooms rfl

/-! ## What a succeeded job leaves behind -/

/-- Every candidate room found for the job. -/
def candidates (job : BridgeCleanupJob) (answers : JobAnswers) (p : Progress) :
    List BridgeCleanupRoom :=
  (discoveredRooms job answers p.rooms).rows.filter (fun r => r.jobId = job.id)

/-- A job marked succeeded has every candidate deleted, or audited as shared. -/
def SettlesRooms (config : Config) (codec : RoomCodec) (job : BridgeCleanupJob)
    (answers : JobAnswers) (remainingRoomDeletes : Int) (s : Store) : Prop :=
  Marks job.id (processJob config codec job answers) (s.progress remainingRoomDeletes) →
    ∀ r ∈ candidates job answers (s.progress remainingRoomDeletes),
      Gone (s.log ++
        (processJob config codec job answers (s.progress remainingRoomDeletes)).effects) r.roomId ∨
      RoomShared codec job (answers.room r.id).audit

/-- A job settles its rooms exactly when it does not complete, or every listed room that is not
gone already gets a definite answer from its audit. -/
theorem processJob_settles_iff {actions : List Action} {s : Store}
    (hrun : Transition.run step Store.empty actions = some s) (config : Config)
    (codec : RoomCodec) (job : BridgeCleanupJob) (answers : JobAnswers)
    (remainingRoomDeletes : Int) :
    SettlesRooms config codec job answers remainingRoomDeletes s ↔
      ¬ Completes config codec job answers (s.progress remainingRoomDeletes) ∨
        ∀ r ∈ listedRooms job answers (s.progress remainingRoomDeletes),
          Gone s.log r.roomId ∨ RoomShared codec job (answers.room r.id).audit ∨
            RoomExclusive codec job (answers.room r.id).audit := by
  have hsound := (run_sound hrun remainingRoomDeletes).discoveredRooms job answers
  unfold SettlesRooms
  rw [processJob_marks_iff]
  constructor
  · intro hsettles
    by_cases hcompletes :
        Completes config codec job answers (s.progress remainingRoomDeletes)
    · right
      intro r hr
      obtain ⟨hmem, hjob, _⟩ := CleanupRooms.mem_listBridgeCleanupRooms.mp hr
      have hcandidate : r ∈ candidates job answers (s.progress remainingRoomDeletes) :=
        List.mem_filter.mpr ⟨hmem, decide_eq_true hjob⟩
      rcases hsettles hcompletes r hcandidate with ⟨answer, hissued, hgone⟩ | hshared
      · rcases List.mem_append.mp hissued with hissued | hissued
        · exact Or.inl ⟨answer, hissued, hgone⟩
        · -- deleted in this call: then its own audit passed, for a job lists a room once
          obtain ⟨r', hr', hname, hexclusive⟩ := processJob_deleteRoom hissued
          obtain ⟨hmem', hjob', _⟩ := CleanupRooms.mem_listBridgeCleanupRooms.mp hr'
          have hid := hsound.distinct r' hmem' r hmem (hjob'.trans hjob.symm) hname
          exact Or.inr (Or.inr (hid ▸ hexclusive))
      · exact Or.inr (Or.inl hshared)
    · exact Or.inl hcompletes
  · intro hanswers hcompletes r hr
    obtain ⟨hmem, hjob⟩ := List.mem_filter.mp hr
    by_cases hstatus : r.status = .succeeded
    · exact Or.inl ((hsound.gone r hmem hstatus).append _)
    · have hlisted : r ∈ listedRooms job answers (s.progress remainingRoomDeletes) :=
        CleanupRooms.mem_listBridgeCleanupRooms.mpr ⟨hmem, of_decide_eq_true hjob, hstatus⟩
      rcases hanswers.resolve_left (not_not.mpr hcompletes) r hlisted with
        hgone | hshared | hexclusive
      · exact Or.inl (hgone.append _)
      · exact Or.inr hshared
      · left
        have hissued := hcompletes.deletes hlisted hexclusive
        exact ⟨_, List.mem_append_right _ hissued,
          (hcompletes.handled r hlisted hexclusive).2⟩

/-! ## A job of one room -/

def cleanupConfig : Config where
  executeEnabled := true
  orphanExecuteEnabled := true
  maxAttempts := 5
  retrySecs := 300
  orphanScanSecs := 300
  orphanProofRecheckSecs := 300
  roomDeleteLimit := 5

def emptyMembersCodec : RoomCodec where
  decodeMembers body :=
    if body = "\x7b\"members\":[]\x7d" then .ok [] else .error "unexpected answer"
  statusText status := toString status

def disconnectedJob : BridgeCleanupJob where
  id := 1
  userId := 7
  bridgeType := "whatsapp"
  triggerKind := "explicit_disconnect"
  expectedBridgeId := some 3
  expectedBridgeCreatedAt := some 100
  attemptCount := 0
  portalCleanupStatus := "confirmed"
  portalCleanupConfirmedAt := some 200

def absentLogin : LoginAnswers := ⟨.ok "@owner:localhost", .ran (fun _ => .ok 0)⟩

/-- Every service answers; the members request and the deletion are given. -/
def quietAnswers (members deletion : HttpOutcome) : JobAnswers where
  now := 400
  retryNow := 410
  generation := .ok none
  proofLogin := absentLogin
  proofStored := .ok ()
  discovered := none
  roomsLoaded := .ok ()
  leaseAcquired := .ok true
  finalLogin := absentLogin
  leaseGeneration := .ok none
  storageBefore := ⟨none, none⟩
  storageAfter := ⟨none, none⟩
  room := fun _ =>
    { audit := ⟨.ok 0, members, fun _ => .ok 0, absentLogin⟩
      guard := ⟨.ok true, .ok none, absentLogin, 405⟩
      deletion
      attemptStored := some 406
      resultStored := some 407 }

def seededRoom : List Action := [.seed 300 1 "ontology" ["!portal:localhost"]]

def seededStore : Store := Transition.final step Store.empty seededRoom

theorem processJob_settles_deleted_room :
    SettlesRooms cleanupConfig emptyMembersCodec disconnectedJob
      (quietAnswers (.response 200 (.ok "\x7b\"members\":[]\x7d")) (.response 200 (.ok "\x7b\x7d")))
      5 seededStore := by
  have hrun : Transition.run step Store.empty seededRoom = some seededStore :=
    Transition.run_eq_final (by decide)
  have hdecode : emptyMembersCodec.decodeMembers "\x7b\"members\":[]\x7d" = .ok [] := by rfl
  refine (processJob_settles_iff hrun _ _ _ _ _).mpr (Or.inr (fun r _ => Or.inr (Or.inr ?_)))
  exact .unshared rfl (le_refl 0) ⟨200, _, rfl, rfl, hdecode⟩ rfl (le_refl 0) rfl rfl

/-- The audit of the only room times out, and the job is marked succeeded. -/
theorem timed_out_audit_in_succeeded_job :
    ¬ ∀ (actions : List Action) (s : Store), Transition.run step Store.empty actions = some s →
      ∀ (config : Config) (codec : RoomCodec) (job : BridgeCleanupJob) (answers : JobAnswers)
        (remainingRoomDeletes : Int),
        SettlesRooms config codec job answers remainingRoomDeletes s := by
  intro h
  have hrun : Transition.run step Store.empty seededRoom = some seededStore :=
    Transition.run_eq_final (by decide)
  let answers := quietAnswers (.transportError "operation timed out") (.response 200 (.ok "\x7b\x7d"))
  have hnot : ∀ id, ¬ RoomExclusive emptyMembersCodec disconnectedJob (answers.room id).audit := by
    intro id
    rw [← auditRoom_eq_ok_iff]
    intro hok
    cases hok
  have hcompletes : Completes cleanupConfig emptyMembersCodec disconnectedJob answers
      (seededStore.progress 5) := by
    constructor
    · rfl
    · exact fun horphan => absurd horphan.1 (by decide)
    · rfl
    · unfold Allowed
      decide
    · exact fun _ => ⟨rfl, fun horphan => absurd horphan (by decide), rfl⟩
    · exact fun r _ hexclusive => absurd hexclusive (hnot r.id)
    · decide
  have hsettles := h seededRoom seededStore hrun cleanupConfig emptyMembersCodec disconnectedJob
    answers 5 (processJob_marks_iff.mpr hcompletes)
  have hcandidate : ∃ r ∈ candidates disconnectedJob answers (seededStore.progress 5),
      r.roomId = "!portal:localhost" := by decide
  obtain ⟨r, hr, _⟩ := hcandidate
  rcases hsettles r hr with ⟨answer, hissued, _⟩ | hshared
  · rcases List.mem_append.mp hissued with hissued | hissued
    · cases hissued
    · obtain ⟨r', _, _, hexclusive⟩ := processJob_deleteRoom hissued
      exact hnot r'.id hexclusive
  · cases hshared with
    | ontologyOwner howners hpos =>
        cases howners
        exact absurd hpos (lt_irrefl 0)
    | activeMember _ _ hmembers _ _ =>
        obtain ⟨_, _, hresponse, _⟩ := hmembers
        cases hresponse
    | bridgeLogin _ _ hmembers _ _ _ _ _ =>
        obtain ⟨_, _, hresponse, _⟩ := hmembers
        cases hresponse

end Lightfriend.Bridge
