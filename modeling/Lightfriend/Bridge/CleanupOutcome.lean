import Lightfriend.Bridge.DisconnectedCleanup

/-! # When a cleanup job is marked succeeded

The gates before the rooms, the clean pass over the rooms, and from them the
exact condition under which a job is marked.
-/

namespace Lightfriend.Bridge

open Procedure

/-- The statement that marks the job succeeded. -/
def Effect.MarksSucceeded (jobId : Int) : Effect → Prop
  | .updateJob id status _ _ _ _ => id = jobId ∧ status = .succeeded
  | _ => False

instance (jobId : Int) : DecidablePred (Effect.MarksSucceeded jobId) := fun e => by
  unfold Effect.MarksSucceeded
  cases e <;> infer_instance

/-- The effect leaves the verdict on the job open, and deletes only rooms in `doomed`. -/
def Effect.Within (jobId : Int) (doomed : String → Prop) : Effect → Prop
  | .updateJob id status _ _ _ _ => ¬ (id = jobId ∧ status = .succeeded)
  | .deleteRoom roomId _ => doomed roomId
  | _ => True

theorem Effect.Within.not_marks {jobId : Int} {doomed : String → Prop} {e : Effect}
    (h : e.Within jobId doomed) : ¬ e.MarksSucceeded jobId := by
  cases e with
  | updateJob => exact h
  | updateRoom => exact not_false
  | recordLoginProof => exact not_false
  | recordStorage => exact not_false
  | deleteRoom => exact not_false

section Gates

variable {config : Config} {codec : RoomCodec} {job : BridgeCleanupJob} {answers : JobAnswers}
  {p q : Progress} {doomed : String → Prop}

/-! ## No gate marks the job or deletes a room -/

theorem retryJob_within (now : Int) (error : String) :
    OnlyIssues (Effect.Within job.id doomed) (retryJob config job now error) := by
  unfold retryJob
  apply onlyIssues_emit
  rintro ⟨_, hstatus⟩
  split at hstatus <;> cases hstatus

theorem updateRoom_within (stored : Option Int) (id : Int) (status : BridgeRoomStatus)
    (attemptCount : Int) (error : Option String) (complete : Bool) :
    OnlyIssues (Effect.Within job.id doomed)
      (updateRoom stored id status attemptCount error complete) := by
  unfold updateRoom
  refine (onlyIssues_emit trivial).bind (fun _ => ?_)
  cases stored with
  | none => exact onlyIssues_pure _
  | some now => exact onlyIssues_modify _

theorem finalOrphanLoginAbsenceCheck_within (login : LoginAnswers) (now : Int) :
    OnlyIssues (Effect.Within job.id doomed)
      (finalOrphanLoginAbsenceCheck config job login now) := by
  unfold finalOrphanLoginAbsenceCheck
  split
  · split
    · exact onlyIssues_pure _
    · exact (onlyIssues_emit trivial).bind (fun _ => onlyIssues_pure _)
  · exact (onlyIssues_emit trivial).bind (fun _ => onlyIssues_pure _)

theorem checkBridgeGeneration_within :
    OnlyIssues (Effect.Within job.id doomed) (checkBridgeGeneration config job answers) := by
  unfold checkBridgeGeneration
  split
  · exact onlyIssues_pure _
  · split
    · refine (onlyIssues_emit ?_).bind (fun _ => onlyIssues_leave)
      rintro ⟨_, hstatus⟩
      cases hstatus
    · refine (onlyIssues_emit ?_).bind (fun _ => onlyIssues_leave)
      rintro ⟨_, hstatus⟩
      cases hstatus
  · exact (retryJob_within _ _).bind (fun _ => onlyIssues_leave)

theorem prepareOrphanLoginProof_within :
    OnlyIssues (Effect.Within job.id doomed) (prepareOrphanLoginProof config job answers) := by
  have hrecord : ∀ (e : Effect) (rest : Cleanup Bool), e.Within job.id doomed →
      OnlyIssues (Effect.Within job.id doomed) rest →
        OnlyIssues (Effect.Within job.id doomed) (emit e >>= fun _ => rest) :=
    fun e rest he hrest => (onlyIssues_emit he).bind (fun _ => hrest)
  unfold prepareOrphanLoginProof
  split
  · exact hrecord _ _ trivial (onlyIssues_pure _)
  · split
    · exact hrecord _ _ trivial (onlyIssues_pure _)
    · split
      · exact onlyIssues_pure _
      · split
        · refine hrecord _ _ trivial ?_
          split
          · exact onlyIssues_pure _
          · exact onlyIssues_pure _
        · exact hrecord _ _ trivial (onlyIssues_pure _)

theorem proveOrphan_within :
    OnlyIssues (Effect.Within job.id doomed) (proveOrphan config job answers) := by
  unfold proveOrphan
  split
  · refine prepareOrphanLoginProof_within.bind (fun proved => ?_)
    cases proved with
    | true => exact onlyIssues_pure _
    | false => exact onlyIssues_leave
  · exact onlyIssues_pure _

theorem loadRooms_within :
    OnlyIssues (Effect.Within job.id doomed) (loadRooms config job answers) := by
  unfold loadRooms
  split
  · exact onlyIssues_read.bind (fun _ => onlyIssues_pure _)
  · exact (retryJob_within _ _).bind (fun _ => onlyIssues_leave)

theorem cleanupLease_within (execute : Bool) :
    OnlyIssues (Effect.Within job.id doomed) (cleanupLease config job answers execute) := by
  have hcheck : OnlyIssues (Effect.Within job.id doomed)
      (checkUnderLease config job answers) := by
    unfold checkUnderLease
    split
    · exact onlyIssues_emit trivial
    · refine (onlyIssues_emit ?_).bind (fun _ => onlyIssues_leave)
      rintro ⟨_, hstatus⟩
      cases hstatus
    · exact (retryJob_within _ _).bind (fun _ => onlyIssues_leave)
  have horphan : OnlyIssues (Effect.Within job.id doomed)
      (recheckOrphan config job answers) := by
    unfold recheckOrphan
    split
    · refine (finalOrphanLoginAbsenceCheck_within _ _).bind (fun absent => ?_)
      cases absent with
      | true => exact onlyIssues_pure _
      | false => exact onlyIssues_leave
    · exact onlyIssues_pure _
  have hacquire : OnlyIssues (Effect.Within job.id doomed)
      (acquireCleanupLease config job answers) := by
    unfold acquireCleanupLease
    split
    · exact horphan.bind (fun _ => hcheck)
    · exact (retryJob_within _ _).bind (fun _ => onlyIssues_leave)
    · exact (retryJob_within _ _).bind (fun _ => onlyIssues_leave)
  unfold cleanupLease
  refine onlyIssues_read.bind (fun p => ?_)
  split
  · exact hacquire.bind (fun _ => onlyIssues_pure _)
  · exact onlyIssues_pure _

theorem refreshCleanupGuard_within (guard : GuardAnswers) :
    OnlyIssues (Effect.Within job.id doomed) (refreshCleanupGuard config job guard) := by
  unfold refreshCleanupGuard
  split
  · exact onlyIssues_pure _
  · exact onlyIssues_pure _
  · split
    · exact onlyIssues_pure _
    · exact onlyIssues_pure _
    · split
      · refine (finalOrphanLoginAbsenceCheck_within _ _).bind (fun absent => ?_)
        cases absent with
        | true => exact onlyIssues_pure _
        | false => exact onlyIssues_pure _
      · exact onlyIssues_pure _

theorem deleteRoom_within {room : BridgeCleanupRoom} (hdoomed : doomed room.roomId)
    (answers : RoomAnswers) :
    OnlyIssues (Effect.Within job.id doomed) (deleteRoom config codec room answers) := by
  unfold deleteRoom
  refine (updateRoom_within _ _ _ _ _ _).bind (fun _ => ?_)
  have hdelete : (Effect.deleteRoom room.roomId answers.deletion).Within job.id doomed := hdoomed
  refine (onlyIssues_emit hdelete).bind (fun _ => ?_)
  split
  · exact (updateRoom_within _ _ _ _ _ _).bind (fun _ => onlyIssues_pure _)
  · exact (updateRoom_within _ _ _ _ _ _).bind (fun _ => onlyIssues_pure _)

theorem processRoom_within {room : BridgeCleanupRoom} {answers : RoomAnswers}
    (hdoomed : RoomExclusive codec job answers.audit → doomed room.roomId) (retryNow : Int)
    (plan : RoomPlan) (tally : Tally) :
    OnlyIssues (Effect.Within job.id doomed)
      (processRoom config codec job retryNow plan room answers tally) := by
  unfold processRoom
  split
  next haudit =>
    have hroom := hdoomed (auditRoom_eq_ok_iff.mp haudit)
    unfold processExclusiveRoom
    split
    · refine onlyIssues_read.bind (fun p => ?_)
      split
      · exact (updateRoom_within _ _ _ _ _ _).bind (fun _ => onlyIssues_pure _)
      · split
        · unfold deleteUnderGuard
          refine (refreshCleanupGuard_within _).bind (fun guard => ?_)
          split
          · refine (updateRoom_within _ _ _ _ _ _).bind (fun _ => ?_)
            exact (retryJob_within _ _).bind (fun _ => onlyIssues_leave)
          · refine (deleteRoom_within hroom _).bind (fun deleted => ?_)
            cases deleted with
            | true => exact (onlyIssues_modify _).bind (fun _ => onlyIssues_pure _)
            | false => exact onlyIssues_pure _
        · exact (retryJob_within _ _).bind (fun _ => onlyIssues_leave)
    · exact (updateRoom_within _ _ _ _ _ _).bind (fun _ => onlyIssues_pure _)
  · exact (updateRoom_within _ _ _ _ _ _).bind (fun _ => onlyIssues_pure _)

/-- Only exclusive rooms of the list are deleted. -/
theorem processRooms_within {rooms : List BridgeCleanupRoom}
    (hdoomed : ∀ r ∈ rooms, RoomExclusive codec job (answers.room r.id).audit → doomed r.roomId)
    (plan : RoomPlan) (tally : Tally) :
    OnlyIssues (Effect.Within job.id doomed)
      (processRooms config codec job answers plan rooms tally) := by
  induction rooms generalizing tally with
  | nil => exact onlyIssues_pure _
  | cons room rest ih =>
      refine (processRoom_within (hdoomed room List.mem_cons_self) _ _ _).bind (fun next => ?_)
      exact ih (fun r hr => hdoomed r (List.mem_cons_of_mem _ hr)) next

/-! ## When the gates are passed -/

/-- The proof an orphan job needs before it may delete. -/
structure OrphanProofHolds (config : Config) (job : BridgeCleanupJob) (answers : JobAnswers) :
    Prop where
  absent : ∃ count, ownLoginCount answers.proofLogin job.bridgeType = .ok count ∧ count ≤ 0
  verified : job.portalCleanupStatus = orphanLoginAbsentVerified ∨
    (orphanAbsenceReadyForVerification job.portalCleanupStatus job.portalCleanupConfirmedAt
      answers.now config.orphanProofRecheckSecs = true ∧ answers.proofStored = .ok ())

/-- The checks made with the lease in hand. -/
structure LeaseHeld (job : BridgeCleanupJob) (answers : JobAnswers) : Prop where
  acquired : answers.leaseAcquired = .ok true
  login : job.triggerKind = orphanAudit →
    ownLoginCount answers.finalLogin job.bridgeType = .ok 0
  generation : answers.leaseGeneration = .ok none

theorem checkBridgeGeneration_goes {u : Unit} :
    Goes (checkBridgeGeneration config job answers) p u q ↔
      answers.generation = .ok none ∧ p = q := by
  unfold checkBridgeGeneration
  cases answers.generation with
  | error error => simp
  | ok current =>
      cases current with
      | none => simp
      | some current =>
          by_cases hsame : job.expectedBridgeId = some current.id ∧
              job.expectedBridgeCreatedAt = current.createdAt
          · simp [hsame]
          · simp only [if_neg hsame]
            simp

theorem prepareOrphanLoginProof_goes :
    Goes (prepareOrphanLoginProof config job answers) p true q ↔
      OrphanProofHolds config job answers ∧ p = q := by
  have hholds : OrphanProofHolds config job answers ↔
      (∃ count, ownLoginCount answers.proofLogin job.bridgeType = .ok count ∧ count ≤ 0) ∧
      (job.portalCleanupStatus = orphanLoginAbsentVerified ∨
        (orphanAbsenceReadyForVerification job.portalCleanupStatus job.portalCleanupConfirmedAt
          answers.now config.orphanProofRecheckSecs = true ∧ answers.proofStored = .ok ())) :=
    ⟨fun h => ⟨h.absent, h.verified⟩, fun h => ⟨h.1, h.2⟩⟩
  rw [hholds]
  unfold prepareOrphanLoginProof
  cases hcount : ownLoginCount answers.proofLogin job.bridgeType with
  | error error => simp
  | ok count =>
      by_cases hpos : 0 < count
      · simp [hpos]
      · by_cases hverified : job.portalCleanupStatus = orphanLoginAbsentVerified
        · simp [hpos, hverified, not_lt.mp hpos]
        · by_cases hready : orphanAbsenceReadyForVerification job.portalCleanupStatus
              job.portalCleanupConfirmedAt answers.now config.orphanProofRecheckSecs = true
          · cases hstored : answers.proofStored with
            | ok stored => simp [hpos, hverified, hready, not_lt.mp hpos]
            | error error => simp [hpos, hverified, hready]
          · simp [hpos, hverified, hready]

theorem proveOrphan_goes {u : Unit} :
    Goes (proveOrphan config job answers) p u q ↔
      (job.triggerKind = orphanAudit ∧ config.orphanExecuteEnabled = true →
        OrphanProofHolds config job answers) ∧ p = q := by
  unfold proveOrphan
  by_cases horphan : job.triggerKind = orphanAudit ∧ config.orphanExecuteEnabled = true
  · rw [if_pos horphan, goes_bind]
    constructor
    · rintro ⟨proved, mid, hproof, hrest⟩
      cases proved with
      | true =>
          obtain ⟨hholds, rfl⟩ := prepareOrphanLoginProof_goes.1 hproof
          exact ⟨fun _ => hholds, by simpa using hrest⟩
      | false => simp at hrest
    · rintro ⟨hholds, rfl⟩
      exact ⟨true, p, prepareOrphanLoginProof_goes.2 ⟨hholds horphan, rfl⟩, by simp⟩
  · rw [if_neg horphan, goes_pure]
    constructor
    · exact fun h => ⟨fun h' => absurd h' horphan, h.2⟩
    · exact fun h => ⟨rfl, h.2⟩

theorem loadRooms_goes {rooms : List BridgeCleanupRoom} :
    Goes (loadRooms config job answers) p rooms q ↔
      answers.roomsLoaded = .ok () ∧ p.rooms.listBridgeCleanupRooms job.id = rooms ∧ p = q := by
  unfold loadRooms
  cases answers.roomsLoaded with
  | error error => simp
  | ok loaded =>
      simp only [goes_bind, goes_read, goes_pure, true_and]
      constructor
      · rintro ⟨a, mid, ⟨rfl, rfl⟩, hrooms, rfl⟩
        exact ⟨hrooms, rfl⟩
      · rintro ⟨hrooms, rfl⟩
        exact ⟨p, p, ⟨rfl, rfl⟩, hrooms, rfl⟩

theorem checkUnderLease_goes {u : Unit} :
    Goes (checkUnderLease config job answers) p u q ↔
      answers.leaseGeneration = .ok none ∧ p = q := by
  unfold checkUnderLease
  cases answers.leaseGeneration with
  | error error => simp
  | ok current => cases current <;> simp

theorem recheckOrphan_goes {u : Unit} :
    Goes (recheckOrphan config job answers) p u q ↔
      (job.triggerKind = orphanAudit →
        ownLoginCount answers.finalLogin job.bridgeType = .ok 0) ∧ p = q := by
  unfold recheckOrphan
  by_cases hkind : job.triggerKind = orphanAudit
  · obtain ⟨absent, hgoes, hiff⟩ := finalOrphanLoginAbsenceCheck_goes config job
      answers.finalLogin answers.now p
    rw [if_pos hkind, goes_bind]
    constructor
    · rintro ⟨seen, mid, hseen, hrest⟩
      obtain ⟨rfl, rfl⟩ := hgoes.unique hseen
      cases absent with
      | true => exact ⟨fun _ => hiff.mp rfl, by simpa using hrest⟩
      | false => simp at hrest
    · rintro ⟨hlogin, rfl⟩
      have habsent : absent = true := hiff.mpr (hlogin hkind)
      subst habsent
      exact ⟨true, p, hgoes, by simp⟩
  · rw [if_neg hkind, goes_pure]
    constructor
    · exact fun h => ⟨fun h' => absurd h' hkind, h.2⟩
    · exact fun h => ⟨rfl, h.2⟩

theorem acquireCleanupLease_goes {u : Unit} :
    Goes (acquireCleanupLease config job answers) p u q ↔ LeaseHeld job answers ∧ p = q := by
  unfold acquireCleanupLease
  cases hacquired : answers.leaseAcquired with
  | error error =>
      constructor
      · intro h
        simp at h
      · rintro ⟨hheld, _⟩
        simpa [hacquired] using hheld.acquired
  | ok acquired =>
      cases acquired with
      | false =>
          constructor
          · intro h
            simp at h
          · rintro ⟨hheld, _⟩
            simpa [hacquired] using hheld.acquired
      | true =>
          simp only [goes_bind, recheckOrphan_goes, checkUnderLease_goes]
          constructor
          · rintro ⟨_, mid, ⟨hlogin, rfl⟩, hgeneration, rfl⟩
            exact ⟨⟨hacquired, hlogin, hgeneration⟩, rfl⟩
          · rintro ⟨hheld, rfl⟩
            exact ⟨(), p, ⟨hheld.login, rfl⟩, hheld.generation, rfl⟩

theorem cleanupLease_goes {execute lease : Bool} :
    Goes (cleanupLease config job answers execute) p lease q ↔
      (lease = decide (execute = true ∧ 0 < p.remainingRoomDeletes)) ∧
        (execute = true ∧ 0 < p.remainingRoomDeletes → LeaseHeld job answers) ∧ p = q := by
  unfold cleanupLease
  simp only [goes_bind, goes_read]
  by_cases htake : execute = true ∧ 0 < p.remainingRoomDeletes
  · constructor
    · rintro ⟨a, mid, ⟨rfl, rfl⟩, hrest⟩
      simp only [if_pos htake, goes_bind, acquireCleanupLease_goes, goes_pure] at hrest
      obtain ⟨_, state, ⟨hheld, rfl⟩, rfl, rfl⟩ := hrest
      exact ⟨by simp [htake], fun _ => hheld, rfl⟩
    · rintro ⟨rfl, hheld, rfl⟩
      refine ⟨p, p, ⟨rfl, rfl⟩, ?_⟩
      simp only [if_pos htake, goes_bind, acquireCleanupLease_goes, goes_pure]
      exact ⟨(), p, ⟨hheld htake, rfl⟩, by simp [htake], rfl⟩
  · constructor
    · rintro ⟨a, mid, ⟨rfl, rfl⟩, hrest⟩
      simp only [if_neg htake, goes_pure] at hrest
      obtain ⟨rfl, rfl⟩ := hrest
      exact ⟨by simp [htake], fun h => absurd h htake, rfl⟩
    · rintro ⟨rfl, _, rfl⟩
      refine ⟨p, p, ⟨rfl, rfl⟩, ?_⟩
      simp [htake]

end Gates

/-! ## A clean pass over the rooms -/

/-- An exclusive room passes the guard, and its deletion is confirmed. -/
def RoomHandled (codec : RoomCodec) (job : BridgeCleanupJob) (answers : RoomAnswers) : Prop :=
  RoomExclusive codec job answers.audit →
    GuardPasses job answers.guard ∧ confirmsGone answers.deletion = true

/-- How many of the rooms are exclusive. -/
def exclusiveCount (codec : RoomCodec) (job : BridgeCleanupJob) (answers : JobAnswers)
    (rooms : List BridgeCleanupRoom) : Nat :=
  rooms.countP (fun r => RoomExclusive codec job (answers.room r.id).audit)

/-- The pass ends, no deletion of it failed and none was put off. -/
def Clean (pass : Cleanup Tally) (p : Progress) : Prop :=
  ∃ tally q, Goes pass p tally q ∧ tally.failed = 0 ∧ tally.deferred = 0

section Rooms

variable {config : Config} {codec : RoomCodec} {job : BridgeCleanupJob} {answers : JobAnswers}
  {plan : RoomPlan} {room : BridgeCleanupRoom} {tally : Tally} {p q : Progress} {retryNow : Int}

/-- With the guard passed, a deletion is counted as confirmed or as failed. -/
theorem deleteUnderGuard_of_pass (config : Config) (codec : RoomCodec) (retryNow : Int)
    (room : BridgeCleanupRoom) (tally : Tally) (p : Progress) {answers : RoomAnswers}
    (h : GuardPasses job answers.guard) :
    ∃ q, Goes (deleteUnderGuard config codec job retryNow room answers tally) p
        (if confirmsGone answers.deletion then { tally with deleted := tally.deleted + 1 }
          else { tally with failed := tally.failed + 1 }) q ∧
      q.remainingRoomDeletes =
        if confirmsGone answers.deletion then p.remainingRoomDeletes - 1
          else p.remainingRoomDeletes := by
  obtain ⟨guard, hguard, hpasses⟩ := refreshCleanupGuard_goes config job answers.guard p
  obtain ⟨last, hdelete, hsame⟩ := deleteRoom_goes config codec room answers p
  have hok := hpasses.mpr h
  subst hok
  unfold deleteUnderGuard
  simp only [goes_bind]
  cases hgone : confirmsGone answers.deletion with
  | true =>
      rw [hgone] at hdelete
      refine ⟨{ last with remainingRoomDeletes := last.remainingRoomDeletes - 1 },
        ⟨_, p, hguard, ?_⟩, ?_⟩
      · simp only [goes_bind]
        exact ⟨true, last, hdelete, by simp⟩
      · simp [hsame]
  | false =>
      rw [hgone] at hdelete
      refine ⟨last, ⟨_, p, hguard, ?_⟩, ?_⟩
      · simp only [goes_bind]
        exact ⟨false, last, hdelete, by simp⟩
      · simpa using hsame

theorem deleteUnderGuard_issues (config : Config) (codec : RoomCodec) (retryNow : Int)
    (room : BridgeCleanupRoom) (tally : Tally) (p : Progress) {answers : RoomAnswers}
    (h : GuardPasses job answers.guard) :
    Issues (deleteUnderGuard config codec job retryNow room answers tally) p
      (.deleteRoom room.roomId answers.deletion) := by
  obtain ⟨guard, hguard, hpasses⟩ := refreshCleanupGuard_goes config job answers.guard p
  obtain ⟨first, hfirst, _⟩ := updateRoom_goes answers.attemptStored room.id .deleting
    (saturatingAdd room.attemptCount 1) none false p
  have hok := hpasses.mpr h
  subst hok
  unfold deleteUnderGuard
  refine issues_bind.mpr (Or.inr ⟨_, p, hguard, issues_bind.mpr (Or.inl ?_)⟩)
  unfold deleteRoom
  refine issues_bind.mpr (Or.inr ⟨(), first, hfirst, issues_bind.mpr (Or.inl ?_)⟩)
  exact issues_emit.mpr rfl

/-- Without the guard the job stops. -/
theorem deleteUnderGuard_of_not_pass {answers : RoomAnswers} {next : Tally}
    (h : ¬ GuardPasses job answers.guard) :
    ¬ Goes (deleteUnderGuard config codec job retryNow room answers tally) p next q := by
  intro hgoes
  obtain ⟨guard, hguard, hpasses⟩ := refreshCleanupGuard_goes config job answers.guard p
  unfold deleteUnderGuard at hgoes
  obtain ⟨seen, mid, hseen, hrest⟩ := goes_bind.mp hgoes
  obtain ⟨rfl, rfl⟩ := hguard.unique hseen
  cases guard with
  | error error => simp at hrest
  | ok passed => exact h (hpasses.mp rfl)

/-- What one turn of the loop comes to while deletions are allowed. -/
inductive RoomTurn (codec : RoomCodec) (job : BridgeCleanupJob) (room : BridgeCleanupRoom)
    (answers : RoomAnswers) (turn : Cleanup Tally) (tally : Tally) (p : Progress) : Prop
  | blocked {q : Progress} (h : ¬ RoomExclusive codec job answers.audit)
      (hgoes : Goes turn p { tally with blocked := tally.blocked + 1 } q)
      (hsame : q.remainingRoomDeletes = p.remainingRoomDeletes)
  | deferred {q : Progress} (h : RoomExclusive codec job answers.audit)
      (hlimit : p.remainingRoomDeletes ≤ 0)
      (hgoes : Goes turn p { tally with deferred := tally.deferred + 1 } q)
      (hsame : q.remainingRoomDeletes = p.remainingRoomDeletes)
  | stopped (h : RoomExclusive codec job answers.audit)
      (hguard : ¬ GuardPasses job answers.guard) (hstop : ∀ next q, ¬ Goes turn p next q)
  | failed {q : Progress} (h : RoomExclusive codec job answers.audit)
      (hgone : confirmsGone answers.deletion = false)
      (hgoes : Goes turn p { tally with failed := tally.failed + 1 } q)
      (hsame : q.remainingRoomDeletes = p.remainingRoomDeletes)
  | deleted {q : Progress} (h : RoomExclusive codec job answers.audit)
      (hleft : 0 < p.remainingRoomDeletes) (hguard : GuardPasses job answers.guard)
      (hgone : confirmsGone answers.deletion = true)
      (hgoes : Goes turn p { tally with deleted := tally.deleted + 1 } q)
      (hone : q.remainingRoomDeletes = p.remainingRoomDeletes - 1)
      (hissues : Issues turn p (.deleteRoom room.roomId answers.deletion))

/-- With a deletion left and the lease in hand, an exclusive room is deleted under the guard. -/
theorem processExclusiveRoom_eq (config : Config) (codec : RoomCodec) (job : BridgeCleanupJob)
    (retryNow : Int) (room : BridgeCleanupRoom) (answers : RoomAnswers) (tally : Tally)
    (hexecute : plan.execute = true) (hlease : plan.lease = true) (hleft : ¬ p.remainingRoomDeletes ≤ 0) :
    processExclusiveRoom config codec job retryNow plan room answers tally p =
      deleteUnderGuard config codec job retryNow room answers tally p := by
  unfold processExclusiveRoom
  rw [if_pos hexecute, read_bind_apply, if_neg hleft, if_pos hlease]

theorem processRoom_turn (config : Config) (codec : RoomCodec) (job : BridgeCleanupJob)
    (retryNow : Int) (room : BridgeCleanupRoom) (answers : RoomAnswers) (tally : Tally)
    (hexecute : plan.execute = true) (hlease : plan.lease = true ∨ p.remainingRoomDeletes ≤ 0) :
    RoomTurn codec job room answers
      (processRoom config codec job retryNow plan room answers tally) tally p := by
  unfold processRoom
  cases haudit : auditRoom codec job answers.audit with
  | error reason =>
      have hexclusive : ¬ RoomExclusive codec job answers.audit := by
        rw [← auditRoom_eq_ok_iff, haudit]
        simp
      obtain ⟨q, hgoes, hsame⟩ := updateRoom_goes answers.resultStored room.id
        .blockedActive room.attemptCount (some reason) true p
      exact .blocked hexclusive (goes_bind.mpr ⟨(), q, hgoes, goes_pure.mpr ⟨rfl, rfl⟩⟩) hsame
  | ok passed =>
      have hexclusive := auditRoom_eq_ok_iff.mp haudit
      by_cases hlimit : p.remainingRoomDeletes ≤ 0
      · obtain ⟨q, hgoes, hsame⟩ := updateRoom_goes answers.resultStored room.id .auditReady
          room.attemptCount (some "eligible; deferred by per-cycle destructive canary limit") false p
        refine .deferred hexclusive hlimit ?_ hsame
        simp only [processExclusiveRoom, if_pos hexecute, Goes, read_bind_apply, if_pos hlimit]
        exact goes_bind.mpr ⟨(), q, hgoes, goes_pure.mpr ⟨rfl, rfl⟩⟩
      · have hrest := processExclusiveRoom_eq config codec job retryNow room answers tally hexecute
          (hlease.resolve_right hlimit) hlimit
        by_cases hguard : GuardPasses job answers.guard
        · obtain ⟨q, hgoes, hleft⟩ := deleteUnderGuard_of_pass config codec retryNow room tally p
            hguard
          have hissues := deleteUnderGuard_issues config codec retryNow room tally p hguard
          cases hgone : confirmsGone answers.deletion with
          | true =>
              rw [hgone, if_pos rfl] at hgoes hleft
              refine .deleted hexclusive (not_le.mp hlimit) hguard hgone ?_ hleft ?_
              · simpa only [Goes, hrest] using hgoes
              · simpa only [Issues, hrest] using hissues
          | false =>
              rw [hgone, if_neg Bool.false_ne_true] at hgoes hleft
              refine .failed hexclusive hgone ?_ hleft
              simpa only [Goes, hrest] using hgoes
        · refine .stopped hexclusive hguard (fun next q h => ?_)
          have hdelete : Goes (deleteUnderGuard config codec job retryNow room answers tally) p
              next q := by simpa only [Goes, hrest] using h
          exact deleteUnderGuard_of_not_pass hguard hdelete

theorem clean_processRooms_cons {rest : List BridgeCleanupRoom} :
    Clean (processRooms config codec job answers plan (room :: rest) tally) p ↔
      ∃ next mid, Goes (processRoom config codec job answers.retryNow plan room
        (answers.room room.id) tally) p next mid ∧
          Clean (processRooms config codec job answers plan rest next) mid := by
  simp only [Clean, processRooms, goes_bind]
  constructor
  · rintro ⟨last, q, ⟨next, mid, hfirst, hrest⟩, hclean⟩
    exact ⟨next, mid, hfirst, last, q, hrest, hclean⟩
  · rintro ⟨next, mid, hfirst, last, q, hrest, hclean⟩
    exact ⟨last, q, ⟨next, mid, hfirst, hrest⟩, hclean⟩

theorem clean_processRooms_of_goes {rest : List BridgeCleanupRoom} {next : Tally}
    (h : Goes (processRoom config codec job answers.retryNow plan room (answers.room room.id)
      tally) p next q) :
    Clean (processRooms config codec job answers plan (room :: rest) tally) p ↔
      Clean (processRooms config codec job answers plan rest next) q := by
  rw [clean_processRooms_cons]
  constructor
  · rintro ⟨seen, mid, hseen, hclean⟩
    obtain ⟨rfl, rfl⟩ := h.unique hseen
    exact hclean
  · exact fun hclean => ⟨next, q, h, hclean⟩

/-- The pass is clean exactly when every exclusive room is handled and the deletions left in
the cycle cover them. -/
theorem clean_processRooms_iff (hexecute : plan.execute = true) {rooms : List BridgeCleanupRoom}
    (hlease : plan.lease = true ∨ p.remainingRoomDeletes ≤ 0) :
    Clean (processRooms config codec job answers plan rooms tally) p ↔
      (tally.failed = 0 ∧ tally.deferred = 0) ∧
        (∀ r ∈ rooms, RoomHandled codec job (answers.room r.id)) ∧
          (exclusiveCount codec job answers rooms : Int) ≤ max p.remainingRoomDeletes 0 := by
  induction rooms generalizing tally p with
  | nil => simp [Clean, processRooms, exclusiveCount]
  | cons room rest ih =>
      rw [List.forall_mem_cons]
      have hturn := processRoom_turn config codec job answers.retryNow room
        (answers.room room.id) tally hexecute hlease
      have hcount : exclusiveCount codec job answers (room :: rest) =
          exclusiveCount codec job answers rest +
            if RoomExclusive codec job (answers.room room.id).audit then 1 else 0 := by
        simp [exclusiveCount, List.countP_cons]
      cases hturn with
      | blocked hexclusive hgoes hsame =>
          rw [clean_processRooms_of_goes hgoes, ih (hsame ▸ hlease), hcount, if_neg hexclusive,
            hsame]
          have hhandled : RoomHandled codec job (answers.room room.id) :=
            fun h => absurd h hexclusive
          simp only [hhandled, true_and, Nat.add_zero]
      | deferred hexclusive hlimit hgoes hsame =>
          rw [clean_processRooms_of_goes hgoes, ih (hsame ▸ hlease), hcount, if_pos hexclusive]
          simp only
          omega
      | stopped hexclusive hguard hstop =>
          rw [clean_processRooms_cons]
          constructor
          · rintro ⟨next, mid, hgoes, _⟩
            exact absurd hgoes (hstop next mid)
          · rintro ⟨_, ⟨hhandled, _⟩, _⟩
            exact absurd (hhandled hexclusive).1 hguard
      | failed hexclusive hgone hgoes hsame =>
          rw [clean_processRooms_of_goes hgoes, ih (hsame ▸ hlease)]
          constructor
          · rintro ⟨⟨hfailed, _⟩, _⟩
            simp at hfailed
          · rintro ⟨_, ⟨hhandled, _⟩, _⟩
            have hconfirmed := (hhandled hexclusive).2
            rw [hgone] at hconfirmed
            cases hconfirmed
      | deleted hexclusive hleft hguard hgone hgoes hone _ =>
          have hheld : plan.lease = true := hlease.resolve_right (not_le.mpr hleft)
          rw [clean_processRooms_of_goes hgoes, ih (Or.inl hheld), hcount, if_pos hexclusive, hone]
          have hhandled : RoomHandled codec job (answers.room room.id) := fun _ => ⟨hguard, hgone⟩
          simp only [hhandled, true_and]
          have hle : ((exclusiveCount codec job answers rest : Int) ≤
                max (p.remainingRoomDeletes - 1) 0) ↔
              (((exclusiveCount codec job answers rest + 1 : Nat) : Int) ≤
                max p.remainingRoomDeletes 0) := by
            omega
          rw [hle]

/-- A clean pass has sent the deletion of every exclusive room. -/
theorem Clean.issues (hexecute : plan.execute = true) {rooms : List BridgeCleanupRoom}
    (hlease : plan.lease = true ∨ p.remainingRoomDeletes ≤ 0)
    (hclean : Clean (processRooms config codec job answers plan rooms tally) p)
    (hroom : room ∈ rooms) (hexclusive : RoomExclusive codec job (answers.room room.id).audit) :
    Issues (processRooms config codec job answers plan rooms tally) p
      (.deleteRoom room.roomId (answers.room room.id).deletion) := by
  induction rooms generalizing tally p with
  | nil => cases hroom
  | cons first rest ih =>
      have hturn := processRoom_turn config codec job answers.retryNow first
        (answers.room first.id) tally hexecute hlease
      have hall := (clean_processRooms_iff hexecute hlease).mp hclean
      have hlater : ∀ next q, Goes (processRoom config codec job answers.retryNow plan first
          (answers.room first.id) tally) p next q →
            (plan.lease = true ∨ q.remainingRoomDeletes ≤ 0) → room ∈ rest →
              Issues (processRooms config codec job answers plan (first :: rest) tally) p
                (.deleteRoom room.roomId (answers.room room.id).deletion) := by
        intro next q hgoes hheld hrest
        have hcleanRest := (clean_processRooms_of_goes hgoes).mp hclean
        exact issues_bind.mpr (Or.inr ⟨next, q, hgoes, ih hheld hcleanRest hrest⟩)
      cases hturn with
      | blocked hnot hgoes hsame =>
          rcases List.mem_cons.mp hroom with rfl | hrest
          · exact absurd hexclusive hnot
          · exact hlater _ _ hgoes (hsame ▸ hlease) hrest
      | deferred _ _ hgoes hsame =>
          have hdeferred := ((clean_processRooms_iff hexecute (hsame ▸ hlease)).mp
            ((clean_processRooms_of_goes hgoes).mp hclean)).1.2
          simp at hdeferred
      | stopped hfirst hguard _ => exact absurd (hall.2.1 first List.mem_cons_self hfirst).1 hguard
      | failed hfirst hgone _ _ =>
          have hconfirmed := (hall.2.1 first List.mem_cons_self hfirst).2
          rw [hgone] at hconfirmed
          cases hconfirmed
      | deleted _ hleft _ _ hgoes _ hissues =>
          rcases List.mem_cons.mp hroom with rfl | hrest
          · exact issues_bind.mpr (Or.inl hissues)
          · exact hlater _ _ hgoes (Or.inl (hlease.resolve_right (not_le.mpr hleft))) hrest

end Rooms

/-! ## The mark -/

/-- The procedure marks the job succeeded. -/
def Marks {α : Type} (jobId : Int) (proc : Cleanup α) (p : Progress) : Prop :=
  ∃ e, Issues proc p e ∧ e.MarksSucceeded jobId

theorem marks_bind {α β : Type} {jobId : Int} {proc : Cleanup α} {f : α → Cleanup β}
    {p : Progress} (h : OnlyIssues (Effect.Within jobId (fun _ => True)) proc) :
    Marks jobId (proc >>= f) p ↔ ∃ a mid, Goes proc p a mid ∧ Marks jobId (f a) mid := by
  constructor
  · rintro ⟨e, hissues, hmarks⟩
    obtain ⟨a, mid, hgoes, hrest⟩ := (h.issues_bind_iff (fun hwithin => hwithin.not_marks hmarks)).mp hissues
    exact ⟨a, mid, hgoes, e, hrest, hmarks⟩
  · rintro ⟨a, mid, hgoes, e, hrest, hmarks⟩
    exact ⟨e, issues_bind.mpr (Or.inr ⟨a, mid, hgoes, hrest⟩), hmarks⟩

section Mark

variable {config : Config} {codec : RoomCodec} {job : BridgeCleanupJob} {answers : JobAnswers}
  {p q : Progress} {doomed : String → Prop}

/-- Does the policy let the job delete? -/
def Allowed (config : Config) (job : BridgeCleanupJob) : Prop :=
  bridgeCleanupExecutionAllowed job.triggerKind (portalCleanupStatus config job)
    config.executeEnabled config.orphanExecuteEnabled = true

/-- The candidate rooms the job works on. -/
def listedRooms (job : BridgeCleanupJob) (answers : JobAnswers) (p : Progress) :
    List BridgeCleanupRoom :=
  (discoveredRooms job answers p.rooms).listBridgeCleanupRooms job.id

/-- Every gate before the rooms is passed, every exclusive room is deleted under the guard, and
the deletions left in the cycle cover them. -/
structure Completes (config : Config) (codec : RoomCodec) (job : BridgeCleanupJob)
    (answers : JobAnswers) (p : Progress) : Prop where
  generation : answers.generation = .ok none
  proof : job.triggerKind = orphanAudit ∧ config.orphanExecuteEnabled = true →
    OrphanProofHolds config job answers
  loaded : answers.roomsLoaded = .ok ()
  allowed : Allowed config job
  lease : 0 < p.remainingRoomDeletes → LeaseHeld job answers
  handled : ∀ r ∈ listedRooms job answers p, RoomHandled codec job (answers.room r.id)
  limit : (exclusiveCount codec job answers (listedRooms job answers p) : Int) ≤
    max p.remainingRoomDeletes 0

theorem finishJob_marks_iff {execute : Bool} {tally : Tally} :
    Marks job.id (finishJob config job answers execute tally) p ↔
      execute = true ∧ tally.failed = 0 ∧ tally.deferred = 0 := by
  unfold finishJob
  by_cases hfailed : 0 < tally.failed
  · simp only [if_pos hfailed]
    constructor
    · rintro ⟨e, hissues, hmarks⟩
      have hwithin : e.Within job.id (fun _ => True) := retryJob_within _ _ _ _ hissues
      exact absurd hmarks hwithin.not_marks
    · rintro ⟨_, hnone, _⟩
      omega
  · simp only [if_neg hfailed]
    by_cases hdone : execute = true ∧ tally.deferred = 0
    · rw [if_pos hdone]
      constructor
      · exact fun _ => ⟨hdone.1, by omega, hdone.2⟩
      · exact fun _ => ⟨_, issues_emit.mpr rfl, rfl, rfl⟩
    · rw [if_neg hdone]
      constructor
      · rintro ⟨e, hissues, hmarks⟩
        split at hissues
        · rw [issues_emit] at hissues
          subst hissues
          cases hmarks.2
        · rw [issues_emit] at hissues
          subst hissues
          cases hmarks.2
      · exact fun h => absurd ⟨h.1, h.2.2⟩ hdone

theorem recordFreedStorage_within (tally : Tally) :
    OnlyIssues (Effect.Within job.id doomed) (recordFreedStorage job answers tally) := by
  unfold recordFreedStorage
  split
  · exact onlyIssues_emit trivial
  · exact onlyIssues_pure _

theorem recordFreedStorage_goes {tally : Tally} {u : Unit} :
    Goes (recordFreedStorage job answers tally) p u q ↔ p = q := by
  unfold recordFreedStorage
  split <;> simp

/-- After the rooms are loaded, the mark is a clean pass with the lease in hand. -/
theorem processRemaining_marks_iff {rooms : List BridgeCleanupRoom} :
    Marks job.id (processRemaining config codec job answers rooms) p ↔
      Allowed config job ∧ (0 < p.remainingRoomDeletes → LeaseHeld job answers) ∧
        (∀ r ∈ rooms, RoomHandled codec job (answers.room r.id)) ∧
          (exclusiveCount codec job answers rooms : Int) ≤ max p.remainingRoomDeletes 0 := by
  have hpass : ∀ (execute lease : Bool) (mid : Progress),
      Marks job.id (processRooms config codec job answers
          ⟨execute, lease, auditNote config job⟩ rooms .start >>= fun tally => do
            recordFreedStorage job answers tally
            finishJob config job answers execute tally) mid ↔
        execute = true ∧ Clean (processRooms config codec job answers
          ⟨execute, lease, auditNote config job⟩ rooms .start) mid := by
    intro execute lease mid
    rw [marks_bind (processRooms_within (fun _ _ _ => trivial) _ _)]
    simp only [marks_bind (recordFreedStorage_within _), recordFreedStorage_goes,
      finishJob_marks_iff, Clean]
    constructor
    · rintro ⟨tally, q, hgoes, _, _, rfl, hexecute, hclean⟩
      exact ⟨hexecute, tally, q, hgoes, hclean⟩
    · rintro ⟨hexecute, tally, q, hgoes, hclean⟩
      exact ⟨tally, q, hgoes, (), q, rfl, hexecute, hclean⟩
  unfold processRemaining Allowed
  rw [marks_bind (cleanupLease_within _)]
  simp only [hpass, cleanupLease_goes]
  constructor
  · rintro ⟨lease, mid, ⟨rfl, hheld, rfl⟩, hexecute, hclean⟩
    have hclean' := (clean_processRooms_iff hexecute (by simp [hexecute]; omega)).mp hclean
    exact ⟨hexecute, fun hleft => hheld ⟨hexecute, hleft⟩, hclean'.2⟩
  · rintro ⟨hexecute, hheld, hrooms⟩
    refine ⟨_, p, ⟨rfl, fun h => hheld h.2, rfl⟩, hexecute, ?_⟩
    exact (clean_processRooms_iff hexecute (by simp [hexecute]; omega)).mpr
      ⟨⟨rfl, rfl⟩, hrooms⟩

/-- A job is marked succeeded exactly when it completes; no verdict of an audit that failed
takes part in it. -/
theorem processJob_marks_iff :
    Marks job.id (processJob config codec job answers) p ↔
      Completes config codec job answers p := by
  unfold processJob
  rw [marks_bind checkBridgeGeneration_within]
  simp only [marks_bind proveOrphan_within, marks_bind loadRooms_within,
    marks_bind (onlyIssues_modify (fun p => { p with rooms := discoveredRooms job answers p.rooms })),
    discoverVisibleServiceRooms, checkBridgeGeneration_goes, proveOrphan_goes, goes_modify,
    loadRooms_goes, processRemaining_marks_iff]
  constructor
  · rintro ⟨_, _, ⟨hgeneration, rfl⟩, _, _, ⟨hproof, rfl⟩, _, _, rfl, rooms, _,
      ⟨hloaded, rfl, rfl⟩, hallowed, hlease, hhandled, hlimit⟩
    exact ⟨hgeneration, hproof, hloaded, hallowed, hlease, hhandled, hlimit⟩
  · intro h
    exact ⟨(), p, ⟨h.generation, rfl⟩, (), p, ⟨h.proof, rfl⟩, (), _, rfl, _, _,
      ⟨h.loaded, rfl, rfl⟩, h.allowed, h.lease, h.handled, h.limit⟩

/-- The effects of the later parts of a job are its effects, once its gates are passed. -/
theorem Completes.issues_of_rooms (h : Completes config codec job answers p) {e : Effect}
    (he : Issues (processRooms config codec job answers
      ⟨true, decide (0 < p.remainingRoomDeletes), auditNote config job⟩ (listedRooms job answers p)
      .start) { p with rooms := discoveredRooms job answers p.rooms } e) :
    Issues (processJob config codec job answers) p e := by
  have hallowed : bridgeCleanupExecutionAllowed job.triggerKind (portalCleanupStatus config job)
      config.executeEnabled config.orphanExecuteEnabled = true := h.allowed
  have hgeneration : Goes (checkBridgeGeneration config job answers) p () p :=
    checkBridgeGeneration_goes.2 ⟨h.generation, rfl⟩
  have hproof : Goes (proveOrphan config job answers) p () p := proveOrphan_goes.2 ⟨h.proof, rfl⟩
  refine issues_bind.mpr (Or.inr ⟨(), p, hgeneration, ?_⟩)
  refine issues_bind.mpr (Or.inr ⟨(), p, hproof, ?_⟩)
  refine issues_bind.mpr (Or.inr ⟨(), _, goes_modify.mpr rfl, ?_⟩)
  refine issues_bind.mpr (Or.inr ⟨_, _, loadRooms_goes.2 ⟨h.loaded, rfl, rfl⟩, ?_⟩)
  unfold processRemaining
  rw [hallowed]
  refine issues_bind.mpr (Or.inr ⟨_, _, cleanupLease_goes.2 ⟨rfl, fun hleft => h.lease hleft.2,
    rfl⟩, ?_⟩)
  refine issues_bind.mpr (Or.inl ?_)
  simpa only [true_and, listedRooms] using he

/-- A job that completes has sent the deletion of every exclusive room. -/
theorem Completes.deletes (h : Completes config codec job answers p) {r : BridgeCleanupRoom}
    (hr : r ∈ listedRooms job answers p)
    (hexclusive : RoomExclusive codec job (answers.room r.id).audit) :
    Issues (processJob config codec job answers) p
      (.deleteRoom r.roomId (answers.room r.id).deletion) := by
  have hlease : decide (0 < p.remainingRoomDeletes) = true ∨ p.remainingRoomDeletes ≤ 0 := by
    by_cases hleft : 0 < p.remainingRoomDeletes
    · exact Or.inl (decide_eq_true hleft)
    · exact Or.inr (not_lt.mp hleft)
  apply h.issues_of_rooms
  exact Clean.issues rfl hlease
    ((clean_processRooms_iff rfl hlease).mpr ⟨⟨rfl, rfl⟩, h.handled, h.limit⟩) hr hexclusive

/-- A job deletes only rooms on its list whose audit found them exclusive. -/
theorem processJob_deleteRoom {roomId : String} {answer : HttpOutcome}
    (h : Issues (processJob config codec job answers) p (.deleteRoom roomId answer)) :
    ∃ r ∈ listedRooms job answers p, r.roomId = roomId ∧
      RoomExclusive codec job (answers.room r.id).audit := by
  have hgate : ¬ (Effect.deleteRoom roomId answer).Within job.id (fun _ => False) := not_false
  unfold processJob at h
  obtain ⟨_, mid, hgoes, h⟩ := (checkBridgeGeneration_within.issues_bind_iff hgate).mp h
  obtain ⟨_, rfl⟩ := checkBridgeGeneration_goes.1 hgoes
  obtain ⟨_, mid, hgoes, h⟩ := (proveOrphan_within.issues_bind_iff hgate).mp h
  obtain ⟨_, rfl⟩ := proveOrphan_goes.1 hgoes
  obtain ⟨_, mid, hgoes, h⟩ := ((onlyIssues_modify _).issues_bind_iff hgate).mp h
  obtain rfl := goes_modify.mp hgoes
  obtain ⟨rooms, mid, hgoes, h⟩ := (loadRooms_within.issues_bind_iff hgate).mp h
  obtain ⟨_, rfl, rfl⟩ := loadRooms_goes.1 hgoes
  unfold processRemaining at h
  obtain ⟨lease, mid, _, h⟩ := ((cleanupLease_within _).issues_bind_iff hgate).mp h
  have hrest : OnlyIssues (Effect.Within job.id (fun roomId => ∃ r ∈ listedRooms job answers p,
      r.roomId = roomId ∧ RoomExclusive codec job (answers.room r.id).audit))
      (processRooms config codec job answers
        ⟨bridgeCleanupExecutionAllowed job.triggerKind (portalCleanupStatus config job)
          config.executeEnabled config.orphanExecuteEnabled, lease, auditNote config job⟩
        (listedRooms job answers p) .start) :=
    processRooms_within (fun r hr hexclusive => ⟨r, hr, rfl, hexclusive⟩) _ _
  rcases issues_bind.mp h with h | ⟨tally, mid', _, h⟩
  · exact hrest _ _ h
  · exfalso
    obtain ⟨_, _, _, h⟩ := ((recordFreedStorage_within _).issues_bind_iff hgate).mp h
    unfold finishJob at h
    split at h
    · exact hgate (retryJob_within _ _ _ _ h)
    · split at h
      · cases issues_emit.mp h
      · split at h
        · cases issues_emit.mp h
        · cases issues_emit.mp h

end Mark

end Lightfriend.Bridge
