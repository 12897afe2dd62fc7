import Lightfriend.Bridge.CleanupOutcome

/-! # What happens in a cleanup job

A job probes the bridge for the login of its owner, and what it issues depends on
the answers. The log of a job has its probes in their places between its effects; a
probe is dated by the clock reading its check is given. The log of an orphan's job
has one of a few shapes.
-/

namespace Lightfriend.Bridge

open Procedure

/-! ## What happens in a cycle -/

/-- A cycle takes up the job, the login of the owner is probed, an effect is issued. -/
inductive Happening
  | cycle
  | probed (now : Int) (count : Except String Int)
  | issued (e : Effect)

def Happening.effect? : Happening → Option Effect
  | .issued e => some e
  | _ => none

/-- Every call makes its probe before it issues anything. -/
def follow {α : Type} (proc : Cleanup α) (p : Progress) (probes : List Happening)
    (rest : α → Progress → List Happening) : List Happening :=
  probes ++ ((proc p).effects.map .issued ++
    match (proc p).value with
    | none => []
    | some a => rest a (proc p).state)

def proofProbe (config : Config) (job : BridgeCleanupJob) (answers : JobAnswers) :
    List Happening :=
  if job.triggerKind = orphanAudit ∧ config.orphanExecuteEnabled = true then
    [.probed answers.now (ownLoginCount answers.proofLogin job.bridgeType)]
  else []

def finalProbe (job : BridgeCleanupJob) (answers : JobAnswers) (execute : Bool) (p : Progress) :
    List Happening :=
  if job.triggerKind = orphanAudit ∧ execute = true ∧ 0 < p.remainingRoomDeletes then
    match answers.leaseAcquired with
    | .ok true => [.probed answers.now (ownLoginCount answers.finalLogin job.bridgeType)]
    | _ => []
  else []

def guardProbe (job : BridgeCleanupJob) (answers : GuardAnswers) : List Happening :=
  match answers.renewed, answers.generation with
  | .ok true, .ok none =>
      if job.triggerKind = orphanAudit then
        [.probed answers.now (ownLoginCount answers.login job.bridgeType)]
      else []
  | _, _ => []

/-- The guard is refreshed for an exclusive room that is about to be deleted. -/
def roomProbe (codec : RoomCodec) (job : BridgeCleanupJob) (plan : RoomPlan)
    (answers : RoomAnswers) (p : Progress) : List Happening :=
  match auditRoom codec job answers.audit with
  | .ok () =>
      if plan.execute = true ∧ 0 < p.remainingRoomDeletes ∧ plan.lease = true then
        guardProbe job answers.guard
      else []
  | .error _ => []

def roomsLog (config : Config) (codec : RoomCodec) (job : BridgeCleanupJob)
    (answers : JobAnswers) (plan : RoomPlan) (rest : Tally → Progress → List Happening) :
    List BridgeCleanupRoom → Tally → Progress → List Happening
  | [], tally, p => rest tally p
  | room :: rooms, tally, p =>
      follow (processRoom config codec job answers.retryNow plan room (answers.room room.id) tally)
        p (roomProbe codec job plan (answers.room room.id) p)
        (roomsLog config codec job answers plan rest rooms)

def finishLog (config : Config) (job : BridgeCleanupJob) (answers : JobAnswers) (execute : Bool)
    (tally : Tally) (p : Progress) : List Happening :=
  follow (recordFreedStorage job answers tally) p [] fun _ p =>
    follow (finishJob config job answers execute tally) p [] fun _ _ => []

def remainingLog (config : Config) (codec : RoomCodec) (job : BridgeCleanupJob)
    (answers : JobAnswers) (rooms : List BridgeCleanupRoom) (p : Progress) : List Happening :=
  let execute := bridgeCleanupExecutionAllowed job.triggerKind (portalCleanupStatus config job)
    config.executeEnabled config.orphanExecuteEnabled
  follow (cleanupLease config job answers execute) p (finalProbe job answers execute p)
    fun lease p => roomsLog config codec job answers ⟨execute, lease, auditNote config job⟩
      (finishLog config job answers execute) rooms .start p

/-- What a job does once its login is proved absent. -/
def provedLog (config : Config) (codec : RoomCodec) (job : BridgeCleanupJob)
    (answers : JobAnswers) (p : Progress) : List Happening :=
  follow (discoverVisibleServiceRooms job answers) p [] fun _ p =>
    follow (loadRooms config job answers) p [] fun rooms p =>
      remainingLog config codec job answers rooms p

/-- What `processJob` does, its probes in their places between its effects. -/
def jobLog (config : Config) (codec : RoomCodec) (job : BridgeCleanupJob) (answers : JobAnswers)
    (p : Progress) : List Happening :=
  follow (checkBridgeGeneration config job answers) p [] fun _ p =>
    follow (proveOrphan config job answers) p (proofProbe config job answers) fun _ p =>
      provedLog config codec job answers p

section Effects

variable {config : Config} {codec : RoomCodec} {job : BridgeCleanupJob} {answers : JobAnswers}
  {p : Progress} {α β : Type}

theorem effects_map_issued (effects : List Effect) :
    (effects.map Happening.issued).filterMap Happening.effect? = effects := by
  induction effects with
  | nil => rfl
  | cons e rest ih => simp [Happening.effect?, ih]

/-- Left without its probes, the log of a call and of what follows is what the two issue. -/
theorem effects_follow {proc : Cleanup α} {f : α → Cleanup β} {probes : List Happening}
    {rest : α → Progress → List Happening}
    (hprobes : probes.filterMap Happening.effect? = [])
    (hrest : ∀ a q, (rest a q).filterMap Happening.effect? = (f a q).effects) :
    (follow proc p probes rest).filterMap Happening.effect? = ((proc >>= f) p).effects := by
  rw [effects_bind]
  unfold follow
  rw [List.filterMap_append, hprobes, List.nil_append, List.filterMap_append, effects_map_issued]
  cases (proc p).value with
  | none => rfl
  | some a =>
      dsimp only
      rw [hrest]

theorem proofProbe_effects : (proofProbe config job answers).filterMap Happening.effect? = [] := by
  unfold proofProbe
  split <;> rfl

theorem finalProbe_effects (execute : Bool) :
    (finalProbe job answers execute p).filterMap Happening.effect? = [] := by
  unfold finalProbe
  split
  · split <;> rfl
  · rfl

theorem roomProbe_effects (plan : RoomPlan) (room : RoomAnswers) :
    (roomProbe codec job plan room p).filterMap Happening.effect? = [] := by
  unfold roomProbe guardProbe
  split
  · split
    · split
      · split <;> rfl
      · rfl
    · rfl
  · rfl

theorem effects_roomsLog {plan : RoomPlan} {rest : Tally → Progress → List Happening}
    {last : Tally → Cleanup β}
    (hrest : ∀ tally q, (rest tally q).filterMap Happening.effect? = (last tally q).effects)
    (rooms : List BridgeCleanupRoom) (tally : Tally) (p : Progress) :
    (roomsLog config codec job answers plan rest rooms tally p).filterMap Happening.effect? =
      ((processRooms config codec job answers plan rooms tally >>= last) p).effects := by
  induction rooms generalizing tally p with
  | nil => exact hrest tally p
  | cons room rooms ih =>
      unfold roomsLog processRooms
      rw [bind_assoc_apply]
      exact effects_follow (roomProbe_effects _ _) (fun next q => ih next q)

theorem effects_finishLog (execute : Bool) (tally : Tally) (p : Progress) :
    (finishLog config job answers execute tally p).filterMap Happening.effect? =
      ((do
        recordFreedStorage job answers tally
        finishJob config job answers execute tally : Cleanup Unit) p).effects := by
  refine effects_follow rfl (fun _ q => ?_)
  unfold follow
  rw [List.nil_append, List.filterMap_append, effects_map_issued]
  cases (finishJob config job answers execute tally q).value with
  | none => exact List.append_nil _
  | some a => exact List.append_nil _

/-- The effects of the log are the effects of the job, in their order. -/
theorem effects_jobLog (p : Progress) :
    (jobLog config codec job answers p).filterMap Happening.effect? =
      (processJob config codec job answers p).effects := by
  refine effects_follow rfl (fun _ p => ?_)
  refine effects_follow proofProbe_effects (fun _ p => ?_)
  refine effects_follow rfl (fun _ p => ?_)
  refine effects_follow rfl (fun rooms p => ?_)
  refine effects_follow (finalProbe_effects _) (fun lease p => ?_)
  exact effects_roomsLog (effects_finishLog _) rooms .start p

end Effects

/-! ## Kinds of effects -/

def reportsAbsence : Except String Int → Bool
  | .ok count => count ≤ 0
  | .error _ => false

def Effect.Deletes : Effect → Prop
  | .deleteRoom _ _ => True
  | _ => False

def Effect.Records : Effect → Prop
  | .recordLoginProof _ _ _ _ _ => True
  | _ => False

/-- The write of a probe that found a login or failed. -/
def Effect.Resets : Effect → Prop
  | .recordLoginProof _ proofStatus firstAbsentAt _ _ =>
      (proofStatus = orphanLoginPresent ∨ proofStatus = orphanLoginProbeFailed) ∧
        firstAbsentAt = none
  | _ => False

/-- Neither a write of the proof nor a deletion. -/
def Effect.Plain (e : Effect) : Prop := ¬ e.Records ∧ ¬ e.Deletes

/-- Neither probes nor writes of the proof nor deletions. -/
def AllPlain (items : List Happening) : Prop := ∀ h ∈ items, ∃ e, h = .issued e ∧ e.Plain

/-- Probes that found no login, and no write of the proof. -/
def Clear (items : List Happening) : Prop :=
  ∀ h ∈ items, (∃ t, h = .probed t (.ok 0)) ∨ ∃ e, h = .issued e ∧ ¬ e.Records

/-- A probe that stops the job: its reset is written, and nothing of interest follows. -/
def Stops (items : List Happening) : Prop :=
  ∃ t count e rest, items = .probed t count :: .issued e :: rest ∧ e.Resets ∧ AllPlain rest

theorem AllPlain.take {items : List Happening} (h : AllPlain items) (n : Nat) :
    AllPlain (items.take n) :=
  fun x hx => h x (List.mem_of_mem_take hx)

theorem Clear.take {items : List Happening} (h : Clear items) (n : Nat) : Clear (items.take n) :=
  fun x hx => h x (List.mem_of_mem_take hx)

theorem AllPlain.clear {items : List Happening} (h : AllPlain items) : Clear items := by
  intro x hx
  obtain ⟨e, rfl, hplain⟩ := h x hx
  exact Or.inr ⟨e, rfl, hplain.1⟩

/-! ## What a job comes to -/

section Shape

variable {config : Config} {codec : RoomCodec} {job : BridgeCleanupJob} {answers : JobAnswers}
  {p : Progress} {α : Type}

/-- What follows the proof: nothing is deleted, or the final check stops the job, or it finds no
login and the rooms are gone through. -/
inductive AfterProof : List Happening → Prop
  | plain {items : List Happening} (h : AllPlain items) : AfterProof items
  | stopped {items : List Happening} (h : Stops items) : AfterProof items
  | swept {t : Int} {front tail : List Happening} (hfront : Clear front)
      (htail : tail = [] ∨ Stops tail) : AfterProof (.probed t (.ok 0) :: (front ++ tail))

/-- The proof a cycle starts with, and what comes after it. -/
inductive JobShape (config : Config) (job : BridgeCleanupJob) (now : Int) : List Happening → Prop
  | idle {items : List Happening} (h : AllPlain items) : JobShape config job now items
  | stopped {items : List Happening} (h : Stops items) : JobShape config job now items
  | observed {count : Except String Int} {notBefore : Int} {detail : String}
      (habsent : reportsAbsence count = true) :
      JobShape config job now [.probed now count, .issued (.recordLoginProof job.id
        orphanLoginAbsenceObserved (some now) notBefore detail)]
  | known {count : Except String Int} {items : List Happening}
      (hverified : job.portalCleanupStatus = orphanLoginAbsentVerified)
      (habsent : reportsAbsence count = true) (h : AfterProof items) :
      JobShape config job now (.probed now count :: items)
  | verified {count : Except String Int} {notBefore : Int} {detail : String}
      {items : List Happening}
      (hready : orphanAbsenceReadyForVerification job.portalCleanupStatus
        job.portalCleanupConfirmedAt now config.orphanProofRecheckSecs = true)
      (habsent : reportsAbsence count = true) (h : AfterProof items) :
      JobShape config job now (.probed now count :: .issued (.recordLoginProof job.id
        orphanLoginAbsentVerified job.portalCleanupConfirmedAt notBefore detail) :: items)

theorem AllPlain.append {first rest : List Happening} (hfirst : AllPlain first)
    (hrest : AllPlain rest) : AllPlain (first ++ rest) := by
  intro x hx
  rcases List.mem_append.mp hx with hx | hx
  · exact hfirst x hx
  · exact hrest x hx

theorem Clear.append {first rest : List Happening} (hfirst : Clear first) (hrest : Clear rest) :
    Clear (first ++ rest) := by
  intro x hx
  rcases List.mem_append.mp hx with hx | hx
  · exact hfirst x hx
  · exact hrest x hx

theorem allPlain_issued {proc : Cleanup α} (h : OnlyIssues Effect.Plain proc) (p : Progress) :
    AllPlain ((proc p).effects.map .issued) := by
  intro x hx
  obtain ⟨e, he, rfl⟩ := List.mem_map.mp hx
  exact ⟨e, rfl, h p e he⟩

theorem clear_issued {proc : Cleanup α} (h : OnlyIssues (fun e => ¬ e.Records) proc)
    (p : Progress) : Clear ((proc p).effects.map .issued) := by
  intro x hx
  obtain ⟨e, he, rfl⟩ := List.mem_map.mp hx
  exact Or.inr ⟨e, rfl, h p e he⟩

theorem follow_plain {proc : Cleanup α} {rest : α → Progress → List Happening}
    (h : OnlyIssues Effect.Plain proc) (hrest : ∀ a q, AllPlain (rest a q)) :
    AllPlain (follow proc p [] rest) := by
  unfold follow
  rw [List.nil_append]
  refine (allPlain_issued h p).append ?_
  split
  · exact fun x hx => absurd hx List.not_mem_nil
  · exact hrest _ _

/-! ### Calls that only write the job and its rooms -/

theorem retryJob_plain (now : Int) (error : String) :
    OnlyIssues Effect.Plain (retryJob config job now error) :=
  onlyIssues_emit ⟨not_false, not_false⟩

theorem retryAndLeave_plain (now : Int) (error : String) :
    OnlyIssues Effect.Plain (retryJob config job now error >>= fun _ => (leave : Cleanup α)) :=
  (retryJob_plain now error).bind (fun _ => onlyIssues_leave)

theorem updateRoom_plain (stored : Option Int) (id : Int) (status : BridgeRoomStatus)
    (attemptCount : Int) (error : Option String) (complete : Bool) :
    OnlyIssues Effect.Plain (updateRoom stored id status attemptCount error complete) := by
  unfold updateRoom
  refine (onlyIssues_emit ⟨not_false, not_false⟩).bind (fun _ => ?_)
  cases stored with
  | none => exact onlyIssues_pure _
  | some now => exact onlyIssues_modify _

theorem checkUnderLease_plain : OnlyIssues Effect.Plain (checkUnderLease config job answers) := by
  unfold checkUnderLease
  split
  · exact onlyIssues_emit ⟨not_false, not_false⟩
  · exact (onlyIssues_emit ⟨not_false, not_false⟩).bind (fun _ => onlyIssues_leave)
  · exact retryAndLeave_plain _ _

theorem recordFreedStorage_plain (tally : Tally) :
    OnlyIssues Effect.Plain (recordFreedStorage job answers tally) := by
  unfold recordFreedStorage
  split
  · exact onlyIssues_emit ⟨not_false, not_false⟩
  · exact onlyIssues_pure _

theorem finishJob_plain (execute : Bool) (tally : Tally) :
    OnlyIssues Effect.Plain (finishJob config job answers execute tally) := by
  unfold finishJob
  split
  · exact retryJob_plain _ _
  · split
    · exact onlyIssues_emit ⟨not_false, not_false⟩
    · split
      · exact onlyIssues_emit ⟨not_false, not_false⟩
      · exact onlyIssues_emit ⟨not_false, not_false⟩

theorem finishLog_plain (execute : Bool) (tally : Tally) (p : Progress) :
    AllPlain (finishLog config job answers execute tally p) :=
  follow_plain (recordFreedStorage_plain tally) (fun _ _ =>
    follow_plain (finishJob_plain execute tally) (fun _ _ _ hx => absurd hx List.not_mem_nil))

theorem OnlyIssues.not_records {proc : Cleanup α} (h : OnlyIssues Effect.Plain proc) :
    OnlyIssues (fun e => ¬ e.Records) proc :=
  fun s e he => (h s e he).1

theorem deleteRoom_not_records (room : BridgeCleanupRoom) (reply : RoomAnswers) :
    OnlyIssues (fun e => ¬ e.Records) (deleteRoom config codec room reply) := by
  have hdelete : OnlyIssues (fun e => ¬ e.Records)
      (emit (.deleteRoom room.roomId reply.deletion) : Cleanup Unit) := by
    apply onlyIssues_emit
    exact not_false
  unfold deleteRoom
  refine (OnlyIssues.not_records (updateRoom_plain _ _ _ _ _ _)).bind (fun _ => ?_)
  refine hdelete.bind (fun _ => ?_)
  split
  · exact (OnlyIssues.not_records (updateRoom_plain _ _ _ _ _ _)).bind (fun _ => onlyIssues_pure _)
  · exact (OnlyIssues.not_records (updateRoom_plain _ _ _ _ _ _)).bind (fun _ => onlyIssues_pure _)

/-! ### The room loop -/

theorem reset_resets {jobId notBefore : Int} {proofStatus detail : String}
    (h : proofStatus = orphanLoginPresent ∨ proofStatus = orphanLoginProbeFailed) :
    (Effect.recordLoginProof jobId proofStatus none notBefore detail).Resets :=
  ⟨h, rfl⟩

/-- The check passes on no login, and otherwise writes its reset. -/
theorem finalOrphanLoginAbsenceCheck_apply (login : LoginAnswers) (now : Int) (p : Progress) :
    (ownLoginCount login job.bridgeType = .ok 0 ∧
        finalOrphanLoginAbsenceCheck config job login now p = ⟨p, [], some true⟩) ∨
      ∃ e, e.Resets ∧
        finalOrphanLoginAbsenceCheck config job login now p = ⟨p, [e], some false⟩ := by
  unfold finalOrphanLoginAbsenceCheck
  cases hcount : ownLoginCount login job.bridgeType with
  | error error => exact Or.inr ⟨_, reset_resets (Or.inr rfl), rfl⟩
  | ok count =>
      by_cases hzero : count = 0
      · subst hzero
        exact Or.inl ⟨rfl, rfl⟩
      · dsimp only
        rw [if_neg hzero]
        exact Or.inr ⟨_, reset_resets (Or.inl rfl), rfl⟩

/-- What a refresh of the guard comes to, with its probe. -/
inductive GuardShape (probes : List Happening) (effects : List Effect)
    (result : Except String Unit) : Prop
  | settled (hprobes : Clear probes) (heffects : effects = [])
  | stopped {t : Int} {count : Except String Int} {e : Effect} {error : String}
      (hprobes : probes = [.probed t count]) (heffects : effects = [e]) (he : e.Resets)
      (hresult : result = .error error)

theorem refreshCleanupGuard_shape (hkind : job.triggerKind = orphanAudit) (guard : GuardAnswers)
    (p : Progress) : ∃ effects result,
      refreshCleanupGuard config job guard p = ⟨p, effects, some result⟩ ∧
        GuardShape (guardProbe job guard) effects result := by
  have hnone : Clear [] := fun x hx => absurd hx List.not_mem_nil
  unfold refreshCleanupGuard guardProbe
  cases hrenewed : guard.renewed with
  | error error => exact ⟨_, _, rfl, .settled hnone rfl⟩
  | ok renewed =>
      cases renewed with
      | false => exact ⟨_, _, rfl, .settled hnone rfl⟩
      | true =>
          cases hgeneration : guard.generation with
          | error error => exact ⟨_, _, rfl, .settled hnone rfl⟩
          | ok current =>
              cases current with
              | some current => exact ⟨_, _, rfl, .settled hnone rfl⟩
              | none =>
                  dsimp only
                  rw [if_pos hkind, if_pos hkind]
                  rcases finalOrphanLoginAbsenceCheck_apply guard.login guard.now p with
                    ⟨hcount, happly⟩ | ⟨e, he, happly⟩
                  · rw [bind_apply happly]
                    refine ⟨_, _, rfl, .settled ?_ rfl⟩
                    intro x hx
                    rw [List.mem_singleton.mp hx, hcount]
                    exact Or.inl ⟨_, rfl⟩
                  · rw [bind_apply happly]
                    exact ⟨_, _, rfl, .stopped rfl rfl he rfl⟩

theorem deleteUnderGuard_shape (hkind : job.triggerKind = orphanAudit) (retryNow : Int)
    (room : BridgeCleanupRoom) (reply : RoomAnswers) (tally : Tally) (p : Progress) :
    Clear (guardProbe job reply.guard ++
        (deleteUnderGuard config codec job retryNow room reply tally p).effects.map .issued) ∨
      (deleteUnderGuard config codec job retryNow room reply tally p).value = none ∧
        Stops (guardProbe job reply.guard ++
          (deleteUnderGuard config codec job retryNow room reply tally p).effects.map .issued) := by
  obtain ⟨effects, result, happly, hshape⟩ := refreshCleanupGuard_shape hkind reply.guard p
  have hrefused : ∀ reason : String, OnlyIssues Effect.Plain (do
      updateRoom reply.resultStored room.id .blockedActive room.attemptCount (some reason) false
      retryJob config job retryNow reason
      leave : Cleanup Tally) :=
    fun reason => (updateRoom_plain _ _ _ _ _ _).bind (fun _ => retryAndLeave_plain _ _)
  have hdeleted : OnlyIssues (fun e => ¬ e.Records) (do
      let deleted ← deleteRoom config codec room reply
      if deleted then do
        modify (fun p => { p with remainingRoomDeletes := p.remainingRoomDeletes - 1 })
        pure { tally with deleted := tally.deleted + 1 }
      else pure { tally with failed := tally.failed + 1 } : Cleanup Tally) := by
    refine (deleteRoom_not_records room reply).bind (fun deleted => ?_)
    cases deleted with
    | true => exact (onlyIssues_modify _).bind (fun _ => onlyIssues_pure _)
    | false => exact onlyIssues_pure _
  unfold deleteUnderGuard
  rw [bind_apply happly]
  cases hshape with
  | settled hprobes heffects =>
      subst heffects
      left
      rw [List.nil_append]
      cases result with
      | error error => exact hprobes.append (allPlain_issued (hrefused _) p).clear
      | ok passed => exact hprobes.append (clear_issued hdeleted p)
  | stopped hprobes heffects he hresult =>
      subst heffects hresult
      right
      rw [hprobes]
      refine ⟨?_, _, _, _, _, rfl, he, allPlain_issued (hrefused _) p⟩
      unfold updateRoom
      cases reply.resultStored with
      | none => rfl
      | some now => rfl

/-- One turn of the loop leaves the absence uncontradicted, or stops the job. -/
theorem processRoom_shape (hkind : job.triggerKind = orphanAudit) (retryNow : Int)
    (plan : RoomPlan) (room : BridgeCleanupRoom) (reply : RoomAnswers) (tally : Tally)
    (p : Progress) :
    Clear (roomProbe codec job plan reply p ++
        (processRoom config codec job retryNow plan room reply tally p).effects.map .issued) ∨
      (processRoom config codec job retryNow plan room reply tally p).value = none ∧
        Stops (roomProbe codec job plan reply p ++
          (processRoom config codec job retryNow plan room reply tally p).effects.map .issued) := by
  have hplain : ∀ proc : Cleanup Tally, OnlyIssues Effect.Plain proc →
      Clear ([] ++ (proc p).effects.map .issued) :=
    fun proc h => (allPlain_issued h p).clear
  unfold processRoom roomProbe
  cases haudit : auditRoom codec job reply.audit with
  | error reason =>
      exact Or.inl (hplain _ ((updateRoom_plain _ _ _ _ _ _).bind (fun _ => onlyIssues_pure _)))
  | ok passed =>
      dsimp only
      unfold processExclusiveRoom
      by_cases hexecute : plan.execute = true
      · by_cases hleft : p.remainingRoomDeletes ≤ 0
        · rw [if_pos hexecute, if_neg (fun h => not_lt.mpr hleft h.2.1), read_bind_apply,
            if_pos hleft]
          exact Or.inl (hplain _ ((updateRoom_plain _ _ _ _ _ _).bind (fun _ => onlyIssues_pure _)))
        · by_cases hlease : plan.lease = true
          · rw [if_pos hexecute, if_pos ⟨hexecute, not_le.mp hleft, hlease⟩, read_bind_apply,
              if_neg hleft, if_pos hlease]
            exact deleteUnderGuard_shape hkind retryNow room reply tally p
          · rw [if_pos hexecute, if_neg (fun h => hlease h.2.2), read_bind_apply, if_neg hleft,
              if_neg hlease]
            exact Or.inl (hplain _ (retryAndLeave_plain _ _))
      · rw [if_neg hexecute, if_neg (fun h => hexecute h.1)]
        exact Or.inl (hplain _ ((updateRoom_plain _ _ _ _ _ _).bind (fun _ => onlyIssues_pure _)))

theorem follow_stop {proc : Cleanup α} {probes : List Happening}
    {rest : α → Progress → List Happening} (h : (proc p).value = none) :
    follow proc p probes rest = probes ++ (proc p).effects.map .issued := by
  unfold follow
  rw [h]
  dsimp only
  rw [List.append_nil]

theorem follow_apply {proc : Cleanup α} {probes : List Happening}
    {rest : α → Progress → List Happening} {a : α} {q : Progress} {effects : List Effect}
    (h : proc p = ⟨q, effects, some a⟩) :
    follow proc p probes rest = probes ++ (effects.map .issued ++ rest a q) := by
  unfold follow
  rw [h]

theorem roomsLog_shape (hkind : job.triggerKind = orphanAudit) (plan : RoomPlan)
    {rest : Tally → Progress → List Happening} (hrest : ∀ tally q, AllPlain (rest tally q))
    (rooms : List BridgeCleanupRoom) (tally : Tally) (p : Progress) :
    ∃ front tail, roomsLog config codec job answers plan rest rooms tally p = front ++ tail ∧
      Clear front ∧ (tail = [] ∨ Stops tail) := by
  induction rooms generalizing tally p with
  | nil => exact ⟨rest tally p, [], (List.append_nil _).symm, (hrest tally p).clear, Or.inl rfl⟩
  | cons room rooms ih =>
      unfold roomsLog
      rcases processRoom_shape hkind answers.retryNow plan room (answers.room room.id) tally p with
        hclear | ⟨hnone, hstops⟩
      · cases hvalue : (processRoom config codec job answers.retryNow plan room
            (answers.room room.id) tally p).value with
        | none =>
            rw [follow_stop hvalue]
            exact ⟨_, [], (List.append_nil _).symm, hclear, Or.inl rfl⟩
        | some next =>
            obtain ⟨front, tail, hlog, hfront, htail⟩ := ih next (processRoom config codec job
              answers.retryNow plan room (answers.room room.id) tally p).state
            refine ⟨_ ++ front, tail, ?_, hclear.append hfront, htail⟩
            unfold follow
            rw [hvalue]
            dsimp only
            rw [hlog, List.append_assoc, List.append_assoc]
      · rw [follow_stop hnone]
        exact ⟨[], _, rfl, (fun x hx => absurd hx List.not_mem_nil), Or.inr hstops⟩

/-- Without the lease nothing is deleted. -/
theorem processRoom_plain {plan : RoomPlan} (hlease : plan.lease = false) (retryNow : Int)
    (room : BridgeCleanupRoom) (reply : RoomAnswers) (tally : Tally) :
    OnlyIssues Effect.Plain (processRoom config codec job retryNow plan room reply tally) := by
  unfold processRoom
  split
  · unfold processExclusiveRoom
    split
    · refine onlyIssues_read.bind (fun p => ?_)
      split
      · exact (updateRoom_plain _ _ _ _ _ _).bind (fun _ => onlyIssues_pure _)
      · rw [if_neg (by rw [hlease]; exact Bool.false_ne_true)]
        exact retryAndLeave_plain _ _
    · exact (updateRoom_plain _ _ _ _ _ _).bind (fun _ => onlyIssues_pure _)
  · exact (updateRoom_plain _ _ _ _ _ _).bind (fun _ => onlyIssues_pure _)

theorem roomsLog_plain {plan : RoomPlan} (hlease : plan.lease = false)
    {rest : Tally → Progress → List Happening} (hrest : ∀ tally q, AllPlain (rest tally q))
    (rooms : List BridgeCleanupRoom) (tally : Tally) (p : Progress) :
    AllPlain (roomsLog config codec job answers plan rest rooms tally p) := by
  induction rooms generalizing tally p with
  | nil => exact hrest tally p
  | cons room rooms ih =>
      have hprobe : roomProbe codec job plan (answers.room room.id) p = [] := by
        unfold roomProbe
        split
        · exact if_neg (fun h => Bool.false_ne_true (hlease.symm.trans h.2.2))
        · rfl
      unfold roomsLog
      rw [hprobe]
      exact follow_plain (processRoom_plain hlease _ _ _ _) (fun next q => ih next q)

/-! ### The lease and the proof -/

theorem remainingLog_plain (rooms : List BridgeCleanupRoom)
    (hnot : ¬ (bridgeCleanupExecutionAllowed job.triggerKind (portalCleanupStatus config job)
      config.executeEnabled config.orphanExecuteEnabled = true ∧ 0 < p.remainingRoomDeletes)) :
    AllPlain (remainingLog config codec job answers rooms p) := by
  have hlease : cleanupLease config job answers (bridgeCleanupExecutionAllowed job.triggerKind
      (portalCleanupStatus config job) config.executeEnabled config.orphanExecuteEnabled) p =
        ⟨p, [], some false⟩ := by
    unfold cleanupLease
    rw [read_bind_apply, if_neg hnot]
    rfl
  unfold remainingLog finalProbe
  dsimp only
  rw [if_neg (fun h => hnot h.2), follow_apply hlease]
  exact roomsLog_plain rfl (finishLog_plain _) rooms .start p

theorem remainingLog_shape (hkind : job.triggerKind = orphanAudit)
    (rooms : List BridgeCleanupRoom) (p : Progress) :
    AfterProof (remainingLog config codec job answers rooms p) := by
  by_cases htake : bridgeCleanupExecutionAllowed job.triggerKind (portalCleanupStatus config job)
      config.executeEnabled config.orphanExecuteEnabled = true ∧ 0 < p.remainingRoomDeletes
  · unfold remainingLog finalProbe
    dsimp only
    rw [if_pos ⟨hkind, htake⟩]
    have hread : ∀ acquire : Cleanup Unit, acquireCleanupLease config job answers = acquire →
        cleanupLease config job answers (bridgeCleanupExecutionAllowed job.triggerKind
          (portalCleanupStatus config job) config.executeEnabled config.orphanExecuteEnabled) p =
            (acquire >>= fun _ => pure true) p := by
      rintro acquire rfl
      unfold cleanupLease
      rw [read_bind_apply, if_pos htake]
    have hstuck : ∀ (text : String) (rest : Bool → Progress → List Happening),
        acquireCleanupLease config job answers =
          (retryJob config job answers.retryNow text >>= fun _ => leave) →
            AllPlain (follow (cleanupLease config job answers (bridgeCleanupExecutionAllowed
              job.triggerKind (portalCleanupStatus config job) config.executeEnabled
              config.orphanExecuteEnabled)) p [] rest) := by
      intro text rest hacquire
      have hplain : OnlyIssues Effect.Plain
          ((retryJob config job answers.retryNow text >>= fun _ => (leave : Cleanup Unit)) >>=
            fun _ => (pure true : Cleanup Bool)) :=
        (retryAndLeave_plain _ _).bind (fun _ => onlyIssues_pure _)
      have hlease := hread _ hacquire
      rw [follow_stop (by rw [hlease]; rfl), hlease]
      exact allPlain_issued hplain p
    cases hacquired : answers.leaseAcquired with
    | error error => exact .plain (hstuck _ _ (by unfold acquireCleanupLease; rw [hacquired]))
    | ok acquired =>
        cases acquired with
        | false => exact .plain (hstuck _ _ (by unfold acquireCleanupLease; rw [hacquired]))
        | true =>
            have hlease := hread (recheckOrphan config job answers >>= fun _ =>
              checkUnderLease config job answers) (by unfold acquireCleanupLease; rw [hacquired])
            rw [bind_assoc_apply] at hlease
            rcases finalOrphanLoginAbsenceCheck_apply answers.finalLogin answers.now p with
              ⟨hcount, happly⟩ | ⟨e, he, happly⟩
            · have hrecheck : recheckOrphan config job answers p = ⟨p, [], some ()⟩ := by
                unfold recheckOrphan
                rw [if_pos hkind, bind_apply happly]
                rfl
              have hchecks : OnlyIssues Effect.Plain
                  (checkUnderLease config job answers >>= fun _ => (pure true : Cleanup Bool)) :=
                checkUnderLease_plain.bind (fun _ => onlyIssues_pure _)
              rw [bind_apply hrecheck] at hlease
              unfold follow
              rw [hlease, hcount]
              dsimp only
              rw [List.nil_append, List.singleton_append]
              have hfront := (allPlain_issued hchecks p).clear
              cases hvalue : ((checkUnderLease config job answers >>= fun _ =>
                  (pure true : Cleanup Bool)) p).value with
              | none =>
                  dsimp only
                  exact .swept hfront (Or.inl rfl)
              | some lease =>
                  obtain ⟨front, tail, hlog, hclear, htail⟩ := roomsLog_shape hkind
                    ⟨_, lease, auditNote config job⟩ (finishLog_plain _) rooms .start
                    ((checkUnderLease config job answers >>= fun _ =>
                      (pure true : Cleanup Bool)) p).state
                  dsimp only
                  rw [hlog, ← List.append_assoc]
                  exact .swept (hfront.append hclear) htail
            · have hrecheck : recheckOrphan config job answers p = ⟨p, [e], none⟩ := by
                unfold recheckOrphan
                rw [if_pos hkind, bind_apply happly]
                rfl
              rw [bind_stop hrecheck] at hlease
              rw [follow_stop (by rw [hlease]), hlease]
              exact .stopped ⟨_, _, e, [], rfl, he, fun _ hx => absurd hx List.not_mem_nil⟩
  · exact .plain (remainingLog_plain rooms htake)

theorem afterProof_nil : AfterProof [] := .plain (fun _ hx => absurd hx List.not_mem_nil)

theorem loadRooms_cases (p : Progress) :
    (∃ rooms, loadRooms config job answers p = ⟨p, [], some rooms⟩) ∨
      (loadRooms config job answers p).value = none ∧
        AllPlain ((loadRooms config job answers p).effects.map .issued) := by
  unfold loadRooms
  cases answers.roomsLoaded with
  | ok loaded => exact Or.inl ⟨_, rfl⟩
  | error error => exact Or.inr ⟨rfl, allPlain_issued (retryAndLeave_plain _ _) p⟩

theorem provedLog_shape (hkind : job.triggerKind = orphanAudit) (p : Progress) :
    AfterProof (provedLog config codec job answers p) := by
  unfold provedLog
  rw [follow_apply (show discoverVisibleServiceRooms job answers p =
    ⟨{ p with rooms := discoveredRooms job answers p.rooms }, [], some ()⟩ from rfl)]
  rcases loadRooms_cases { p with rooms := discoveredRooms job answers p.rooms } with
    ⟨rooms, hload⟩ | ⟨hnone, hplain⟩
  · rw [follow_apply hload]
    exact remainingLog_shape hkind rooms _
  · rw [follow_stop hnone]
    exact .plain hplain

/-- With the execution of orphans switched off a job only audits. -/
theorem provedLog_plain (hkind : job.triggerKind = orphanAudit)
    (hdisabled : config.orphanExecuteEnabled = false) (p : Progress) :
    AllPlain (provedLog config codec job answers p) := by
  have hexecute : bridgeCleanupExecutionAllowed job.triggerKind (portalCleanupStatus config job)
      config.executeEnabled config.orphanExecuteEnabled = false := by
    unfold bridgeCleanupExecutionAllowed
    rw [hkind, hdisabled]
    cases config.executeEnabled with
    | false => rfl
    | true => rfl
  unfold provedLog
  rw [follow_apply (show discoverVisibleServiceRooms job answers p =
    ⟨{ p with rooms := discoveredRooms job answers p.rooms }, [], some ()⟩ from rfl)]
  rcases loadRooms_cases { p with rooms := discoveredRooms job answers p.rooms } with
    ⟨rooms, hload⟩ | ⟨hnone, hplain⟩
  · rw [follow_apply hload]
    exact remainingLog_plain rooms (fun h => Bool.false_ne_true (hexecute.symm.trans h.1))
  · rw [follow_stop hnone]
    exact hplain

/-- What the proof of a cycle writes, and whether the job goes on. -/
inductive ProofShape (config : Config) (job : BridgeCleanupJob) (now : Int)
    (count : Except String Int) : List Effect → Bool → Prop
  | reset {e : Effect} (he : e.Resets) : ProofShape config job now count [e] false
  | observed {notBefore : Int} {detail : String} (habsent : reportsAbsence count = true) :
      ProofShape config job now count [.recordLoginProof job.id orphanLoginAbsenceObserved
        (some now) notBefore detail] false
  | known (hverified : job.portalCleanupStatus = orphanLoginAbsentVerified)
      (habsent : reportsAbsence count = true) : ProofShape config job now count [] true
  | verified {notBefore : Int} {detail : String} {proved : Bool}
      (hready : orphanAbsenceReadyForVerification job.portalCleanupStatus
        job.portalCleanupConfirmedAt now config.orphanProofRecheckSecs = true)
      (habsent : reportsAbsence count = true) :
      ProofShape config job now count [.recordLoginProof job.id orphanLoginAbsentVerified
        job.portalCleanupConfirmedAt notBefore detail] proved

theorem prepareOrphanLoginProof_shape (config : Config) (job : BridgeCleanupJob)
    (answers : JobAnswers) (p : Progress) : ∃ effects proved,
    prepareOrphanLoginProof config job answers p = ⟨p, effects, some proved⟩ ∧
      ProofShape config job answers.now (ownLoginCount answers.proofLogin job.bridgeType) effects
        proved := by
  unfold prepareOrphanLoginProof
  cases hcount : ownLoginCount answers.proofLogin job.bridgeType with
  | error error => exact ⟨_, _, rfl, .reset (reset_resets (Or.inr rfl))⟩
  | ok count =>
      dsimp only
      by_cases hpos : 0 < count
      · rw [if_pos hpos]
        exact ⟨_, _, rfl, .reset (reset_resets (Or.inl rfl))⟩
      · have habsent : reportsAbsence (.ok count) = true := decide_eq_true (not_lt.mp hpos)
        rw [if_neg hpos]
        by_cases hverified : job.portalCleanupStatus = orphanLoginAbsentVerified
        · rw [if_pos hverified]
          exact ⟨_, _, rfl, .known hverified habsent⟩
        · rw [if_neg hverified]
          by_cases hready : orphanAbsenceReadyForVerification job.portalCleanupStatus
              job.portalCleanupConfirmedAt answers.now config.orphanProofRecheckSecs = true
          · rw [if_pos hready]
            cases answers.proofStored with
            | ok stored => exact ⟨_, _, rfl, .verified hready habsent⟩
            | error error => exact ⟨_, _, rfl, .verified hready habsent⟩
          · rw [if_neg hready]
            exact ⟨_, _, rfl, .observed habsent⟩

theorem checkBridgeGeneration_plain :
    OnlyIssues Effect.Plain (checkBridgeGeneration config job answers) := by
  unfold checkBridgeGeneration
  split
  · exact onlyIssues_pure _
  · split
    · exact (onlyIssues_emit ⟨not_false, not_false⟩).bind (fun _ => onlyIssues_leave)
    · exact (onlyIssues_emit ⟨not_false, not_false⟩).bind (fun _ => onlyIssues_leave)
  · exact retryAndLeave_plain _ _

theorem proveOrphan_apply (hkind : job.triggerKind = orphanAudit)
    (henabled : config.orphanExecuteEnabled = true) {effects : List Effect} {proved : Bool}
    (h : prepareOrphanLoginProof config job answers p = ⟨p, effects, some proved⟩) :
    proveOrphan config job answers p =
      ⟨p, effects, if proved = true then some () else none⟩ := by
  unfold proveOrphan
  rw [if_pos ⟨hkind, henabled⟩, bind_apply h]
  cases proved with
  | true =>
      change (⟨p, effects ++ [], some ()⟩ : Outcome Progress Effect Unit) = ⟨p, effects, some ()⟩
      rw [List.append_nil]
  | false =>
      change (⟨p, effects ++ [], none⟩ : Outcome Progress Effect Unit) = ⟨p, effects, none⟩
      rw [List.append_nil]

/-- Every cycle over an orphan's job has one of the shapes. -/
theorem jobLog_shape (hkind : job.triggerKind = orphanAudit) (p : Progress) :
    JobShape config job answers.now (jobLog config codec job answers p) := by
  unfold jobLog
  by_cases hgeneration : answers.generation = .ok none
  · have hcheck : checkBridgeGeneration config job answers p = ⟨p, [], some ()⟩ := by
      unfold checkBridgeGeneration
      rw [hgeneration]
      rfl
    rw [follow_apply hcheck]
    unfold proofProbe
    by_cases henabled : config.orphanExecuteEnabled = true
    · rw [if_pos ⟨hkind, henabled⟩]
      obtain ⟨effects, proved, happly, hshape⟩ :=
        prepareOrphanLoginProof_shape config job answers p
      have hprove := proveOrphan_apply hkind henabled happly
      have hrest : AfterProof (provedLog config codec job answers p) := provedLog_shape hkind p
      cases hshape with
      | reset he =>
          rw [follow_stop (by rw [hprove]; rfl), hprove]
          exact .stopped ⟨_, _, _, [], rfl, he, fun _ hx => absurd hx List.not_mem_nil⟩
      | observed habsent =>
          rw [follow_stop (by rw [hprove]; rfl), hprove]
          exact .observed habsent
      | known hverified habsent =>
          rw [follow_apply hprove]
          exact .known hverified habsent hrest
      | verified hready habsent =>
          cases proved with
          | true =>
              rw [follow_apply hprove]
              exact .verified hready habsent hrest
          | false =>
              rw [follow_stop (by rw [hprove]; rfl), hprove]
              exact .verified hready habsent afterProof_nil
    · have hprove : proveOrphan config job answers p = ⟨p, [], some ()⟩ := by
        unfold proveOrphan
        rw [if_neg (fun h => henabled h.2)]
        rfl
      rw [if_neg (fun h => henabled h.2), follow_apply hprove]
      exact .idle (provedLog_plain hkind (Bool.not_eq_true _ ▸ henabled) p)
  · have hnone : (checkBridgeGeneration config job answers p).value = none := by
      cases hvalue : (checkBridgeGeneration config job answers p).value with
      | none => rfl
      | some u => exact absurd (checkBridgeGeneration_goes.mp ⟨hvalue, rfl⟩).1 hgeneration
    rw [follow_stop hnone]
    exact .idle (allPlain_issued checkBridgeGeneration_plain p)

end Shape

end Lightfriend.Bridge
