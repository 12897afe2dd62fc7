import Lightfriend.Bridge.Cleanup

/-! # The audit and the deletion of one room

A room is deleted only when its audit finds nobody else in it. The audit has two
definite answers: the room is shared, or it is exclusive to the owner of the job.
Everything that keeps it from an answer is an error, and errors and shared rooms
are the same to the caller.
-/

namespace Lightfriend.Bridge

open Procedure

/-! ## Identity and login probes -/

/-- How the probe of the bridge database ended. -/
inductive LoginProbe
  | timedOut
  | taskFailed (detail : String)
  | ran (query : List String → Except String Int)

def bridgeDatabaseEnvName (bridgeType : String) : Option String :=
  if bridgeType = "whatsapp" then some "WHATSAPP_BRIDGE_DATABASE_URL"
  else if bridgeType = "signal" then some "SIGNAL_BRIDGE_DATABASE_URL"
  else if bridgeType = "telegram" then some "TELEGRAM_BRIDGE_DATABASE_URL"
  else none

/-- `BridgeLoginRepository::login_count`; `query` is the count in the bridge's own database. -/
def loginCount (query : List String → Except String Int) (bridgeType : String)
    (matrixUserIds : List String) : Except String Int :=
  if matrixUserIds.isEmpty then .ok 0
  else
    match bridgeDatabaseEnvName bridgeType with
    | none => .error s!"unsupported bridge type {bridgeType}"
    | some _ => query matrixUserIds

def bridgeLoginCount (probe : LoginProbe) (bridgeType : String) (matrixUserIds : List String) :
    Except String Int :=
  match probe with
  | .timedOut => .error "bridge login database probe timed out"
  | .taskFailed detail => .error s!"bridge login database probe task failed: {detail}"
  | .ran query => loginCount query bridgeType matrixUserIds

/-- What a check of the owner's own bridge logins reads. -/
structure LoginAnswers where
  matrixUserId : Except String String
  probe : LoginProbe

/-- The owner's Matrix identity, and then the logins the bridge has for it. -/
def ownLoginCount (answers : LoginAnswers) (bridgeType : String) : Except String Int :=
  match answers.matrixUserId with
  | .ok matrixUserId => bridgeLoginCount answers.probe bridgeType [matrixUserId]
  | .error error => .error error

def finalOrphanLoginAbsenceCheck (config : Config) (job : BridgeCleanupJob)
    (answers : LoginAnswers) (now : Int) : Cleanup Bool :=
  match ownLoginCount answers job.bridgeType with
  | .ok count =>
      if count = 0 then pure true
      else do
        emit (.recordLoginProof job.id orphanLoginPresent none
          (saturatingAdd now config.orphanScanSecs)
          s!"final bridge login recheck found rows={count}; rooms retained")
        pure false
  | .error error => do
      emit (.recordLoginProof job.id orphanLoginProbeFailed none
        (saturatingAdd now config.retrySecs) s!"final bridge login recheck failed: {error}")
      pure false

/-! ## The audit -/

structure AuditAnswers where
  ontologyOwners : Except String Int
  members : HttpOutcome
  activeMembers : List String → Except String Int
  login : LoginAnswers

/-- The text between `@` and the first colon. -/
def memberLocalpart (member : String) : Option String :=
  match member.toList with
  | '@' :: rest =>
      if ':' ∈ rest then some (String.ofList (rest.takeWhile (· ≠ ':'))) else none
  | _ => none

def activeBridgeMembers (query : List String → Except String Int) (localparts : List String) :
    Except String Int :=
  if localparts.isEmpty then .ok 0 else query localparts

/-- The members of the room, or `none` when the homeserver knows no such room. -/
def roomMembers (codec : RoomCodec) : HttpOutcome → Except String (Option (List String))
  | .transportError error => .error s!"admin room-members request failed: {error}"
  | .response status body =>
      if status = notFound then .ok none
      else
        match body with
        | .error error => .error s!"admin room-members body failed: {error}"
        | .ok body =>
            if isSuccess status then
              match codec.decodeMembers body with
              | .ok members => .ok (some members)
              | .error error => .error s!"admin room-members invalid JSON: {error}; body={body}"
            else .error s!"admin room-members returned {codec.statusText status}: {body}"

def auditMembers (job : BridgeCleanupJob) (answers : AuditAnswers) (members : List String) :
    Except String Unit :=
  match activeBridgeMembers answers.activeMembers (members.filterMap memberLocalpart) with
  | .error error => .error s!"active Matrix member check failed: {error}"
  | .ok activeMembers =>
      if 0 < activeMembers then
        .error s!"shared room has {activeMembers} other active Matrix member(s)"
      else
        match answers.login.matrixUserId with
        | .error error => .error s!"room owner Matrix identity check failed: {error}"
        | .ok owner =>
            match bridgeLoginCount answers.login.probe job.bridgeType
                (members.filter (· ≠ owner)) with
            | .error error => .error s!"shared room bridge-login safety check failed: {error}"
            | .ok count =>
                if count = 0 then .ok ()
                else .error s!"shared room has {count} bridge-side login(s) outside cleanup owner"

def auditRoom (codec : RoomCodec) (job : BridgeCleanupJob) (answers : AuditAnswers) :
    Except String Unit :=
  match answers.ontologyOwners with
  | .error error => .error s!"active ontology owner check failed: {error}"
  | .ok ontologyOwners =>
      if 0 < ontologyOwners then
        .error s!"shared room has {ontologyOwners} other active ontology owner(s)"
      else
        match roomMembers codec answers.members with
        | .error error => .error error
        | .ok none => .ok ()
        | .ok (some members) => auditMembers job answers members

/-! ## The two definite answers -/

/-- The homeserver listed the members of the room. -/
def ListsMembers (codec : RoomCodec) (answer : HttpOutcome) (members : List String) : Prop :=
  ∃ status body, answer = .response status (.ok body) ∧ isSuccess status = true ∧
    codec.decodeMembers body = .ok members

/-- Somebody else still uses the room. -/
inductive RoomShared (codec : RoomCodec) (job : BridgeCleanupJob) (answers : AuditAnswers) : Prop
  | ontologyOwner {owners : Int} (h : answers.ontologyOwners = .ok owners) (hpos : 0 < owners)
  | activeMember {owners active : Int} {members : List String}
      (howners : answers.ontologyOwners = .ok owners) (hnone : owners ≤ 0)
      (hmembers : ListsMembers codec answers.members members)
      (h : activeBridgeMembers answers.activeMembers (members.filterMap memberLocalpart) =
        .ok active) (hpos : 0 < active)
  | bridgeLogin {owners active count : Int} {members : List String} {owner : String}
      (howners : answers.ontologyOwners = .ok owners) (hnone : owners ≤ 0)
      (hmembers : ListsMembers codec answers.members members)
      (hactive : activeBridgeMembers answers.activeMembers (members.filterMap memberLocalpart) =
        .ok active) (hinactive : active ≤ 0)
      (howner : answers.login.matrixUserId = .ok owner)
      (h : bridgeLoginCount answers.login.probe job.bridgeType (members.filter (· ≠ owner)) =
        .ok count) (hcount : count ≠ 0)

/-- The room is missing on the homeserver, or nobody but the owner uses it. -/
inductive RoomExclusive (codec : RoomCodec) (job : BridgeCleanupJob) (answers : AuditAnswers) :
    Prop
  | missing {owners : Int} {body : Except String String}
      (howners : answers.ontologyOwners = .ok owners) (hnone : owners ≤ 0)
      (h : answers.members = .response notFound body)
  | unshared {owners active : Int} {members : List String} {owner : String}
      (howners : answers.ontologyOwners = .ok owners) (hnone : owners ≤ 0)
      (hmembers : ListsMembers codec answers.members members)
      (hactive : activeBridgeMembers answers.activeMembers (members.filterMap memberLocalpart) =
        .ok active) (hinactive : active ≤ 0)
      (howner : answers.login.matrixUserId = .ok owner)
      (h : bridgeLoginCount answers.login.probe job.bridgeType (members.filter (· ≠ owner)) =
        .ok 0)

section Audit

variable {codec : RoomCodec} {job : BridgeCleanupJob} {answers : AuditAnswers}

theorem roomMembers_eq_none_iff {answer : HttpOutcome} :
    roomMembers codec answer = .ok none ↔ ∃ body, answer = .response notFound body := by
  constructor
  · intro h
    unfold roomMembers at h
    split at h
    · cases h
    next status answered =>
      split at h
      next hstatus => exact ⟨answered, by rw [hstatus]⟩
      · split at h
        · cases h
        · split at h
          · split at h <;> cases h
          · cases h
  · rintro ⟨body, rfl⟩
    simp [roomMembers]

theorem roomMembers_eq_some_iff {answer : HttpOutcome} {members : List String} :
    roomMembers codec answer = .ok (some members) ↔ ListsMembers codec answer members := by
  constructor
  · intro h
    cases answer with
    | transportError detail => cases h
    | response status body =>
        simp only [roomMembers] at h
        split at h
        · cases h
        · cases body with
          | error detail => cases h
          | ok text =>
              by_cases hsuccess : isSuccess status = true
              · cases hdecode : codec.decodeMembers text with
                | error detail => simp [hsuccess, hdecode] at h
                | ok decoded =>
                    have hsame : decoded = members := by simpa [hsuccess, hdecode] using h
                    exact ⟨status, text, rfl, hsuccess, hsame ▸ hdecode⟩
              · simp [hsuccess] at h
  · rintro ⟨status, text, rfl, hsuccess, hdecode⟩
    have hstatus : status ≠ notFound := by
      rintro rfl
      cases hsuccess
    simp [roomMembers, hstatus, hsuccess, hdecode]

theorem auditMembers_eq_ok_iff {members : List String} :
    auditMembers job answers members = .ok () ↔ ∃ active owner,
      activeBridgeMembers answers.activeMembers (members.filterMap memberLocalpart) = .ok active ∧
        active ≤ 0 ∧ answers.login.matrixUserId = .ok owner ∧
          bridgeLoginCount answers.login.probe job.bridgeType (members.filter (· ≠ owner)) =
            .ok 0 := by
  unfold auditMembers
  constructor
  · intro h
    split at h
    · cases h
    next active hactive =>
      split at h
      · cases h
      next hinactive =>
        split at h
        · cases h
        next owner howner =>
          split at h
          · cases h
          next count hcount =>
            split at h
            next hzero =>
              subst hzero
              exact ⟨active, owner, hactive, not_lt.mp hinactive, howner, hcount⟩
            · cases h
  · rintro ⟨active, owner, hactive, hinactive, howner, hcount⟩
    simp only [hactive, howner, hcount]
    rw [if_neg (not_lt.mpr hinactive), if_pos trivial]

/-- A room passes its audit exactly when it is exclusive. -/
theorem auditRoom_eq_ok_iff :
    auditRoom codec job answers = .ok () ↔ RoomExclusive codec job answers := by
  unfold auditRoom
  constructor
  · intro h
    split at h
    · cases h
    next owners howners =>
      split at h
      · cases h
      next hnone =>
        split at h
        · cases h
        next hmembers =>
          obtain ⟨body, hbody⟩ := roomMembers_eq_none_iff.1 hmembers
          exact .missing howners (not_lt.mp hnone) hbody
        next members hmembers =>
          obtain ⟨active, owner, hactive, hinactive, howner, hcount⟩ :=
            auditMembers_eq_ok_iff.1 h
          exact .unshared howners (not_lt.mp hnone) (roomMembers_eq_some_iff.1 hmembers)
            hactive hinactive howner hcount
  · intro h
    cases h with
    | missing howners hnone hbody =>
        simp [howners, not_lt.mpr hnone, roomMembers_eq_none_iff.2 ⟨_, hbody⟩]
    | unshared howners hnone hmembers hactive hinactive howner hcount =>
        have haudit := auditMembers_eq_ok_iff.2 ⟨_, _, hactive, hinactive, howner, hcount⟩
        simp [howners, not_lt.mpr hnone, roomMembers_eq_some_iff.2 hmembers, haudit]

instance : Decidable (RoomExclusive codec job answers) :=
  decidable_of_iff (auditRoom codec job answers = .ok ()) auditRoom_eq_ok_iff

end Audit

/-! ## The guard before a deletion -/

structure GuardAnswers where
  renewed : Except String Bool
  generation : Except String (Option BridgeGeneration)
  login : LoginAnswers
  now : Int

def refreshCleanupGuard (config : Config) (job : BridgeCleanupJob) (answers : GuardAnswers) :
    Cleanup (Except String Unit) :=
  match answers.renewed with
  | .error error => pure (.error error)
  | .ok false => pure (.error "cleanup lease renewal was rejected")
  | .ok true =>
      match answers.generation with
      | .error error => pure (.error error)
      | .ok (some current) =>
          pure (.error s!"bridge reappeared id={current.id} created_at={debugOption current.createdAt} status={current.status}")
      | .ok none =>
          if job.triggerKind = orphanAudit then do
            let absent ← finalOrphanLoginAbsenceCheck config job answers.login answers.now
            if absent then pure (.ok ())
            else pure (.error "orphan bridge-login absence could not be reconfirmed")
          else pure (.ok ())

/-- The lease is still held, the bridge is still gone, and so is an orphan's login. -/
structure GuardPasses (job : BridgeCleanupJob) (answers : GuardAnswers) : Prop where
  renewed : answers.renewed = .ok true
  generation : answers.generation = .ok none
  login : job.triggerKind = orphanAudit → ownLoginCount answers.login job.bridgeType = .ok 0

/-! ## The deletion -/

/-- What the services answer while one room is processed. A statement on its row that was
carried out has the clock of the statement; `none` is a statement the database refused. -/
structure RoomAnswers where
  audit : AuditAnswers
  guard : GuardAnswers
  deletion : HttpOutcome
  attemptStored : Option Int
  resultStored : Option Int

def updateRoom (stored : Option Int) (id : Int) (status : BridgeRoomStatus) (attemptCount : Int)
    (error : Option String) (complete : Bool) : Cleanup Unit := do
  emit (.updateRoom id status attemptCount error complete)
  match stored with
  | none => pure ()
  | some now =>
      modify (fun p =>
        { p with rooms := p.rooms.updateBridgeCleanupRoom now id status attemptCount error complete })

def deleteResult (codec : RoomCodec) : HttpOutcome → Except String Unit
  | .transportError error => .error s!"delete room request failed: {error}"
  | .response status body =>
      let text := match body with
        | .ok text => text
        | .error _ => ""
      if isSuccess status ||
          (status == notFound && containsText (toAsciiLowercase text) "room not found") then .ok ()
      else .error s!"delete room returned {codec.statusText status}: {text}"

def deleteRoom (config : Config) (codec : RoomCodec) (room : BridgeCleanupRoom)
    (answers : RoomAnswers) : Cleanup Bool := do
  let attempt := saturatingAdd room.attemptCount 1
  updateRoom answers.attemptStored room.id .deleting attempt none false
  emit (.deleteRoom room.roomId answers.deletion)
  match deleteResult codec answers.deletion with
  | .ok () => do
      updateRoom answers.resultStored room.id .succeeded attempt none true
      pure true
  | .error error => do
      let exhausted : Bool := config.maxAttempts ≤ attempt
      updateRoom answers.resultStored room.id (if exhausted then .exhausted else .retrying) attempt
        (some error) exhausted
      pure false

section Specs

variable {codec : RoomCodec}

theorem finalOrphanLoginAbsenceCheck_goes (config : Config) (job : BridgeCleanupJob)
    (answers : LoginAnswers) (now : Int) (p : Progress) :
    ∃ absent, Goes (finalOrphanLoginAbsenceCheck config job answers now) p absent p ∧
      (absent = true ↔ ownLoginCount answers job.bridgeType = .ok 0) := by
  unfold finalOrphanLoginAbsenceCheck
  cases hcount : ownLoginCount answers job.bridgeType with
  | error error => exact ⟨false, by simp, by simp⟩
  | ok count =>
      by_cases hzero : count = 0
      · exact ⟨true, by simp [hzero], by simp [hzero]⟩
      · exact ⟨false, by simp [hzero], by simp [hzero]⟩

theorem refreshCleanupGuard_goes (config : Config) (job : BridgeCleanupJob)
    (answers : GuardAnswers) (p : Progress) :
    ∃ result, Goes (refreshCleanupGuard config job answers) p result p ∧
      (result = .ok () ↔ GuardPasses job answers) := by
  have hpasses : GuardPasses job answers ↔ answers.renewed = .ok true ∧
      answers.generation = .ok none ∧
        (job.triggerKind = orphanAudit → ownLoginCount answers.login job.bridgeType = .ok 0) :=
    ⟨fun h => ⟨h.renewed, h.generation, h.login⟩, fun h => ⟨h.1, h.2.1, h.2.2⟩⟩
  rw [hpasses]
  unfold refreshCleanupGuard
  cases hrenewed : answers.renewed with
  | error error => exact ⟨.error error, by simp, by simp⟩
  | ok renewed =>
      cases renewed with
      | false => exact ⟨_, goes_pure.mpr ⟨rfl, rfl⟩, by simp⟩
      | true =>
          cases hgeneration : answers.generation with
          | error error => exact ⟨.error error, by simp, by simp⟩
          | ok current =>
              cases current with
              | some current => exact ⟨_, goes_pure.mpr ⟨rfl, rfl⟩, by simp⟩
              | none =>
                  by_cases hkind : job.triggerKind = orphanAudit
                  · obtain ⟨absent, hgoes, hiff⟩ :=
                      finalOrphanLoginAbsenceCheck_goes config job answers.login answers.now p
                    simp only [hkind, if_true, true_and, forall_const, ← hiff]
                    cases absent with
                    | true => exact ⟨.ok (), goes_bind.mpr ⟨true, p, hgoes, by simp⟩, by simp⟩
                    | false =>
                        exact ⟨_, goes_bind.mpr ⟨false, p, hgoes, goes_pure.mpr ⟨rfl, rfl⟩⟩, by simp⟩
                  · exact ⟨.ok (), by simp [hkind], by simp [hkind]⟩

/-- A statement on a row keeps the count of deletions that are left. -/
theorem updateRoom_goes (stored : Option Int) (id : Int) (status : BridgeRoomStatus)
    (attemptCount : Int) (error : Option String) (complete : Bool) (p : Progress) :
    ∃ q, Goes (updateRoom stored id status attemptCount error complete) p () q ∧
      q.remainingRoomDeletes = p.remainingRoomDeletes := by
  unfold updateRoom
  cases stored with
  | none => exact ⟨p, by simp, rfl⟩
  | some now =>
      refine ⟨_, goes_bind.mpr ⟨(), p, by simp, goes_modify.mpr rfl⟩, rfl⟩

theorem deleteResult_eq_ok_iff {answer : HttpOutcome} :
    deleteResult codec answer = .ok () ↔ confirmsGone answer = true := by
  cases answer with
  | transportError error => simp [deleteResult, confirmsGone]
  | response status body =>
      cases body with
      | ok text => cases hsuccess : isSuccess status <;> simp [deleteResult, confirmsGone, hsuccess]
      | error error =>
          have hempty : containsText (toAsciiLowercase "") "room not found" = false := by decide
          simp [deleteResult, confirmsGone, hempty]

theorem deleteRoom_goes (config : Config) (codec : RoomCodec) (room : BridgeCleanupRoom)
    (answers : RoomAnswers) (p : Progress) :
    ∃ q, Goes (deleteRoom config codec room answers) p (confirmsGone answers.deletion) q ∧
      q.remainingRoomDeletes = p.remainingRoomDeletes := by
  obtain ⟨first, hfirst, hremaining⟩ := updateRoom_goes answers.attemptStored room.id
    .deleting (saturatingAdd room.attemptCount 1) none false p
  unfold deleteRoom
  cases hresult : deleteResult codec answers.deletion with
  | ok done =>
      obtain ⟨last, hlast, hsame⟩ := updateRoom_goes answers.resultStored room.id
        .succeeded (saturatingAdd room.attemptCount 1) none true first
      rw [deleteResult_eq_ok_iff.1 hresult]
      exact ⟨last, by simp only [goes_bind]; exact ⟨(), first, hfirst, (), first, by simp, (), last,
        hlast, by simp⟩, hsame.trans hremaining⟩
  | error error =>
      have hgone : confirmsGone answers.deletion = false := by
        by_contra h
        rw [Bool.not_eq_false] at h
        rw [deleteResult_eq_ok_iff.2 h] at hresult
        cases hresult
      rw [hgone]
      obtain ⟨last, hlast, hsame⟩ := updateRoom_goes answers.resultStored room.id
        (if decide (config.maxAttempts ≤ saturatingAdd room.attemptCount 1) = true then .exhausted
          else .retrying)
        (saturatingAdd room.attemptCount 1) (some error)
        (decide (config.maxAttempts ≤ saturatingAdd room.attemptCount 1)) first
      exact ⟨last, by simp only [goes_bind]; exact ⟨(), first, hfirst, (), first, by simp, (), last,
        hlast, by simp⟩, hsame.trans hremaining⟩

end Specs

end Lightfriend.Bridge
