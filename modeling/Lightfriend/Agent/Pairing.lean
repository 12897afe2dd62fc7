import Lightfriend.Core.Database
import Lightfriend.Core.Log
import Lightfriend.Core.Table
import Lightfriend.Core.Transition

/-! # Pairing of agents

A client polls with its device code until a user approves the pairing, and then
gets a credential. The poll and the issue are two transactions; the issue locks
the session, then the user, counts, and writes.
-/

namespace Lightfriend.Agent

/-! ## Rows -/

structure AgentPairingSession where
  id : Int
  deviceCodeHash : String
  userCodeHash : String
  clientName : String
  createdAt : Int
  expiresAt : Int
  approvedByUserId : Option Int
  approvedAt : Option Int
  consumedAt : Option Int
deriving DecidableEq

structure AgentCredential where
  id : Int
  userId : Int
  tokenHash : String
  tokenPrefix : String
  label : String
  scopes : String
  dailyCap : Int
  dailyUsed : Int
  dailyResetAt : Int
  expiresAt : Int
  createdAt : Int
  lastUsedAt : Option Int
  revokedAt : Option Int
deriving DecidableEq

abbrev Sessions := Table AgentPairingSession Int AgentPairingSession.id
abbrev Credentials := Table AgentCredential Int AgentCredential.id

def credentialTtlSeconds : Int := 90 * 24 * 60 * 60

/-- `((now / 86_400) + 1) * 86_400`. -/
def nextUtcMidnight (now : Int) : Int := (now.tdiv 86400 + 1) * 86400

/-- Neither revoked nor expired at `now`. -/
def AgentCredential.activeFor (userId now : Int) (c : AgentCredential) : Bool :=
  decide (c.userId = userId) && c.revokedAt.isNone && decide (now < c.expiresAt)

def AgentCredential.revoke (now : Int) (c : AgentCredential) : AgentCredential :=
  { c with revokedAt := some now }

@[simp] theorem AgentCredential.revoke_id (now : Int) (c : AgentCredential) :
    (c.revoke now).id = c.id := rfl

def activeCount (t : Credentials) (userId now : Int) : Nat :=
  t.countWhere (AgentCredential.activeFor userId now)

/-! ## Requests -/

/-- How far a poll has come, with what it has read; a lock is held until the request ends. -/
inductive Stage
  | polling
  | approved (userId : Int) (label : String)
  | sessionLocked (userId : Int) (label : String) (session : AgentPairingSession)
  | userLocked (userId : Int) (label : String) (session : AgentPairingSession)
  | counted (userId : Int) (label : String) (session : AgentPairingSession)
deriving DecidableEq

/-- A poll of `poll_pairing`: it reads the clock once, when it starts. -/
structure Call where
  deviceCodeHash : String
  now : Int
  stage : Stage
deriving DecidableEq

/-- The user and the session of the session lock. -/
def Call.session : Call → Option (Int × AgentPairingSession)
  | ⟨_, _, .sessionLocked userId _ session⟩ => some (userId, session)
  | ⟨_, _, .userLocked userId _ session⟩ => some (userId, session)
  | ⟨_, _, .counted userId _ session⟩ => some (userId, session)
  | _ => none

/-- The user of the user lock. -/
def Call.lockedUser : Call → Option Int
  | ⟨_, _, .userLocked userId _ _⟩ => some userId
  | ⟨_, _, .counted userId _ _⟩ => some userId
  | _ => none

/-- What was committed; no code reads it. -/
inductive Entry
  | created (sessionId expiresAt : Int)
  | approved (sessionId userId : Int)
  /-- By a poll that started at `requestedAt`, committed at `committedAt`. -/
  | issued (sessionId credentialId userId requestedAt committedAt : Int)
deriving DecidableEq

def Entry.sessionId : Entry → Int
  | .created sessionId _ => sessionId
  | .approved sessionId _ => sessionId
  | .issued sessionId _ _ _ _ => sessionId

structure State where
  sessions : Sessions
  credentials : Credentials
  /-- The sequences behind the two ids. -/
  nextSession : Int
  nextCredential : Int
  clock : Int
  calls : Nat → Option Call
  /-- The requests that hold the locks of the rows. -/
  sessionLocks : Int → Option Nat
  userLocks : Int → Option Nat
  /-- Newest first. -/
  log : List Entry

inductive Action
  | tick (seconds : Nat)
  | createPairing (deviceCodeHash userCodeHash clientName : String) (now expiresAt : Int)
      (fate : StatementFate)
  | approvePairing (userId : Int) (userCodeHash : String) (now : Int) (fate : StatementFate)
  | revokeCredential (userId id now : Int) (fate : StatementFate)
  | revokeByTokenHash (tokenHash : String) (now : Int) (fate : StatementFate)
  | startPoll (call : Nat) (deviceCodeHash : String)
  | pollPairing (call : Nat)
  /-- The answer of `has_active_subscription`, and the lock of the session. -/
  | lockSession (call : Nat) (subscribed : Bool)
  | lockUser (call : Nat) (found : Bool)
  | countActive (call : Nat)
  | commit (call : Nat) (tokenHash tokenPrefix : String) (fate : StatementFate)
  /-- An error of a statement, or a crash: the transaction is rolled back. -/
  | abandon (call : Nat)
deriving DecidableEq

/-! ## Statements -/

/-- `create_pairing` deletes what has expired or is consumed. -/
def isGarbage (now : Int) (r : AgentPairingSession) : Bool :=
  decide (r.expiresAt ≤ now) || r.consumedAt.isSome

/-- The row that `approve_pairing` looks for. -/
def isApprovable (userCodeHash : String) (now : Int) (r : AgentPairingSession) : Bool :=
  decide (r.userCodeHash = userCodeHash) && decide (now < r.expiresAt) && r.approvedAt.isNone &&
    r.consumedAt.isNone

/-- The row that `consume_pairing` looks for. -/
def isConsumable (deviceCodeHash : String) (userId now : Int) (r : AgentPairingSession) : Bool :=
  decide (r.deviceCodeHash = deviceCodeHash) && decide (r.approvedByUserId = some userId) &&
    decide (now < r.expiresAt) && r.consumedAt.isNone

namespace State

def put (s : State) (i : Nat) (call : Call) : State :=
  { s with calls := Function.update s.calls i (some call) }

/-- The end of a request releases its locks. -/
def release (s : State) (i : Nat) : State :=
  { s with
    calls := Function.update s.calls i none
    sessionLocks := fun id => if s.sessionLocks id = some i then none else s.sessionLocks id
    userLocks := fun id => if s.userLocks id = some i then none else s.userLocks id }

def newSession (s : State) (deviceCodeHash userCodeHash clientName : String)
    (now expiresAt : Int) : AgentPairingSession :=
  ⟨s.nextSession, deviceCodeHash, userCodeHash, clientName, now, expiresAt, none, none, none⟩

def create (s : State) (deviceCodeHash userCodeHash clientName : String) (now expiresAt : Int) :
    State :=
  { s with
    sessions := (s.sessions.deleteWhere (isGarbage now)).insertOrIgnore
      (s.newSession deviceCodeHash userCodeHash clientName now expiresAt)
    nextSession := s.nextSession + 1
    log := .created s.nextSession expiresAt :: s.log }

def approve (s : State) (session : AgentPairingSession) (userId now : Int) : State :=
  { s with
    sessions := s.sessions.updateWhere (fun r => r.id = session.id)
      (fun r => { r with approvedByUserId := some userId, approvedAt := some now }) (fun _ => rfl)
    log := .approved session.id userId :: s.log }

def revoke (s : State) (p : AgentCredential → Bool) (now : Int) : State :=
  { s with
    credentials := s.credentials.updateWhere (fun c => p c && c.revokedAt.isNone)
      (AgentCredential.revoke now) (AgentCredential.revoke_id now) }

def newCredential (s : State) (call : Call) (userId : Int) (label tokenHash tokenPrefix : String) :
    AgentCredential where
  id := s.nextCredential
  userId := userId
  tokenHash := tokenHash
  tokenPrefix := tokenPrefix
  label := label
  scopes := "reminders,reply_watch_email"
  dailyCap := 20
  dailyUsed := 0
  dailyResetAt := nextUtcMidnight call.now
  expiresAt := call.now + credentialTtlSeconds
  createdAt := call.now
  lastUsedAt := none
  revokedAt := none

/-- The last two statements of `consume_pairing`. -/
def issue (s : State) (call : Call) (userId : Int) (label : String)
    (session : AgentPairingSession) (tokenHash tokenPrefix : String) : State :=
  { s with
    credentials := s.credentials.insertOrIgnore
      (s.newCredential call userId label tokenHash tokenPrefix)
    nextCredential := s.nextCredential + 1
    sessions := s.sessions.updateWhere (fun r => r.deviceCodeHash = call.deviceCodeHash)
      (fun r => { r with consumedAt := some call.now }) (fun _ => rfl)
    log := .issued session.id s.nextCredential userId call.now s.clock :: s.log }

end State

/-- A statement that finds a row locked waits: it is not enabled until the lock is released. -/
def step (s : State) : Action → Option State
  | .tick seconds => some { s with clock := s.clock + seconds }
  | .createPairing deviceCodeHash userCodeHash clientName now expiresAt fate =>
      if s.clock < now ∨
          s.sessions.rows.any (fun r => isGarbage now r && (s.sessionLocks r.id).isSome) then none
      else if s.sessions.rows.any (fun r => !isGarbage now r &&
          (decide (r.deviceCodeHash = deviceCodeHash) ||
            decide (r.userCodeHash = userCodeHash))) then some s
      else some (fate.after s (s.create deviceCodeHash userCodeHash clientName now expiresAt))
  | .approvePairing userId userCodeHash now fate =>
      if s.clock < now then none
      else
        match s.sessions.rows.find? (isApprovable userCodeHash now) with
        | none => some s
        | some session =>
            if (s.sessionLocks session.id).isSome then none
            else some (fate.after s (s.approve session userId now))
  | .revokeCredential userId id now fate =>
      some (fate.after s (s.revoke (fun c => decide (c.id = id) && decide (c.userId = userId)) now))
  | .revokeByTokenHash tokenHash now fate =>
      some (fate.after s (s.revoke (fun c => decide (c.tokenHash = tokenHash)) now))
  | .startPoll i deviceCodeHash =>
      if (s.calls i).isSome then none else some (s.put i ⟨deviceCodeHash, s.clock, .polling⟩)
  | .pollPairing i =>
      match s.calls i with
      | some ⟨deviceCodeHash, now, .polling⟩ =>
          match s.sessions.rows.find? (fun r => r.deviceCodeHash = deviceCodeHash) with
          | none => some (s.release i)
          | some session =>
              if session.expiresAt ≤ now ∨ session.consumedAt.isSome then some (s.release i)
              else
                match session.approvedByUserId with
                | none => some (s.release i)
                | some userId =>
                    some (s.put i ⟨deviceCodeHash, now, .approved userId session.clientName⟩)
      | _ => none
  | .lockSession i subscribed =>
      match s.calls i with
      | some ⟨deviceCodeHash, now, .approved userId label⟩ =>
          if !subscribed then some (s.release i)
          else
            match s.sessions.rows.find? (isConsumable deviceCodeHash userId now) with
            | none => some (s.release i)
            | some session =>
                if (s.sessionLocks session.id).isSome then none
                else some { s.put i ⟨deviceCodeHash, now, .sessionLocked userId label session⟩ with
                  sessionLocks := Function.update s.sessionLocks session.id (some i) }
      | _ => none
  | .lockUser i found =>
      match s.calls i with
      | some ⟨deviceCodeHash, now, .sessionLocked userId label session⟩ =>
          if (s.userLocks userId).isSome then none
          else if !found then some (s.release i)
          else some { s.put i ⟨deviceCodeHash, now, .userLocked userId label session⟩ with
            userLocks := Function.update s.userLocks userId (some i) }
      | _ => none
  | .countActive i =>
      match s.calls i with
      | some ⟨deviceCodeHash, now, .userLocked userId label session⟩ =>
          if 5 ≤ activeCount s.credentials userId now then some (s.release i)
          else some (s.put i ⟨deviceCodeHash, now, .counted userId label session⟩)
      | _ => none
  | .commit i tokenHash tokenPrefix fate =>
      match s.calls i with
      | some ⟨deviceCodeHash, now, .counted userId label session⟩ =>
          if s.credentials.rows.any (fun c => c.tokenHash = tokenHash) then some (s.release i)
          else some (fate.after (s.release i)
            ((s.issue ⟨deviceCodeHash, now, .counted userId label session⟩ userId label session
              tokenHash tokenPrefix).release i))
      | _ => none
  | .abandon i => if (s.calls i).isSome then some (s.release i) else none

def init (clock : Int) : State where
  sessions := Table.empty
  credentials := Table.empty
  nextSession := 1
  nextCredential := 1
  clock := clock
  calls := fun _ => none
  sessionLocks := fun _ => none
  userLocks := fun _ => none
  log := []

/-! ## What is promised -/

/-- Before a credential was issued for the session, none had been, the user had approved the
session, and the poll had started before the session expired. -/
structure Justified (earlier : List Entry) (sessionId userId requestedAt : Int) : Prop where
  once : ∀ c u n t, .issued sessionId c u n t ∉ earlier
  approved : .approved sessionId userId ∈ earlier
  unexpired : ∃ expiresAt, .created sessionId expiresAt ∈ earlier ∧ requestedAt < expiresAt

structure PairingSafe (s : State) : Prop where
  issued : ∀ later earlier sessionId c userId requestedAt t,
    s.log = later ++ .issued sessionId c userId requestedAt t :: earlier →
      Justified earlier sessionId userId requestedAt
  credited : ∀ c ∈ s.credentials, ∃ sessionId requestedAt t,
    .issued sessionId c.id c.userId requestedAt t ∈ s.log
  rows : ∀ r ∈ s.sessions, ∀ u, r.approvedByUserId = some u → .approved r.id u ∈ s.log
  approvedOnce : ∀ sessionId u u', .approved sessionId u ∈ s.log → .approved sessionId u' ∈ s.log →
    u = u'
  capped : ∀ userId, activeCount s.credentials userId s.clock ≤ 5

end Lightfriend.Agent
