import Lightfriend.Agent.Pairing

/-! # Actions of an agent

A request authenticates its token, reserves its idempotency key, claims a slot
of the daily cap, and performs its action; then it completes its reservation, or
clears it where something failed. Each of these is a transaction of its own.
-/

namespace Lightfriend.Agent

inductive ActionKind
  | reminder
  | replyWatchEmail
deriving DecidableEq

def ActionKind.requiredScope : ActionKind → String
  | .reminder => "reminders"
  | .replyWatchEmail => "reply_watch_email"

inductive Outcome
  | accepted
  | rejected
deriving DecidableEq

/-- A row of `agent_action_idempotency`. -/
structure Reservation where
  id : Int
  credentialId : Int
  actionKind : ActionKind
  keyHash : String
  outcome : Option Outcome
  createdAt : Int
deriving DecidableEq

abbrev Reservations := Table Reservation Int Reservation.id

def idempotencyTtlSeconds : Int := 86400

/-! ## Claims -/

/-- `scopes.split(',').any(|scope| scope == required_scope)`. -/
def AgentCredential.hasScope (scope : String) (c : AgentCredential) : Bool :=
  (c.scopes.toList.splitOn ',').any (fun piece => piece = scope.toList)

inductive CredentialClaim
  | accepted (credential : AgentCredential)
  | invalid
  | overCap
deriving DecidableEq

def resetDaily (now : Int) (c : AgentCredential) : AgentCredential :=
  { c with dailyUsed := 0, dailyResetAt := nextUtcMidnight now }

def useOne (now : Int) (c : AgentCredential) : AgentCredential :=
  { c with dailyUsed := c.dailyUsed + 1, lastUsedAt := some now }

def claimCredential (t : Credentials) (tokenHash requiredScope : String) (now : Int) :
    Credentials × CredentialClaim :=
  let t := t.updateWhere
    (fun c => decide (c.tokenHash = tokenHash) && decide (c.dailyResetAt ≤ now))
    (resetDaily now) (fun _ => rfl)
  match t.rows.find? (fun c => c.tokenHash = tokenHash) with
  | none => (t, .invalid)
  | some current =>
      if current.revokedAt.isSome ∨ current.expiresAt ≤ now ∨
          current.hasScope requiredScope = false then (t, .invalid)
      else if current.dailyUsed < current.dailyCap then
        (t.updateWhere (fun c => c.id = current.id) (useOne now) (fun _ => rfl),
          .accepted (useOne now current))
      else (t, .overCap)

/-! ## Requests -/

/-- A claim that was accepted, and the end of the window that it counts in. -/
structure Claim where
  reservation : Int
  credentialId : Int
  requestedAt : Int
  claimedAt : Int
  window : Int
deriving DecidableEq

structure Performance where
  claim : Claim
  actionKind : ActionKind
  keyHash : String
  performedAt : Int
deriving DecidableEq

def Performance.sameKey (p p' : Performance) : Prop :=
  p.claim.credentialId = p'.claim.credentialId ∧ p.actionKind = p'.actionKind ∧
    p.keyHash = p'.keyHash

inductive Progress
  | started
  | authenticated (credentialId : Int)
  | reserved (credentialId reservation : Int)
  | claimed (claim : Claim)
  /-- The connections of a reply watch are still to be looked up. -/
  | subscribed (claim : Claim)
  | ready (claim : Claim)
  | completing (reservation : Int) (outcome : Outcome)
  | clearing (reservation : Int)
deriving DecidableEq

/-- The reservation that a request holds. -/
def Progress.reservation : Progress → Option Int
  | .started => none
  | .authenticated _ => none
  | .reserved _ reservation => some reservation
  | .claimed claim => some claim.reservation
  | .subscribed claim => some claim.reservation
  | .ready claim => some claim.reservation
  | .completing reservation _ => some reservation
  | .clearing reservation => some reservation

/-- `create_reminder` or `create_reply_watch`; it reads the clock once, when it starts. -/
structure Request where
  tokenHash : String
  actionKind : ActionKind
  keyHash : String
  now : Int
  progress : Progress
deriving DecidableEq

/-- What was committed or answered; no code reads it. -/
inductive Event
  | revoked (credentialId : Int)
  | claimed (claim : Claim)
  | performed (performance : Performance)
  /-- The request of the reservation answers that its action failed. -/
  | failed (reservation : Int)
  /-- A retry is answered that the reservation has no outcome yet. -/
  | inFlight (reservation : Int)
  /-- A retry is answered with the outcome of the reservation. -/
  | replayed (reservation credentialId : Int) (actionKind : ActionKind) (keyHash : String)
      (outcome : Outcome)
deriving DecidableEq

structure ActionState where
  credentials : Credentials
  nextCredential : Int
  reservations : Reservations
  nextReservation : Int
  clock : Int
  requests : Nat → Option Request
  /-- Newest first. -/
  log : List Event

/-- How the creation of a reminder or of reply watches ends. -/
inductive Creation
  | created
  /-- `Ok(false)`, of reply watches only: no connection, one watched already, or too many. -/
  | rejected
  | failed
  /-- The error comes after the transaction was committed. -/
  | lost
deriving DecidableEq

inductive Step
  | tick (seconds : Nat)
  | issueCredential (userId dailyCap : Int) (tokenHash tokenPrefix label scopes : String)
      (issuedAt expiresAt : Int)
  | revokeCredential (userId id now : Int) (fate : StatementFate)
  | revokeByTokenHash (tokenHash : String) (now : Int) (fate : StatementFate)
  | start (request : Nat) (actionKind : ActionKind) (tokenHash keyHash : String)
  | authenticate (request : Nat)
  | reserve (request : Nat) (fate : StatementFate)
  | claim (request : Nat) (fate : StatementFate)
  /-- The answer of `has_active_subscription`. -/
  | subscription (request : Nat) (active : Bool)
  | lookUpConnections (request : Nat) (ok : Bool)
  | perform (request : Nat) (creation : Creation)
  | complete (request : Nat) (fate : StatementFate)
  | clear (request : Nat) (fate : StatementFate)
  /-- A crash, or an error before there is a reservation. -/
  | abandon (request : Nat)
deriving DecidableEq

namespace ActionState

def put (s : ActionState) (i : Nat) (request : Request) : ActionState :=
  { s with requests := Function.update s.requests i (some request) }

def finish (s : ActionState) (i : Nat) : ActionState :=
  { s with requests := Function.update s.requests i none }

def record (s : ActionState) (e : Event) : ActionState := { s with log := e :: s.log }

def issue (s : ActionState) (userId dailyCap : Int) (tokenHash tokenPrefix label scopes : String)
    (issuedAt expiresAt : Int) : ActionState :=
  { s with
    credentials := s.credentials.insertOrIgnore
      ⟨s.nextCredential, userId, tokenHash, tokenPrefix, label, scopes, dailyCap, 0,
        nextUtcMidnight issuedAt, expiresAt, issuedAt, none, none⟩
    nextCredential := s.nextCredential + 1 }

/-- One `revoked` for each row that the filter matches. -/
def revokeWhere (s : ActionState) (p : AgentCredential → Bool) (now : Int) : ActionState :=
  { s with
    credentials := s.credentials.updateWhere (fun c => p c && c.revokedAt.isNone)
      (AgentCredential.revoke now) (AgentCredential.revoke_id now)
    log := (s.credentials.rows.filter (fun c => p c && c.revokedAt.isNone)).map
      (fun c => .revoked c.id) ++ s.log }

/-- The insert of `reserve_idempotency`, behind the delete of what has outlived its time. -/
def insertReservation (s : ActionState) (reservations : Reservations) (credentialId : Int)
    (request : Request) : ActionState :=
  { s with
    reservations := reservations.insertOrIgnore
      ⟨s.nextReservation, credentialId, request.actionKind, request.keyHash, none, request.now⟩
    nextReservation := s.nextReservation + 1 }

def setOutcome (s : ActionState) (reservation : Int) (outcome : Outcome) : ActionState :=
  { s with
    reservations := s.reservations.updateWhere (fun r => r.id = reservation)
      (fun r => { r with outcome := some outcome }) (fun _ => rfl) }

def dropReservation (s : ActionState) (reservation : Int) : ActionState :=
  { s with reservations := s.reservations.deleteWhere (fun r => r.id = reservation) }

end ActionState

/-- The row that `reserve_idempotency` looks for. -/
def Reservation.isFor (credentialId : Int) (actionKind : ActionKind) (keyHash : String)
    (r : Reservation) : Bool :=
  decide (r.credentialId = credentialId) && decide (r.actionKind = actionKind) &&
    decide (r.keyHash = keyHash)

/-- The row that `authenticate_credential` looks for. -/
def AgentCredential.authenticates (tokenHash : String) (now : Int) (c : AgentCredential) : Bool :=
  decide (c.tokenHash = tokenHash) && c.revokedAt.isNone && decide (now < c.expiresAt)

/-- A fresh reservation; where the answer is lost the request ends in an error. -/
def reserveFresh (s : ActionState) (reservations : Reservations) (credentialId : Int) (i : Nat)
    (request : Request) : StatementFate → ActionState
  | .done => (s.insertReservation reservations credentialId request).put i
      { request with progress := .reserved credentialId s.nextReservation }
  | .refused => s.finish i
  | .lost => (s.insertReservation reservations credentialId request).finish i

def reserveIdempotency (s : ActionState) (i : Nat) (request : Request) (credentialId : Int)
    (fate : StatementFate) : ActionState :=
  match s.reservations.rows.find?
      (Reservation.isFor credentialId request.actionKind request.keyHash) with
  | none => reserveFresh s s.reservations credentialId i request fate
  | some existing =>
      if request.now - existing.createdAt ≤ idempotencyTtlSeconds then
        match existing.outcome with
        | some outcome => (s.record (.replayed existing.id credentialId request.actionKind
            request.keyHash outcome)).finish i
        | none => (s.record (.inFlight existing.id)).finish i
      else reserveFresh s (s.reservations.deleteWhere (fun r => r.id = existing.id)) credentialId i
        request fate

/-- The claim of a request: whatever is not accepted for its own credential is cleared. -/
def claimSlot (s : ActionState) (i : Nat) (request : Request) (credentialId reservation : Int)
    (fate : StatementFate) : ActionState :=
  let result := claimCredential s.credentials request.tokenHash request.actionKind.requiredScope
    request.now
  let cleared := { request with progress := .clearing reservation }
  match fate with
  | .refused => s.put i cleared
  | .lost => { s with credentials := result.1 }.put i cleared
  | .done =>
      match result.2 with
      | .accepted credential =>
          if credential.id = credentialId then
            let claim := ⟨reservation, credentialId, request.now, s.clock, credential.dailyResetAt⟩
            ({ s with credentials := result.1 }.record (.claimed claim)).put i
              { request with progress := .claimed claim }
          else { s with credentials := result.1 }.put i cleared
      | _ => { s with credentials := result.1 }.put i cleared

def performAction (s : ActionState) (i : Nat) (request : Request) (claim : Claim) :
    Creation → ActionState
  | .created => (s.record (.performed ⟨claim, request.actionKind, request.keyHash, s.clock⟩)).put i
      { request with progress := .completing claim.reservation .accepted }
  | .rejected => s.put i { request with progress := .completing claim.reservation .rejected }
  | .failed => (s.record (.failed claim.reservation)).put i
      { request with progress := .clearing claim.reservation }
  | .lost => ((s.record (.performed ⟨claim, request.actionKind, request.keyHash, s.clock⟩)).record
      (.failed claim.reservation)).put i
      { request with progress := .clearing claim.reservation }

/-- The transitions; a request takes its own only from where it stands. -/
def act (s : ActionState) : Step → Option ActionState
  | .tick seconds => some { s with clock := s.clock + seconds }
  | .issueCredential userId dailyCap tokenHash tokenPrefix label scopes issuedAt expiresAt =>
      if s.clock < issuedAt ∨ dailyCap < 1 ∨
          s.credentials.rows.any (fun c => c.tokenHash = tokenHash) then none
      else some (s.issue userId dailyCap tokenHash tokenPrefix label scopes issuedAt expiresAt)
  | .revokeCredential userId id now fate =>
      some (fate.after s
        (s.revokeWhere (fun c => decide (c.id = id) && decide (c.userId = userId)) now))
  | .revokeByTokenHash tokenHash now fate =>
      some (fate.after s (s.revokeWhere (fun c => decide (c.tokenHash = tokenHash)) now))
  | .start i actionKind tokenHash keyHash =>
      if (s.requests i).isSome then none
      else some (s.put i ⟨tokenHash, actionKind, keyHash, s.clock, .started⟩)
  | .authenticate i =>
      match s.requests i with
      | some ⟨tokenHash, actionKind, keyHash, now, .started⟩ =>
          match s.credentials.rows.find? (AgentCredential.authenticates tokenHash now) with
          | none => some (s.finish i)
          | some credential =>
              if credential.hasScope actionKind.requiredScope then
                some (s.put i ⟨tokenHash, actionKind, keyHash, now, .authenticated credential.id⟩)
              else some (s.finish i)
      | _ => none
  | .reserve i fate =>
      match s.requests i with
      | some ⟨tokenHash, actionKind, keyHash, now, .authenticated credentialId⟩ =>
          some (reserveIdempotency s i ⟨tokenHash, actionKind, keyHash, now,
            .authenticated credentialId⟩ credentialId fate)
      | _ => none
  | .claim i fate =>
      match s.requests i with
      | some ⟨tokenHash, actionKind, keyHash, now, .reserved credentialId reservation⟩ =>
          some (claimSlot s i ⟨tokenHash, actionKind, keyHash, now,
            .reserved credentialId reservation⟩ credentialId reservation fate)
      | _ => none
  | .subscription i active =>
      match s.requests i with
      | some ⟨tokenHash, actionKind, keyHash, now, .claimed claim⟩ =>
          some (s.put i ⟨tokenHash, actionKind, keyHash, now,
            if !active then .completing claim.reservation .rejected
            else match actionKind with
              | .reminder => .ready claim
              | .replyWatchEmail => .subscribed claim⟩)
      | _ => none
  | .lookUpConnections i ok =>
      match s.requests i with
      | some ⟨tokenHash, actionKind, keyHash, now, .subscribed claim⟩ =>
          if ok then some (s.put i ⟨tokenHash, actionKind, keyHash, now, .ready claim⟩)
          else some ((s.record (.failed claim.reservation)).put i
            ⟨tokenHash, actionKind, keyHash, now, .clearing claim.reservation⟩)
      | _ => none
  | .perform i creation =>
      match s.requests i with
      | some ⟨tokenHash, actionKind, keyHash, now, .ready claim⟩ =>
          if actionKind = .reminder ∧ creation = .rejected then none
          else some (performAction s i ⟨tokenHash, actionKind, keyHash, now, .ready claim⟩ claim
            creation)
      | _ => none
  | .complete i fate =>
      match s.requests i with
      | some ⟨_, _, _, _, .completing reservation outcome⟩ =>
          some ((fate.after s (s.setOutcome reservation outcome)).finish i)
      | _ => none
  | .clear i fate =>
      match s.requests i with
      | some ⟨_, _, _, _, .clearing reservation⟩ =>
          some ((fate.after s (s.dropReservation reservation)).finish i)
      | _ => none
  | .abandon i => if (s.requests i).isSome then some (s.finish i) else none

def ActionState.init (clock : Nat) : ActionState where
  credentials := Table.empty
  nextCredential := 1
  reservations := Table.empty
  nextReservation := 1
  clock := clock
  requests := fun _ => none
  log := []

/-! ## What is promised -/

def performances : List Event → List Performance :=
  List.filterMap fun
    | .performed p => some p
    | _ => none

def Performance.countsIn (credentialId window : Int) (p : Performance) : Bool :=
  decide (p.claim.credentialId = credentialId) && decide (p.claim.window = window)

/-- Requested and claimed on one UTC day, counted from 1970. -/
def Performance.onDay (credentialId day : Int) (p : Performance) : Bool :=
  decide (p.claim.credentialId = credentialId) && decide (day * 86400 ≤ p.claim.requestedAt) &&
    decide (p.claim.claimedAt < (day + 1) * 86400)

structure ActionsSafe (s : ActionState) : Prop where
  /-- The lifetime of a key is counted from the start of the request that reserved it. -/
  once : ∀ later earlier p, s.log = later ++ .performed p :: earlier →
    ∀ p', .performed p' ∈ earlier → p'.sameKey p →
      .failed p'.claim.reservation ∈ earlier ∨
        p'.claim.requestedAt + idempotencyTtlSeconds < p.performedAt ∨
        p.claim.requestedAt + idempotencyTtlSeconds < p.performedAt
  window : ∀ c ∈ s.credentials, ∀ window,
    ((performances s.log).countP (Performance.countsIn c.id window) : Int) ≤ c.dailyCap
  day : ∀ c ∈ s.credentials, ∀ day,
    ((performances s.log).countP (Performance.onDay c.id day) : Int) ≤ c.dailyCap
  claimed : ∀ later earlier p, s.log = later ++ .performed p :: earlier →
    .claimed p.claim ∈ earlier
  unrevoked : ∀ later earlier claim, s.log = later ++ .claimed claim :: earlier →
    .revoked claim.credentialId ∉ earlier
  unexpired : ∀ claim, .claimed claim ∈ s.log →
    ∃ c ∈ s.credentials, c.id = claim.credentialId ∧ claim.requestedAt < c.expiresAt
  replayed : ∀ later earlier reservation credentialId kind keyHash outcome,
    s.log = later ++ .replayed reservation credentialId kind keyHash outcome :: earlier →
      match outcome with
      | .accepted => ∃ p, .performed p ∈ earlier ∧ p.claim.reservation = reservation ∧
          p.claim.credentialId = credentialId ∧ p.actionKind = kind ∧ p.keyHash = keyHash
      | .rejected => ∀ p, .performed p ∈ s.log → p.claim.reservation ≠ reservation

end Lightfriend.Agent
