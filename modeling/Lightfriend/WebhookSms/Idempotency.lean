import Lightfriend.Core.Machine
import Lightfriend.WebhookSms.SendSlot

/-! # One send for an idempotency key

A request with an `Idempotency-Key` reserves the key, passes the gates, sends
through the providers in their order, and completes or clears its reservation.
Every exit of the handler is one end of its program. The row of the key is
looked up and written in two statements, of which the second takes effect when
the transaction commits.
-/

namespace Lightfriend.WebhookSms

def idempotencyTtlSecs : Int := 86400

/-! ## The row of the key, and the sends -/

structure KeyRow where
  id : Nat
  responseSid : Option String
  createdAt : Int
deriving DecidableEq, Repr

inductive SendOutcome
  | accepted (sid : String)
  /-- The provider did not take the message. -/
  | rejected
  /-- The channel reports an error for a message that the provider may have taken. -/
  | unknown
  /-- `SEND_TIMEOUT` cancels the send. -/
  | timedOut
deriving DecidableEq, Repr

/-- A message handed to a provider, for the reservation of its request. No code reads it. -/
structure Sent where
  rowId : Nat
  createdAt : Int
  channel : String
  sentAt : Int
  outcome : SendOutcome
deriving DecidableEq, Repr

def Sent.unfailed (e : Sent) : Bool := e.outcome ≠ .rejected

/-- The row of one token and key. -/
structure KeyStore where
  row : Option KeyRow
  nextId : Nat
  clock : Int
  sends : List Sent
deriving DecidableEq, Repr

namespace KeyStore

/-- Within the transaction that inserts a fresh row: the stale row goes first. -/
def dropStale (t : KeyStore) (stale : Option Nat) : KeyStore :=
  match t.row with
  | none => t
  | some row => if stale = some row.id then { t with row := none } else t

/-- `ON CONFLICT DO NOTHING`. -/
def insertFresh (t : KeyStore) (now : Int) : KeyStore × Option Nat :=
  match t.row with
  | some _ => (t, none)
  | none =>
      ({ t with row := some ⟨t.nextId, none, now⟩, nextId := t.nextId + 1 }, some t.nextId)

def complete (t : KeyStore) (id : Nat) (sid : String) : KeyStore :=
  match t.row with
  | none => t
  | some row =>
      if row.id = id then { t with row := some { row with responseSid := some sid } } else t

def clear (t : KeyStore) (id : Nat) : KeyStore := t.dropStale (some id)

def send (t : KeyStore) (id : Nat) (createdAt : Int) (channel : String) (outcome : SendOutcome) :
    KeyStore :=
  { t with sends := t.sends ++ [⟨id, createdAt, channel, t.clock, outcome⟩] }

end KeyStore

/-! ## The statements -/

inductive SendResult
  | ok (sid : String)
  | failed
  | timedOut
deriving DecidableEq, Repr

def SendOutcome.result : SendOutcome → SendResult
  | accepted sid => .ok sid
  | rejected => .failed
  | unknown => .failed
  | timedOut => .timedOut

inductive KeyStatement
  | lookup
  | reserve (stale : Option Nat) (now : Int)
  | findUser
  | suppressed
  | checkUserCredits
  | claimSendSlot
  /-- The reservation that the message is for is that of `id`, made at `now`. -/
  | send (id : Nat) (now : Int) (channel : String)
  | complete (id : Nat) (sid : String)
  | clear (id : Nat)
deriving DecidableEq, Repr

abbrev KeyAnswer : KeyStatement → Type
  | .lookup => Option (Option KeyRow)
  | .reserve _ _ => Option (Option Nat)
  | .findUser => Option Bool
  | .suppressed => Bool
  | .checkUserCredits => Option String
  | .claimSendSlot => Option ClaimResult
  | .send _ _ _ => SendResult
  | .complete _ _ => Bool
  | .clear _ => Bool

/-- What decides a statement besides the row. -/
inductive KeyInput
  | fate (fate : StatementFate)
  | user (found : Option Bool)
  | suppressed (suppressed : Bool)
  | credits (error : Option String)
  | slot (claim : Option ClaimResult)
  | sent (outcome : SendOutcome)
deriving DecidableEq, Repr

namespace KeyInput

def fateOf : KeyInput → StatementFate
  | fate f => f
  | _ => .refused

def outcomeOf : KeyInput → SendOutcome
  | sent outcome => outcome
  | _ => .rejected

end KeyInput

namespace KeyStatement

/-- The input is one of the statement's. -/
def suits : KeyStatement → KeyInput → Bool
  | findUser, .user _ => true
  | suppressed, .suppressed _ => true
  | checkUserCredits, .credits _ => true
  | claimSendSlot, .slot _ => true
  | send _ _ _, .sent _ => true
  | lookup, .fate _ => true
  | reserve _ _, .fate _ => true
  | complete _ _, .fate _ => true
  | clear _, .fate _ => true
  | _, _ => false

def exec : Exec KeyStatement KeyAnswer KeyInput KeyStore := fun s input t =>
  match s with
  | lookup => (t, input.fateOf.answer t.row)
  | reserve stale now =>
      (input.fateOf.after t ((t.dropStale stale).insertFresh now).1,
        input.fateOf.answer ((t.dropStale stale).insertFresh now).2)
  | findUser => (t, match input with | .user found => found | _ => none)
  | suppressed => (t, match input with | .suppressed b => b | _ => false)
  | checkUserCredits => (t, match input with | .credits error => error | _ => none)
  | claimSendSlot => (t, match input with | .slot claim => claim | _ => none)
  | send id now channel => (t.send id now channel input.outcomeOf, input.outcomeOf.result)
  | complete id sid => (input.fateOf.after t (t.complete id sid), (input.fateOf.answer ()).isSome)
  | clear id => (input.fateOf.after t (t.clear id), (input.fateOf.answer ()).isSome)

/-- A message is handed to a provider while the reservation lives. -/
def inTime (t : KeyStore) : KeyStatement → Bool
  | send _ now _ => t.clock ≤ now + idempotencyTtlSecs
  | _ => true

end KeyStatement

/-! ## The handler -/

structure SmsResponse where
  status : String
  sid : String
deriving DecidableEq, Repr

inductive SmsError
  | unauthorized
  | internal
  | inFlight
  | credits (status : Nat) (error : String)
  | capReached (dailyCap : Nat) (dailySent : Int)
  | sendFailed
  | timedOut
deriving DecidableEq, Repr

namespace SmsError

def status : SmsError → Nat
  | unauthorized => 401
  | internal => 500
  | inFlight => 409
  | credits status _ => status
  | capReached _ _ => 429
  | sendFailed => 502
  | timedOut => 504

def error : SmsError → String
  | unauthorized => "invalid or revoked token"
  | internal => "internal error"
  | inFlight => "idempotency key in flight"
  | credits _ error => error
  | capReached _ _ => "daily cap reached"
  | sendFailed => "send failed"
  | timedOut => "send outcome unknown; retry later with the same idempotency key"

end SmsError

def publicCreditError (message : String) : SmsError :=
  if startsWithText message "Failed to " || message = "Invalid event type" then
    .credits 503 "notification eligibility check unavailable"
  else if containsText message "Phone service" then .credits 402 "phone service is inactive"
  else if containsText message "subscription" then .credits 402 "active subscription required"
  else if containsText message "Monthly usage" then .credits 402 "monthly usage allowance exhausted"
  else if containsText message "credits" || containsText message "quota" then
    .credits 402 "notification usage balance exhausted"
  else .credits 503 "notification eligibility check unavailable"

/-- What `send_to_user` decides on besides the answers of the providers. -/
structure Sending where
  blank : Bool
  development : Bool
  /-- `pick_channels_for`: registered channels only. -/
  order : List String
deriving DecidableEq, Repr

abbrev SmsResult : Type := Except SmsError SmsResponse

abbrev KeyProgram (ρ : Type) : Type := Program KeyStatement KeyAnswer ρ

section Handler

variable (sending : Sending) (now : Int) (id : Nat)

/-- The next provider is tried after an error. -/
def sendThrough : List String → KeyProgram SendResult
  | [] => .done .failed
  | channel :: rest => .issue (.send id now channel) (fun result =>
      match result with
      | .failed => sendThrough rest
      | result => .done result)

def sendToUser : KeyProgram SendResult :=
  if sending.blank then .done .failed
  else if sending.development then .done (.ok "dev_not_sending")
  else sendThrough now id sending.order

def releaseIdempotency (e : SmsError) : KeyProgram SmsResult :=
  .issue (.clear id) (fun _ => .done (.error e))

/-- What the handler does with the result of the send. -/
def settle : SendResult → KeyProgram SmsResult
  | .ok sid => .issue (.complete id sid) (fun _ => .done (.ok ⟨"accepted", sid⟩))
  | .failed => releaseIdempotency id .sendFailed
  | .timedOut => .done (.error .timedOut)

def claimAndSend : KeyProgram SmsResult :=
  .issue .claimSendSlot (fun claim =>
    match claim with
    | none => releaseIdempotency id .internal
    | some .revoked => releaseIdempotency id .unauthorized
    | some (.overCap dailyCap dailySent) => releaseIdempotency id (.capReached dailyCap dailySent)
    | some (.ok _) => sendToUser sending now id >>= settle id)

def checkCredits : KeyProgram SmsResult :=
  .issue .checkUserCredits (fun error =>
    match error with
    | some message => releaseIdempotency id (publicCreditError message)
    | none => claimAndSend sending now id)

def checkSuppression : KeyProgram SmsResult :=
  .issue .suppressed (fun suppressed =>
    if suppressed then
      .issue (.complete id "suppressed") (fun ok =>
        .done (if ok then .ok ⟨"suppressed", "suppressed"⟩ else .error .internal))
    else checkCredits sending now id)

/-- The handler with its reservation. A failed load of the user keeps the reservation. -/
def proceed : KeyProgram SmsResult :=
  .issue .findUser (fun user =>
    match user with
    | none => .done (.error .internal)
    | some false => releaseIdempotency id .unauthorized
    | some true => checkSuppression sending now id)

def reserveFresh (stale : Option Nat) : KeyProgram SmsResult :=
  .issue (.reserve stale now) (fun inserted =>
    match inserted with
    | none => .done (.error .internal)
    | some none => .done (.error .inFlight)
    | some (some id) => proceed sending now id)

/-- `webhook_sms` from `reserve_idempotency_key` on, which has read the clock. -/
def webhookSms : KeyProgram SmsResult :=
  .issue .lookup (fun existing =>
    match existing with
    | none => .done (.error .internal)
    | some none => reserveFresh sending now none
    | some (some row) =>
        if now - row.createdAt ≤ idempotencyTtlSecs then
          match row.responseSid with
          | some sid => .done (.ok ⟨"accepted", sid⟩)
          | none => .done (.error .inFlight)
        else reserveFresh sending now (some row.id))

end Handler

/-! ## What a request knows -/

inductive KeyKnown
  /-- It has read the clock. -/
  | began (now : Int)
  | seen (now : Int) (row : Option KeyRow)
  /-- It holds the reservation, and every send so far has failed for certain. -/
  | reserved (id : Nat) (now : Int) (attempted : Bool)
  | settled (id : Nat) (sid : String)
  | finished
deriving DecidableEq, Repr

namespace KeyKnown

/-- With the answer of the lookup. -/
def looked : KeyKnown → Option (Option KeyRow) → KeyKnown
  | began now, some row => seen now row
  | _, _ => finished

/-- With the answer of the insertion. -/
def inserted (now : Int) : Option (Option Nat) → KeyKnown
  | some (some id) => reserved id now false
  | _ => finished

def next (k : KeyKnown) (s : KeyStatement) (input : KeyInput) (t : KeyStore) : KeyKnown :=
  match s with
  | .lookup => k.looked (KeyStatement.exec .lookup input t).2
  | .reserve stale now => inserted now (KeyStatement.exec (.reserve stale now) input t).2
  | .send id now _ =>
      match input.outcomeOf with
      | .accepted sid => settled id sid
      | .rejected => reserved id now true
      | _ => finished
  | .complete _ _ =>
      match k with
      | settled id sid => settled id sid
      | _ => finished
  | .clear _ => finished
  | _ => k

def allows (k : KeyKnown) : KeyStatement → Prop
  | .reserve stale now =>
      (k = seen now none ∧ stale = none) ∨
        ∃ row, k = seen now (some row) ∧ stale = some row.id ∧
          row.createdAt + idempotencyTtlSecs < now
  | .send id now _ => ∃ attempted, k = reserved id now attempted
  | .complete id sid => (∃ now, k = reserved id now false) ∨ k = settled id sid
  | .clear id => ∃ now attempted, k = reserved id now attempted
  | _ => True

/-- The reservation that its owner may still send for. -/
def holds : KeyKnown → Option Nat
  | reserved id _ _ => some id
  | _ => none

/-- The completed reservation that it replays. -/
def replays : KeyKnown → Option Nat
  | seen _ (some row) => if row.responseSid.isSome then some row.id else none
  | _ => none

structure Apart (k k' : KeyKnown) : Prop where
  holds : ∀ id, k.holds = some id → k'.holds ≠ some id
  replays : ∀ id, k.holds = some id → k'.replays ≠ some id
  replayed : ∀ id, k'.holds = some id → k.replays ≠ some id

theorem Apart.symm {k k' : KeyKnown} (h : Apart k k') : Apart k' k :=
  ⟨fun id hid hid' => h.holds id hid' hid, h.replayed, h.replays⟩

/-- The id that an accepted request answers with: that of its own send, or of the row it found. -/
def Answers (sid : String) : KeyKnown → Prop
  | seen _ (some row) => row.responseSid = some sid
  | settled _ sid' => sid' = sid
  | _ => sid = "dev_not_sending"

def Ends (k : KeyKnown) : SmsResult → Prop
  | .ok response => response.status = "accepted" → k.Answers response.sid
  | .error _ => True

end KeyKnown

/-- An error of a channel means that its provider did not take the message. -/
def keyProtocol : Protocol KeyStatement.exec KeyKnown where
  allows := KeyKnown.allows
  admits input := input ≠ .sent .unknown
  next := KeyKnown.next

abbrev KeyObeys (k : KeyKnown) (p : KeyProgram SmsResult) : Prop :=
  keyProtocol.Obeys KeyKnown.Ends k p

section Obeys

variable {sending : Sending} {now : Int} {id : Nat}

theorem obeys_release {attempted : Bool} (e : SmsError) :
    KeyObeys (.reserved id now attempted) (releaseIdempotency id e) :=
  ⟨⟨now, attempted, rfl⟩, fun _ _ _ => trivial⟩

/-- What is known when the send has this result. -/
def KeyKnown.After (id : Nat) (now : Int) (k : KeyKnown) : SendResult → Prop
  | .ok sid => k = .settled id sid ∨ (k = .reserved id now false ∧ sid = "dev_not_sending")
  | .failed => ∃ attempted, k = .reserved id now attempted
  | .timedOut => True

theorem obeys_sendThrough (order : List String) (attempted : Bool) :
    keyProtocol.Obeys (KeyKnown.After id now) (.reserved id now attempted)
      (sendThrough now id order) := by
  induction order generalizing attempted with
  | nil => exact ⟨attempted, rfl⟩
  | cons channel rest ih =>
      refine ⟨⟨attempted, rfl⟩, fun input t hadmits => ?_⟩
      cases input with
      | sent outcome =>
          cases outcome with
          | accepted sid => exact Or.inl rfl
          | rejected => exact ih true
          | unknown => exact absurd rfl hadmits
          | timedOut => trivial
      | _ => exact ih true

theorem obeys_sendToUser :
    keyProtocol.Obeys (KeyKnown.After id now) (.reserved id now false)
      (sendToUser sending now id) := by
  unfold sendToUser
  split
  · exact ⟨false, rfl⟩
  · split
    · exact Or.inr ⟨rfl, rfl⟩
    · exact obeys_sendThrough sending.order false

theorem obeys_settle {k : KeyKnown} {result : SendResult} (h : k.After id now result) :
    KeyObeys k (settle id result) := by
  cases result with
  | ok sid =>
      rcases h with rfl | ⟨rfl, rfl⟩
      · exact ⟨Or.inr rfl, fun _ _ _ _ => rfl⟩
      · exact ⟨Or.inl ⟨now, rfl⟩, fun _ _ _ _ => rfl⟩
  | failed =>
      obtain ⟨attempted, rfl⟩ := h
      exact obeys_release _
  | timedOut => trivial

theorem obeys_claimAndSend :
    KeyObeys (.reserved id now false) (claimAndSend sending now id) := by
  refine ⟨trivial, fun input t _ => ?_⟩
  change KeyObeys (.reserved id now false) (match (KeyStatement.exec .claimSendSlot input t).2 with
    | none => releaseIdempotency id .internal
    | some .revoked => releaseIdempotency id .unauthorized
    | some (.overCap dailyCap dailySent) => releaseIdempotency id (.capReached dailyCap dailySent)
    | some (.ok _) => sendToUser sending now id >>= settle id)
  split
  · exact obeys_release _
  · exact obeys_release _
  · exact obeys_release _
  · exact Protocol.Obeys.bind obeys_sendToUser (fun _ _ h => obeys_settle h)

theorem obeys_checkCredits :
    KeyObeys (.reserved id now false) (checkCredits sending now id) := by
  refine ⟨trivial, fun input t _ => ?_⟩
  change KeyObeys (.reserved id now false)
    (match (KeyStatement.exec .checkUserCredits input t).2 with
      | some message => releaseIdempotency id (publicCreditError message)
      | none => claimAndSend sending now id)
  split
  · exact obeys_release _
  · exact obeys_claimAndSend

theorem obeys_checkSuppression :
    KeyObeys (.reserved id now false) (checkSuppression sending now id) := by
  refine ⟨trivial, fun input t _ => ?_⟩
  change KeyObeys (.reserved id now false)
    (if (KeyStatement.exec .suppressed input t).2 then
      .issue (.complete id "suppressed") (fun ok =>
        .done (if ok then .ok ⟨"suppressed", "suppressed"⟩ else .error .internal))
    else checkCredits sending now id)
  split
  · refine ⟨Or.inl ⟨now, rfl⟩, fun input t _ => ?_⟩
    change KeyKnown.Ends _ (if (KeyStatement.exec (.complete id "suppressed") input t).2 then _
      else _)
    split
    · intro haccepted
      exact absurd haccepted (by decide)
    · trivial
  · exact obeys_checkCredits

theorem obeys_proceed : KeyObeys (.reserved id now false) (proceed sending now id) := by
  refine ⟨trivial, fun input t _ => ?_⟩
  change KeyObeys (.reserved id now false) (match (KeyStatement.exec .findUser input t).2 with
    | none => .done (.error .internal)
    | some false => releaseIdempotency id .unauthorized
    | some true => checkSuppression sending now id)
  split
  · trivial
  · exact obeys_release _
  · exact obeys_checkSuppression

theorem obeys_reserveFresh {k : KeyKnown} {stale : Option Nat}
    (h : k.allows (.reserve stale now)) : KeyObeys k (reserveFresh sending now stale) := by
  refine ⟨h, fun input t _ => ?_⟩
  change KeyObeys (KeyKnown.inserted now (KeyStatement.exec (.reserve stale now) input t).2)
    (match (KeyStatement.exec (.reserve stale now) input t).2 with
      | none => .done (.error .internal)
      | some none => .done (.error .inFlight)
      | some (some id) => proceed sending now id)
  cases (KeyStatement.exec (.reserve stale now) input t).2 with
  | none => trivial
  | some inserted =>
      cases inserted with
      | none => trivial
      | some id => exact obeys_proceed

theorem obeys_webhookSms : KeyObeys (.began now) (webhookSms sending now) := by
  refine ⟨trivial, fun input t _ => ?_⟩
  change KeyObeys (KeyKnown.looked (.began now) (KeyStatement.exec .lookup input t).2)
    (match (KeyStatement.exec .lookup input t).2 with
      | none => .done (.error .internal)
      | some none => reserveFresh sending now none
      | some (some row) =>
          if now - row.createdAt ≤ idempotencyTtlSecs then
            match row.responseSid with
            | some sid => .done (.ok ⟨"accepted", sid⟩)
            | none => .done (.error .inFlight)
          else reserveFresh sending now (some row.id))
  cases (KeyStatement.exec .lookup input t).2 with
  | none => trivial
  | some existing =>
      cases existing with
      | none => exact obeys_reserveFresh (Or.inl ⟨rfl, rfl⟩)
      | some row =>
          simp only
          split
          · cases hsid : row.responseSid with
            | none => trivial
            | some sid => exact fun _ => hsid
          · exact obeys_reserveFresh (Or.inr ⟨row, rfl, rfl, by omega⟩)

end Obeys

/-! ## What the row and the sends keep -/

namespace KeyStore

/-- The reservation is still there, or its lifetime is over. -/
def Held (t : KeyStore) (id : Nat) (createdAt : Int) : Prop :=
  (∃ row, t.row = some row ∧ row.id = id) ∨ createdAt + idempotencyTtlSecs < t.clock

def Dated (t : KeyStore) (id : Nat) (createdAt : Int) : Prop :=
  ∀ row, t.row = some row → row.id = id → row.createdAt = createdAt

/-- The answer of the row is the message id of its accepted send, if it made any send. -/
def Replies (t : KeyStore) (id : Nat) (sid : String) : Prop :=
  (∃ e ∈ t.sends, e.rowId = id ∧ e.outcome = .accepted sid) ∨ ∀ e ∈ t.sends, e.rowId ≠ id

def AllRejected (t : KeyStore) (id : Nat) (attempted : Bool) : Prop :=
  ∀ e ∈ t.sends, e.rowId = id → e.outcome = .rejected ∧ attempted = true

structure Kept (t : KeyStore) : Prop where
  row : ∀ row, t.row = some row → row.id < t.nextId
  sends : ∀ e ∈ t.sends, e.rowId < t.nextId ∧ e.sentAt ≤ e.createdAt + idempotencyTtlSecs
  dated : ∀ e ∈ t.sends, t.Dated e.rowId e.createdAt
  held : ∀ e ∈ t.sends, e.unfailed = true → t.Held e.rowId e.createdAt
  single : (t.sends.filter Sent.unfailed).Pairwise
    (fun e e' => e.createdAt + idempotencyTtlSecs < e'.sentAt)
  replies : ∀ row sid, t.row = some row → row.responseSid = some sid → t.Replies row.id sid

/-- What a request knows is so. -/
def Fits (k : KeyKnown) (t : KeyStore) : Prop :=
  match k with
  | .began now => now ≤ t.clock
  | .seen now found => now ≤ t.clock ∧ ∀ row, found = some row →
      t.Dated row.id row.createdAt ∧ row.id < t.nextId ∧
        ∀ sid, row.responseSid = some sid → t.Replies row.id sid
  | .reserved id now attempted => id < t.nextId ∧ t.Dated id now ∧ t.Held id now ∧
      (∀ row, t.row = some row → row.id = id → row.responseSid = none) ∧
        t.AllRejected id attempted
  | .settled id sid => ∃ e ∈ t.sends, e.rowId = id ∧ e.outcome = .accepted sid
  | .finished => True

variable {t : KeyStore} {k k' : KeyKnown} {id id' : Nat} {now createdAt : Int}

theorem unfailed_of_accepted {e : Sent} {sid : String} (h : e.outcome = .accepted sid) :
    e.unfailed = true := by
  simp [Sent.unfailed, h]

/-! ### A reservation -/

def inserted (t : KeyStore) (now : Int) : KeyStore :=
  { t with row := some ⟨t.nextId, none, now⟩, nextId := t.nextId + 1 }

theorem reserve_cases (t : KeyStore) (stale : Option Nat) (now : Int) :
    (t.dropStale stale).insertFresh now = (t, none) ∨
      ((t.dropStale stale).insertFresh now = (t.inserted now, some t.nextId) ∧
        ∀ row, t.row = some row → stale = some row.id) := by
  unfold dropStale
  cases hrow : t.row with
  | none =>
      simp only [insertFresh, hrow, inserted]
      exact Or.inr ⟨trivial, fun row h => by cases h⟩
  | some row =>
      by_cases hstale : stale = some row.id
      · simp only [if_pos hstale, insertFresh, inserted]
        refine Or.inr ⟨trivial, fun row' h => ?_⟩
        cases h
        exact hstale
      · simp only [if_neg hstale, insertFresh, hrow]
        exact Or.inl trivial

section Inserted

variable (hnow : now ≤ t.clock)
  (hstale : ∀ row, t.row = some row → row.createdAt + idempotencyTtlSecs < now)

theorem dated_inserted (hid : id < t.nextId) : (t.inserted now).Dated id createdAt := by
  intro row hrow heq
  cases hrow
  change t.nextId = id at heq
  omega

include hnow hstale in
theorem held_inserted (hdated : t.Dated id createdAt) (h : t.Held id createdAt) :
    (t.inserted now).Held id createdAt := by
  refine Or.inr ?_
  change createdAt + idempotencyTtlSecs < t.clock
  rcases h with ⟨row, hrow, heq⟩ | hexpired
  · have hexpired := hstale row hrow
    rw [hdated row hrow heq] at hexpired
    omega
  · exact hexpired

include hnow hstale in
theorem Kept.inserted (h : t.Kept) : (t.inserted now).Kept where
  row row hrow := by
    cases hrow
    exact Nat.lt_succ_self _
  sends e he := ⟨Nat.lt_succ_of_lt (h.sends e he).1, (h.sends e he).2⟩
  dated e he := dated_inserted (h.sends e he).1
  held e he hunfailed := held_inserted hnow hstale (h.dated e he) (h.held e he hunfailed)
  single := h.single
  replies row sid hrow hsid := by
    cases hrow
    cases hsid

include hnow hstale in
theorem Fits.inserted (h : Fits k t) : Fits k (t.inserted now) := by
  cases k with
  | began _ => exact h
  | seen _ found =>
      refine ⟨h.1, fun row hfound => ?_⟩
      obtain ⟨_, hid, hreplies⟩ := h.2 row hfound
      exact ⟨dated_inserted hid, Nat.lt_succ_of_lt hid, hreplies⟩
  | reserved id now' attempted =>
      obtain ⟨hid, hdated, hheld, hopen, hrejected⟩ := h
      refine ⟨Nat.lt_succ_of_lt hid, dated_inserted hid,
        held_inserted hnow hstale hdated hheld, fun row hrow _ => ?_, hrejected⟩
      cases hrow
      rfl
  | settled _ _ => exact h
  | finished => trivial

theorem Kept.fits_inserted (h : t.Kept) :
    Fits (.reserved t.nextId now false) (t.inserted now) := by
  refine ⟨Nat.lt_succ_self _, fun row hrow _ => ?_, Or.inl ⟨_, rfl, rfl⟩, fun row hrow _ => ?_,
    fun e he heq => ?_⟩
  · cases hrow
    rfl
  · cases hrow
    rfl
  · have hlt : e.rowId < t.nextId := (h.sends e he).1
    omega

end Inserted

/-! ### The end of a reservation -/

theorem complete_cases (t : KeyStore) (id : Nat) (sid : String) :
    t.complete id sid = t ∨ ∃ row, t.row = some row ∧ row.id = id ∧
      t.complete id sid = { t with row := some { row with responseSid := some sid } } := by
  unfold complete
  cases hrow : t.row with
  | none => exact Or.inl rfl
  | some row =>
      by_cases heq : row.id = id
      · simp only [if_pos heq]
        exact Or.inr ⟨row, rfl, heq, rfl⟩
      · simp only [if_neg heq]
        exact Or.inl trivial

theorem clear_cases (t : KeyStore) (id : Nat) :
    t.clear id = t ∨ ∃ row, t.row = some row ∧ row.id = id ∧ t.clear id = { t with row := none } := by
  unfold clear dropStale
  cases hrow : t.row with
  | none => exact Or.inl rfl
  | some row =>
      by_cases heq : row.id = id
      · simp only [heq, if_true]
        exact Or.inr ⟨row, rfl, heq, trivial⟩
      · simp only [Option.some.injEq, if_neg (Ne.symm heq)]
        exact Or.inl trivial

theorem Kept.complete (h : t.Kept) {sid : String} (hreplies : t.Replies id sid) :
    (t.complete id sid).Kept := by
  rcases t.complete_cases id sid with hsame | ⟨row, hrow, heq, hwritten⟩
  · rw [hsame]
    exact h
  · rw [hwritten]
    refine ⟨fun row' hrow' => ?_, h.sends, fun e he row' hrow' => ?_, fun e he hunfailed => ?_,
      h.single, fun row' sid' hrow' hsid => ?_⟩
    · cases hrow'
      exact h.row row hrow
    · cases hrow'
      exact h.dated e he row hrow
    · rcases h.held e he hunfailed with ⟨row', hrow', heq'⟩ | hexpired
      · rw [hrow] at hrow'
        cases hrow'
        exact Or.inl ⟨_, rfl, heq'⟩
      · exact Or.inr hexpired
    · cases hrow'
      cases hsid
      rw [← heq] at hreplies
      exact hreplies

theorem Fits.complete (h : Fits k t) {sid : String} (hother : k.holds ≠ some id) :
    Fits k (t.complete id sid) := by
  rcases t.complete_cases id sid with hsame | ⟨row, hrow, heq, hwritten⟩
  · rw [hsame]
    exact h
  · rw [hwritten]
    cases k with
    | began _ => exact h
    | seen _ found =>
        refine ⟨h.1, fun found hfound => ?_⟩
        obtain ⟨hdated, hrest⟩ := h.2 found hfound
        refine ⟨fun row' hrow' => ?_, hrest⟩
        cases hrow'
        exact hdated row hrow
    | reserved id' now attempted =>
        have hne : id' ≠ id := fun h => hother (congrArg some h)
        obtain ⟨hid, hdated, hheld, _, hrejected⟩ := h
        refine ⟨hid, fun row' hrow' => ?_, ?_, fun row' hrow' heq' => ?_, hrejected⟩
        · cases hrow'
          exact hdated row hrow
        · rcases hheld with ⟨row', hrow', heq'⟩ | hexpired
          · rw [hrow] at hrow'
            cases hrow'
            exact Or.inl ⟨_, rfl, heq'⟩
          · exact Or.inr hexpired
        · cases hrow'
          exact absurd (heq'.symm.trans heq) hne
    | settled _ _ => exact h
    | finished => trivial

theorem Kept.clear (h : t.Kept) {attempted : Bool} (hrejected : t.AllRejected id attempted) :
    (t.clear id).Kept := by
  rcases t.clear_cases id with hsame | ⟨row, hrow, heq, hwritten⟩
  · rw [hsame]
    exact h
  · rw [hwritten]
    refine ⟨fun _ hrow' => ?_, h.sends, fun _ _ _ hrow' => ?_, fun e he hunfailed => ?_,
      h.single, fun _ _ hrow' => ?_⟩
    · cases hrow'
    · cases hrow'
    · rcases h.held e he hunfailed with ⟨row', hrow', heq'⟩ | hexpired
      · rw [hrow] at hrow'
        cases hrow'
        have houtcome := (hrejected e he (heq'.symm.trans heq)).1
        simp [Sent.unfailed, houtcome] at hunfailed
      · exact Or.inr hexpired
    · cases hrow'

theorem Fits.clear (h : Fits k t) (hother : k.holds ≠ some id) : Fits k (t.clear id) := by
  rcases t.clear_cases id with hsame | ⟨row, hrow, heq, hwritten⟩
  · rw [hsame]
    exact h
  · rw [hwritten]
    cases k with
    | began _ => exact h
    | seen _ found =>
        refine ⟨h.1, fun found hfound => ⟨fun _ hrow' => ?_, (h.2 found hfound).2⟩⟩
        cases hrow'
    | reserved id' now attempted =>
        have hne : id' ≠ id := fun h => hother (congrArg some h)
        obtain ⟨hid, _, hheld, _, hrejected⟩ := h
        refine ⟨hid, fun _ hrow' => ?_, ?_, fun _ hrow' => ?_, hrejected⟩
        · cases hrow'
        · rcases hheld with ⟨row', hrow', heq'⟩ | hexpired
          · rw [hrow] at hrow'
            cases hrow'
            exact absurd (heq'.symm.trans heq) hne
          · exact Or.inr hexpired
        · cases hrow'
    | settled _ _ => exact h
    | finished => trivial

/-! ### A send -/

section Send

variable {channel : String} {outcome : SendOutcome}

theorem mem_send {e : Sent} : e ∈ (t.send id now channel outcome).sends ↔
    e ∈ t.sends ∨ e = ⟨id, now, channel, t.clock, outcome⟩ := by
  simp [send]

theorem replies_send {sid : String} (h : t.Replies id' sid) (hne : id' ≠ id) :
    (t.send id now channel outcome).Replies id' sid := by
  rcases h with ⟨e, he, hsent⟩ | hnone
  · exact Or.inl ⟨e, mem_send.2 (Or.inl he), hsent⟩
  · refine Or.inr (fun e he => ?_)
    rcases mem_send.1 he with hold | rfl
    · exact hnone e hold
    · exact Ne.symm hne

/-- The reservation lives, so no other send that has not failed is in its lifetime. -/
theorem Kept.send (h : t.Kept) {attempted : Bool} (hfits : Fits (.reserved id now attempted) t)
    (htime : t.clock ≤ now + idempotencyTtlSecs) : (t.send id now channel outcome).Kept := by
  obtain ⟨hid, hdated, hheld, hopen, hrejected⟩ := hfits
  refine ⟨h.row, fun e he => ?_, fun e he => ?_, fun e he hunfailed => ?_, ?_, ?_⟩
  · rcases mem_send.1 he with hold | rfl
    · exact h.sends e hold
    · exact ⟨hid, htime⟩
  · rcases mem_send.1 he with hold | rfl
    · exact h.dated e hold
    · exact hdated
  · rcases mem_send.1 he with hold | rfl
    · exact h.held e hold hunfailed
    · exact hheld
  · change ((t.sends ++ [_]).filter Sent.unfailed).Pairwise _
    rw [List.filter_append, List.pairwise_append]
    refine ⟨h.single, ?_, fun e he e' he' => ?_⟩
    · exact List.Pairwise.filter _ (List.pairwise_singleton _ _)
    · obtain ⟨hmem, hunfailed⟩ := List.mem_filter.mp he
      rw [List.mem_singleton.mp (List.mem_filter.mp he').1]
      change e.createdAt + idempotencyTtlSecs < t.clock
      rcases h.held e hmem hunfailed with ⟨row, hrow, heq⟩ | hexpired
      · rcases hheld with ⟨row', hrow', heq'⟩ | hover
        · rw [hrow] at hrow'
          cases hrow'
          have houtcome := (hrejected e hmem (heq.symm.trans heq')).1
          simp [Sent.unfailed, houtcome] at hunfailed
        · omega
      · exact hexpired
  · intro row sid hrow hsid
    refine replies_send (h.replies row sid hrow hsid) (fun heq => ?_)
    rw [hopen row hrow heq] at hsid
    cases hsid

theorem Fits.send (h : Fits k t) (hother : k.holds ≠ some id) (hreplays : k.replays ≠ some id) :
    Fits k (t.send id now channel outcome) := by
  cases k with
  | began _ => exact h
  | seen _ found =>
      refine ⟨h.1, fun row hfound => ?_⟩
      obtain ⟨hdated, hid, hreplies⟩ := h.2 row hfound
      refine ⟨hdated, hid, fun sid hsid => replies_send (hreplies sid hsid) (fun heq => ?_)⟩
      rw [hfound] at hreplays
      simp [KeyKnown.replays, hsid, heq] at hreplays
  | reserved id' now' attempted =>
      have hne : id' ≠ id := fun h => hother (congrArg some h)
      obtain ⟨hid, hdated, hheld, hopen, hrejected⟩ := h
      refine ⟨hid, hdated, hheld, hopen, fun e he heq => ?_⟩
      rcases mem_send.1 he with hold | rfl
      · exact hrejected e hold heq
      · exact absurd heq.symm hne
  | settled id' sid =>
      obtain ⟨e, he, hsent⟩ := h
      exact ⟨e, mem_send.2 (Or.inl he), hsent⟩
  | finished => trivial

end Send

/-! ### Every statement -/

variable {stmt : KeyStatement} {input : KeyInput}

theorem stale_expired {stale : Option Nat} (hallows : k.allows (.reserve stale now))
    (hfits : Fits k t) : now ≤ t.clock ∧ ∀ row, t.row = some row → stale = some row.id →
      row.createdAt + idempotencyTtlSecs < now := by
  rcases hallows with ⟨rfl, rfl⟩ | ⟨found, rfl, rfl, hexpired⟩
  · refine ⟨hfits.1, fun row _ hstale => ?_⟩
    cases hstale
  · refine ⟨hfits.1, fun row hrow hstale => ?_⟩
    have hdated := (hfits.2 found rfl).1 row hrow (Option.some.inj hstale).symm
    rw [hdated]
    exact hexpired

theorem replies_of_complete {sid : String} (hallows : k.allows (.complete id sid))
    (hfits : Fits k t) : t.Replies id sid := by
  rcases hallows with ⟨now, rfl⟩ | rfl
  · refine Or.inr (fun e he heq => ?_)
    cases (hfits.2.2.2.2 e he heq).2
  · exact Or.inl hfits

theorem not_holds_of_complete {sid : String} (hallows : k.allows (.complete id sid))
    (hapart : KeyKnown.Apart k k') (hfits : Fits k t) (hfits' : Fits k' t) :
    k'.holds ≠ some id := by
  rcases hallows with ⟨now, rfl⟩ | rfl
  · exact hapart.holds id rfl
  · intro hholds
    obtain ⟨e, he, heq, haccepted⟩ := hfits
    cases k' with
    | reserved id' now attempted =>
        cases hholds
        rw [(hfits'.2.2.2.2 e he heq).1] at haccepted
        cases haccepted
    | _ => cases hholds

theorem Kept.exec (h : t.Kept) (hallows : k.allows stmt) (hfits : Fits k t)
    (htime : stmt.inTime t = true) : (KeyStatement.exec stmt input t).1.Kept := by
  cases stmt with
  | reserve stale now =>
      obtain ⟨hnow, hstale⟩ := stale_expired hallows hfits
      refine input.fateOf.after_keeps KeyStore.Kept h ?_
      rcases t.reserve_cases stale now with hsame | ⟨hnew, hmatch⟩
      · rw [hsame]
        exact h
      · rw [hnew]
        exact h.inserted hnow (fun row hrow => hstale row hrow (hmatch row hrow))
  | send id now channel =>
      obtain ⟨attempted, rfl⟩ := hallows
      exact h.send hfits (of_decide_eq_true htime)
  | complete id sid =>
      exact input.fateOf.after_keeps KeyStore.Kept h
        (h.complete (replies_of_complete hallows hfits))
  | clear id =>
      obtain ⟨now, attempted, rfl⟩ := hallows
      exact input.fateOf.after_keeps KeyStore.Kept h (h.clear hfits.2.2.2.2)
  | _ => exact h

/-- What another request knows stays so. -/
theorem Fits.exec (hallows : k.allows stmt) (hapart : KeyKnown.Apart k k') (hfits : Fits k t)
    (h : Fits k' t) : Fits k' (KeyStatement.exec stmt input t).1 := by
  cases stmt with
  | reserve stale now =>
      obtain ⟨hnow, hstale⟩ := stale_expired hallows hfits
      refine input.fateOf.after_keeps (Fits k') h ?_
      rcases t.reserve_cases stale now with hsame | ⟨hnew, hmatch⟩
      · rw [hsame]
        exact h
      · rw [hnew]
        exact h.inserted hnow (fun row hrow => hstale row hrow (hmatch row hrow))
  | send id now channel =>
      obtain ⟨attempted, rfl⟩ := hallows
      exact h.send (hapart.holds id rfl) (hapart.replays id rfl)
  | complete id sid =>
      exact input.fateOf.after_keeps (Fits k') h
        (h.complete (not_holds_of_complete hallows hapart hfits h))
  | clear id =>
      obtain ⟨now, attempted, rfl⟩ := hallows
      exact input.fateOf.after_keeps (Fits k') h (h.clear (hapart.holds id rfl))
  | _ => exact h

theorem Kept.fits_looked (h : t.Kept) (hfits : Fits k t) :
    Fits (k.looked (input.fateOf.answer t.row)) t := by
  cases k with
  | began now =>
      cases hanswer : input.fateOf.answer t.row with
      | none => trivial
      | some found =>
          obtain ⟨_, rfl⟩ := StatementFate.answer_eq_some hanswer
          refine ⟨hfits, fun row hrow => ⟨fun row' hrow' _ => ?_, h.row row hrow,
            fun sid hsid => h.replies row sid hrow hsid⟩⟩
          rw [hrow] at hrow'
          cases hrow'
          rfl
  | _ => trivial

/-- What the request itself knows afterwards is so. -/
theorem Kept.fits_next (h : t.Kept) (hallows : k.allows stmt) (hfits : Fits k t) :
    Fits (k.next stmt input t) (KeyStatement.exec stmt input t).1 := by
  cases stmt with
  | lookup => exact h.fits_looked hfits
  | reserve stale now =>
      rcases t.reserve_cases stale now with hsame | ⟨hnew, _⟩
      · change Fits (KeyKnown.inserted now (input.fateOf.answer _)) _
        rw [hsame]
        cases input.fateOf <;> trivial
      · change Fits (KeyKnown.inserted now (input.fateOf.answer _)) (input.fateOf.after t _)
        rw [hnew]
        cases input.fateOf with
        | done => exact h.fits_inserted
        | refused => trivial
        | lost => trivial
  | send id now channel =>
      obtain ⟨attempted, rfl⟩ := hallows
      obtain ⟨hid, hdated, hheld, hopen, hrejected⟩ := hfits
      simp only [KeyKnown.next]
      split
      next sid haccepted =>
        refine ⟨_, mem_send.2 (Or.inr rfl), rfl, haccepted⟩
      next houtcome =>
        refine ⟨hid, hdated, hheld, hopen, fun e he heq => ?_⟩
        rcases mem_send.1 he with hold | rfl
        · exact ⟨(hrejected e hold heq).1, rfl⟩
        · exact ⟨houtcome, rfl⟩
      next => trivial
  | complete id sid =>
      simp only [KeyKnown.next]
      split
      · exact input.fateOf.after_keeps (Fits _) hfits
          (Fits.complete hfits (by simp [KeyKnown.holds]))
      · trivial
  | clear id => trivial
  | _ => exact hfits

theorem apart_of_nothing (hholds : k.holds = none) (hreplays : k.replays = none) :
    KeyKnown.Apart k k' := by
  refine ⟨fun id h => ?_, fun id h => ?_, fun id _ h => ?_⟩
  · rw [hholds] at h
    cases h
  · rw [hholds] at h
    cases h
  · rw [hreplays] at h
    cases h

theorem apart_looked (hfits : Fits k' t) :
    KeyKnown.Apart (k.looked (input.fateOf.answer t.row)) k' := by
  cases k with
  | began now =>
      cases hanswer : input.fateOf.answer t.row with
      | none => exact apart_of_nothing rfl rfl
      | some found =>
          obtain ⟨_, hfound⟩ := StatementFate.answer_eq_some hanswer
          refine ⟨(fun id h => by cases h), (fun id h => by cases h), fun id hholds hreplays => ?_⟩
          cases k' with
          | reserved id' now' attempted =>
              cases hholds
              cases hrow : found with
              | none =>
                  rw [hrow] at hreplays
                  cases hreplays
              | some row =>
                  rw [hrow] at hreplays
                  simp only [KeyKnown.looked, KeyKnown.replays, Option.ite_none_right_eq_some,
                    Option.some.injEq] at hreplays
                  obtain ⟨hsid, heq⟩ := hreplays
                  rw [hfits.2.2.2.1 row (hfound.trans hrow) heq] at hsid
                  cases hsid
          | _ => cases hholds
  | _ => exact apart_of_nothing rfl rfl

theorem apart_inserted (hfits : Fits k' t) :
    KeyKnown.Apart (.reserved t.nextId now false) k' := by
  refine ⟨fun id hid hholds => ?_, fun id hid hreplays => ?_, fun id _ h => by cases h⟩
  · cases hid
    cases k' with
    | reserved id' now' attempted =>
        cases hholds
        exact absurd hfits.1 (lt_irrefl _)
    | _ => cases hholds
  · cases hid
    cases k' with
    | seen now' found =>
        cases found with
        | none => cases hreplays
        | some row =>
            simp only [KeyKnown.replays, Option.ite_none_right_eq_some,
              Option.some.injEq] at hreplays
            have hlt := (hfits.2 row rfl).2.1
            omega
    | _ => cases hreplays

theorem apart_next (hallows : k.allows stmt) (h : KeyKnown.Apart k k') (hfits : Fits k' t) :
    KeyKnown.Apart (k.next stmt input t) k' := by
  cases stmt with
  | lookup => exact apart_looked hfits
  | reserve stale now =>
      change KeyKnown.Apart (KeyKnown.inserted now (input.fateOf.answer _)) k'
      rcases t.reserve_cases stale now with hsame | ⟨hnew, _⟩
      · rw [hsame]
        cases input.fateOf <;> exact apart_of_nothing rfl rfl
      · rw [hnew]
        cases input.fateOf with
        | done => exact apart_inserted hfits
        | refused => exact apart_of_nothing rfl rfl
        | lost => exact apart_of_nothing rfl rfl
  | send id now channel =>
      obtain ⟨attempted, rfl⟩ := hallows
      simp only [KeyKnown.next]
      split
      · exact apart_of_nothing rfl rfl
      · exact ⟨h.holds, h.replays, h.replayed⟩
      · exact apart_of_nothing rfl rfl
  | complete id sid =>
      simp only [KeyKnown.next]
      split
      · exact apart_of_nothing rfl rfl
      · exact apart_of_nothing rfl rfl
  | clear id => exact apart_of_nothing rfl rfl
  | _ => exact h

/-! ### The clock -/

def tick (t : KeyStore) (seconds : Nat) : KeyStore := { t with clock := t.clock + seconds }

theorem Held.tick (h : t.Held id createdAt) (seconds : Nat) :
    (t.tick seconds).Held id createdAt := by
  rcases h with hrow | hexpired
  · exact Or.inl hrow
  · refine Or.inr ?_
    change createdAt + idempotencyTtlSecs < t.clock + seconds
    omega

theorem Kept.tick (h : t.Kept) (seconds : Nat) : (t.tick seconds).Kept where
  row := h.row
  sends := h.sends
  dated := h.dated
  held e he hunfailed := (h.held e he hunfailed).tick seconds
  single := h.single
  replies := h.replies

theorem Fits.tick (h : Fits k t) (seconds : Nat) : Fits k (t.tick seconds) := by
  cases k with
  | began now =>
      change now ≤ t.clock at h
      change now ≤ t.clock + seconds
      omega
  | seen now found =>
      refine ⟨?_, h.2⟩
      have hnow := h.1
      change now ≤ t.clock + seconds
      omega
  | reserved id now attempted =>
      obtain ⟨hid, hdated, hheld, hrest⟩ := h
      exact ⟨hid, hdated, hheld.tick seconds, hrest⟩
  | settled _ _ => exact h
  | finished => trivial

/-! ### What is asked for -/

/-- The id of an accepted answer: of the send of the reservation that was found completed, of the
request's own send, or of none in development. -/
def Answered (t : KeyStore) (sid : String) : KeyKnown → Prop
  | .seen _ (some row) => t.Replies row.id sid
  | .settled id _ => ∃ e ∈ t.sends, e.rowId = id ∧ e.outcome = .accepted sid
  | _ => sid = "dev_not_sending"

theorem Fits.answered (h : Fits k t) {sid : String} (hanswers : k.Answers sid) :
    t.Answered sid k := by
  cases k with
  | seen now found =>
      cases found with
      | none => exact hanswers
      | some row => exact (h.2 row rfl).2.2 sid hanswers
  | settled id sid' =>
      cases hanswers
      exact h
  | _ => exact hanswers

/-- The reservation keeps the key until its lifetime is over, and is completed only with the
message id of this send. -/
def Keeps (t : KeyStore) (e : Sent) : Prop :=
  e.createdAt + idempotencyTtlSecs < t.clock ∨ ∃ row, t.row = some row ∧ row.id = e.rowId ∧
    row.createdAt = e.createdAt ∧ ∀ sid, row.responseSid = some sid → e.outcome = .accepted sid

theorem Kept.unfailed_unique (h : t.Kept) {e e' : Sent} (he : e ∈ t.sends) (he' : e' ∈ t.sends)
    (hunfailed : e.unfailed = true) (hunfailed' : e'.unfailed = true)
    (hdate : e.createdAt = e'.createdAt) : e = e' := by
  have hdistinct : (t.sends.filter Sent.unfailed).Pairwise
      (fun a b => a.createdAt ≠ b.createdAt) := by
    refine h.single.imp_of_mem (fun _ hb hlt heq => ?_)
    have htime := (h.sends _ (List.mem_filter.mp hb).1).2
    omega
  by_contra hne
  have hsymm : Std.Symm (fun a b : Sent => a.createdAt ≠ b.createdAt) := ⟨fun _ _ => Ne.symm⟩
  exact hdistinct.forall (List.mem_filter.mpr ⟨he, hunfailed⟩)
    (List.mem_filter.mpr ⟨he', hunfailed'⟩) hne hdate

theorem Kept.keeps (h : t.Kept) {e : Sent} (he : e ∈ t.sends) (hunfailed : e.unfailed = true) :
    t.Keeps e := by
  rcases h.held e he hunfailed with ⟨row, hrow, hid⟩ | hexpired
  · have hdate := h.dated e he row hrow hid
    refine Or.inr ⟨row, hrow, hid, hdate, fun sid hsid => ?_⟩
    rcases h.replies row sid hrow hsid with ⟨e', he', hid', haccepted⟩ | hnone
    · have hdate' := h.dated e' he' row hrow hid'.symm
      rw [h.unfailed_unique he he' hunfailed (unfailed_of_accepted haccepted)
        (hdate.symm.trans hdate')]
      exact haccepted
    · exact absurd hid.symm (hnone e he)
  · exact Or.inl hexpired

end KeyStore

/-! ## Every run -/

abbrev KeyState : Type := Concurrent KeyStatement KeyAnswer KeyStore KeyKnown SmsResult

inductive KeyAction
  | tick (seconds : Nat)
  /-- A request with the key has read the clock of its reservation. -/
  | request (sending : Sending)
  | issue (i : Nat) (input : KeyInput)
deriving DecidableEq, Repr

namespace KeyState

def start (clock : Int) : KeyState where
  store := { row := none, nextId := 1, clock := clock, sends := [] }
  running := []

def step (s : KeyState) : KeyAction → Option KeyState
  | .tick seconds => some { s with store := s.store.tick seconds }
  | .request sending =>
      some (Concurrent.start s (.began s.store.clock) (webhookSms sending s.store.clock))
  | .issue i input =>
      if s.nextMeets (fun _ stmt => stmt.suits input) i then
        Concurrent.issue keyProtocol s i input
      else none

/-- A send begins within the lifetime of its reservation, and a channel reports an error only for
a message that its provider did not take. -/
def sendsCertainly (s : KeyState) : KeyAction → Bool
  | .issue i input =>
      s.nextMeets (fun _ stmt => stmt.inTime s.store) i && input ≠ .sent .unknown
  | _ => true

structure Inv (s : KeyState) : Prop where
  sound : s.Sound keyProtocol KeyStore.Kept KeyStore.Fits
  apart : s.Apart KeyKnown.Apart
  ends : s.Ends keyProtocol KeyKnown.Ends

variable {s next : KeyState} {a : KeyAction}

theorem Inv.step (h : s.Inv) (hcertain : s.sendsCertainly a = true)
    (hstep : s.step a = some next) : next.Inv := by
  have hkept := h.sound.store
  cases a with
  | tick seconds =>
      cases hstep
      exact ⟨⟨hkept.tick seconds, fun r hr => (h.sound.fits r hr).tick seconds, h.sound.obeys⟩,
        h.apart, h.ends⟩
  | request sending =>
      cases hstep
      have hobeys : KeyObeys (.began s.store.clock) (webhookSms sending s.store.clock) :=
        obeys_webhookSms
      have hfits : KeyStore.Fits (.began s.store.clock) s.store := le_refl s.store.clock
      exact ⟨h.sound.start hfits (hobeys.weaken (fun _ _ _ => trivial)),
        h.apart.start (fun _ _ hapart => hapart.symm)
          (fun _ _ => KeyStore.apart_of_nothing rfl rfl), h.ends.start hobeys⟩
  | issue i input =>
      simp only [KeyState.step, Option.ite_none_right_eq_some] at hstep
      obtain ⟨htime, hinput⟩ := Bool.and_eq_true_iff.mp hcertain
      have hadmits : input ≠ .sent .unknown := of_decide_eq_true hinput
      obtain ⟨hsound, hapart⟩ := h.sound.issue_apart h.apart (fun _ _ hapart => hapart.symm)
        hadmits htime (fun _ _ hallows htime hfits => hkept.exec hallows hfits htime)
        (fun _ _ hallows _ hfits => hkept.fits_next hallows hfits)
        (fun _ _ _ hallows _ hapart hfits hfits' => KeyStore.Fits.exec hallows hapart hfits hfits')
        (fun _ _ _ hallows hapart _ hfits' => KeyStore.apart_next hallows hapart hfits') hstep.2
      exact ⟨hsound, hapart, h.ends.issue hadmits hstep.2⟩

theorem inv_start (clock : Int) : (start clock).Inv := by
  refine ⟨Concurrent.sound_of_none_running ⟨?_, ?_, ?_, ?_, List.Pairwise.nil, ?_⟩, ?_, ?_⟩
  · intro row hrow
    cases hrow
  · intro e he
    cases he
  · intro e he
    cases he
  · intro e he
    cases he
  · intro row sid hrow
    cases hrow
  · intro i j r r' _ hr
    cases hr
  · intro r hr
    cases hr

structure IdempotencyLaw (s : KeyState) : Prop where
  single : (s.store.sends.filter Sent.unfailed).Pairwise
    (fun e e' => e.createdAt + idempotencyTtlSecs < e'.sentAt)
  kept : ∀ e ∈ s.store.sends, e.unfailed = true → s.store.Keeps e
  answered : ∀ r ∈ s.running, ∀ sid, r.program = .done (.ok ⟨"accepted", sid⟩) →
    s.store.Answered sid r.known

theorem Inv.law (h : s.Inv) : s.IdempotencyLaw where
  single := h.sound.store.single
  kept _ he hunfailed := h.sound.store.keeps he hunfailed
  answered r hr _ hdone := (h.sound.fits r hr).answered (h.ends.done hr hdone rfl)

end KeyState

/-- In every run whose sends begin in time and fail only for certain, the lifetime of a key has at
most one send that has not failed, which keeps the key, and an accepted answer has its id. -/
theorem key_sends_once {clock : Int} {actions : List KeyAction} {s : KeyState}
    (hcertain : Transition.Meets KeyState.step (fun s a => s.sendsCertainly a = true)
      (KeyState.start clock) actions)
    (hrun : Transition.run KeyState.step (KeyState.start clock) actions = some s) :
    s.IdempotencyLaw := by
  have hkeep : ∀ (s : KeyState) (a : KeyAction) (next : KeyState), s.Inv →
      s.sendsCertainly a = true → s.step a = some next → next.Inv :=
    fun _ _ _ h hcertain hstep => h.step hcertain hstep
  exact (Transition.run_invariant hkeep (KeyState.inv_start clock) hcertain hrun).law

/-! ## A run with a retry -/

namespace KeyExample

def sending : Sending := ⟨false, false, ["twilio", "telnyx"]⟩

/-- The statements of a request up to its sends. -/
def gates (i : Nat) : List KeyAction :=
  [.issue i (.fate .done), .issue i (.fate .done), .issue i (.user (some true)),
    .issue i (.suppressed false), .issue i (.credits none),
    .issue i (.slot (some (.ok ⟨1, "alerts", 50, 1, 86400, some 100, none⟩)))]

/-- The first provider rejects the message, the second accepts it. A retry replays its id. -/
def replayed : List KeyAction :=
  [.request sending] ++ gates 0 ++ [.issue 0 (.sent .rejected), .issue 0 (.sent (.accepted "m1")),
    .issue 0 (.fate .done), .tick 10, .request sending, .issue 1 (.fate .done)]

/-- The connection breaks after the provider took the message, and the next provider rejects it.
The handler clears its reservation, and a retry sends again. -/
def sentTwice : List KeyAction :=
  [.request sending] ++ gates 0 ++ [.issue 0 (.sent .unknown), .issue 0 (.sent .rejected),
    .issue 0 (.fate .done), .tick 10, .request sending] ++ gates 1 ++
    [.issue 1 (.sent (.accepted "m2"))]

def reached (actions : List KeyAction) : KeyState :=
  Transition.final KeyState.step (KeyState.start 100) actions

end KeyExample

open KeyExample in
theorem key_sends_once_replayed : (reached replayed).IdempotencyLaw :=
  key_sends_once (by decide +kernel) (Transition.run_eq_final (by decide +kernel))

open KeyExample in
theorem not_key_sends_once_after_unknown :
    ¬ ∀ (clock : Int) (actions : List KeyAction) (s : KeyState),
      Transition.run KeyState.step (KeyState.start clock) actions = some s →
        s.IdempotencyLaw := by
  intro hlaw
  have hsingle := (hlaw 100 sentTwice _ (Transition.run_eq_final (by decide +kernel))).single
  exact absurd hsingle (by decide +kernel)

end Lightfriend.WebhookSms
