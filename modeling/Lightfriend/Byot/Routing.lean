import Lightfriend.Byot.Setup
import Lightfriend.Core.Database
import Lightfriend.Core.Log
import Lightfriend.Core.Transition

/-! # Routing through the user's own Twilio account

Routing is switched on by an attempt that has checked a number and credentials
with Twilio. The settings are read before the attempt is started, the check runs
without any lock, and what the attempt stores is guarded by its id alone.
-/

namespace Lightfriend.Byot

/-- What is checked with Twilio: `preferred_number` and the decrypted credentials. -/
structure Settings where
  phoneNumber : String
  accountSid : String
  authToken : String
deriving DecidableEq, Repr

inductive VerificationStatus
  | configuring
  | verified
  | error
  | drifted
deriving DecidableEq, Repr

/-- The row of the user in `byot_verifications`; its times are left out. -/
structure ByotVerification where
  phoneNumber : String
  phoneSid : Option String
  status : VerificationStatus
  attemptId : Nat
  errorCode : Option String
deriving DecidableEq, Repr

/-- The Twilio columns of the user's row in `user_secrets`. -/
structure UserSecrets where
  twilioAccountSid : Option String
  twilioAuthToken : Option String
deriving DecidableEq, Repr

/-- A request between two of its statements. -/
inductive Request
  /-- `update_own_twilio_enabled(true)` with the number it has read. -/
  | enable (phoneNumber : String)
  | enableWith (settings : Settings)
  /-- The attempt is started and Twilio is asked. -/
  | attempt (settings : Settings) (attemptId : Nat)
  /-- `verify_byot_setup` with the number it has read. -/
  | verify (phoneNumber : String)
  | verifyWith (settings : Settings)
  | updateTwilioCreds (phoneNumber accountSid authToken : String)
  | clearTwilioCreds (phoneNumber : String)
deriving DecidableEq, Repr

/-- What an attempt that succeeded has checked, and what it has seen. -/
structure Checked where
  attemptId : Nat
  settings : Settings
  live : IncomingPhoneNumberConfig
deriving DecidableEq, Repr

inductive Entry
  /-- `update_own_twilio_enabled(false)`. -/
  | disabled
  | started (attemptId : Nat)
  | activated (attemptId : Nat)
  /-- A drift verdict about some settings, and those whose routing it has switched off. -/
  | drifted (about : Settings) (switchedOff : Option Settings)
deriving DecidableEq, Repr

structure State where
  preferredNumber : Option String
  ownTwilioEnabled : Bool
  secrets : Option UserSecrets
  verification : Option ByotVerification
  requests : List (Nat × Request)
  nextRequest : Nat
  /-- Ids of attempts are new; the uuids of the source. -/
  nextAttempt : Nat
  checked : Option Checked
  log : List Entry
deriving DecidableEq

/-- A user who has not set up anything yet. -/
def init (preferredNumber : Option String) : State :=
  ⟨preferredNumber, false, none, none, [], 0, 0, none, []⟩

namespace State

/-- `current_phone`. -/
def currentPhone (s : State) : Option String :=
  s.preferredNumber.filter (fun phone => phone ≠ "")

/-- `get_twilio_credentials`. -/
def getTwilioCredentials (s : State) : Option (String × String) :=
  match s.secrets with
  | some ⟨some accountSid, some authToken⟩ => some (accountSid, authToken)
  | _ => none

/-- The stored number and credentials are these. -/
def Stored (s : State) (settings : Settings) : Prop :=
  s.preferredNumber = some settings.phoneNumber ∧
    s.secrets = some ⟨some settings.accountSid, some settings.authToken⟩

instance (s : State) (settings : Settings) : Decidable (s.Stored settings) :=
  inferInstanceAs (Decidable (_ ∧ _))

/-- The request of a number. -/
def request? (s : State) (number : Nat) : Option Request :=
  (s.requests.find? (fun r => r.1 = number)).map Prod.snd

def begin (s : State) (request : Request) : State :=
  { s with
    requests := s.requests ++ [(s.nextRequest, request)]
    nextRequest := s.nextRequest + 1 }

def finish (s : State) (number : Nat) : State :=
  { s with requests := s.requests.filter (fun r => r.1 ≠ number) }

/-- The request goes on. -/
def proceed (s : State) (number : Nat) (request : Request) : State :=
  { s.finish number with requests := (s.finish number).requests ++ [(number, request)] }

/-- `upsert_changed_verification` and `own_twilio_enabled = false`. -/
def invalidate (s : State) (phoneNumber : String) : State :=
  { s with
    ownTwilioEnabled := false
    verification := some ⟨phoneNumber, none, .error, s.nextAttempt, some "configuration_changed"⟩
    nextAttempt := s.nextAttempt + 1 }

def updatePhoneAndInvalidate (s : State) (phoneNumber : String) : State :=
  { s.invalidate phoneNumber with preferredNumber := some phoneNumber }

def replaceCredentialsAndInvalidate (s : State) (phoneNumber accountSid authToken : String) :
    State :=
  { s.invalidate phoneNumber with secrets := some ⟨some accountSid, some authToken⟩ }

def clearCredentialsAndInvalidate (s : State) (phoneNumber : String) : State :=
  { s.invalidate phoneNumber with secrets := s.secrets.map (fun _ => ⟨none, none⟩) }

def startAttempt (s : State) (phoneNumber : String) : State :=
  { s with
    ownTwilioEnabled := false
    verification := some ⟨phoneNumber, none, .configuring, s.nextAttempt, none⟩
    nextAttempt := s.nextAttempt + 1
    log := .started s.nextAttempt :: s.log }

/-- The filter of `activate_if_current` and `fail_if_current`. -/
def current (s : State) (attemptId : Nat) : Bool :=
  s.verification.any (fun v => decide (v.attemptId = attemptId ∧ v.status = .configuring))

def activateIfCurrent (s : State) (checked : Checked) : State :=
  if s.current checked.attemptId then
    { s with
      ownTwilioEnabled := true
      verification := s.verification.map (fun v =>
        { v with phoneSid := some checked.live.sid, status := .verified, errorCode := none })
      checked := some checked
      log := .activated checked.attemptId :: s.log }
  else s

def failIfCurrent (s : State) (attemptId : Nat) (errorCode : String) : State :=
  if s.current attemptId then
    { s with
      verification := s.verification.map (fun v =>
        { v with status := .error, errorCode := some errorCode }) }
  else s

/-- `mark_drifted`, with the settings that the verdict is about. -/
def markDrifted (s : State) (about : Settings) (errorCode : String) : State :=
  { s with
    ownTwilioEnabled := false
    verification := s.verification.map (fun v =>
      { v with status := .drifted, errorCode := some errorCode })
    log := .drifted about (if s.ownTwilioEnabled then s.checked.map Checked.settings else none) ::
      s.log }

def markChecked (s : State) : State :=
  { s with
    verification := s.verification.map (fun v =>
      if v.status = .verified then { v with errorCode := none } else v) }

def disable (s : State) : State :=
  { s with ownTwilioEnabled := false, log := .disabled :: s.log }

end State

inductive Action
  | disable (fate : StatementFate)
  | updateTwilioPhone (phoneNumber : String) (fate : StatementFate)
  /-- A request reads the number. -/
  | enable
  | verify
  | updateTwilioCreds (accountSid authToken : String)
  | clearTwilioCreds
  /-- The next statement of a request. -/
  | readCredentials (number : Nat)
  | start (number : Nat) (fate : StatementFate)
  | settle (number : Nat) (answers : TwilioAnswers) (fate : StatementFate)
  | live (number : Nat) (answer : Except TwilioClientError IncomingPhoneNumberConfig)
      (fate : StatementFate)
  | replaceCredentials (number : Nat) (fate : StatementFate)
  | clearCredentials (number : Nat) (fate : StatementFate)
  /-- A query or the decryption fails. -/
  | abandon (number : Nat)
deriving DecidableEq

/-- The credentials have been read too. -/
def Request.withCredentials (accountSid authToken : String) : Request → Option Request
  | .enable phoneNumber => some (.enableWith ⟨phoneNumber, accountSid, authToken⟩)
  | .verify phoneNumber => some (.verifyWith ⟨phoneNumber, accountSid, authToken⟩)
  | _ => none

/-- A request without credentials to check ends. -/
def State.readCredentials (s : State) (number : Nat) (request : Request) : State :=
  match s.getTwilioCredentials with
  | none => s.finish number
  | some (accountSid, authToken) =>
      match request.withCredentials accountSid authToken with
      | none => s
      | some next => s.proceed number next

/-- The end of an attempt. -/
def State.settle (endpoints : ByotWebhookEndpoints) (s : State) (settings : Settings)
    (attemptId : Nat) (answers : TwilioAnswers) : State :=
  match configureAndVerify answers settings.phoneNumber endpoints with
  | .error e => s.failIfCurrent attemptId e.code
  | .ok config => s.activateIfCurrent ⟨attemptId, settings, config⟩

/-- The error code under which `verify_byot_setup` stores that the configuration has drifted. -/
def driftCode (endpoints : ByotWebhookEndpoints) (settings : Settings) :
    Except TwilioClientError IncomingPhoneNumberConfig → Option String
  | .error e => some (safeTwilioError e).code
  | .ok config =>
      match verifyLiveConfiguration config settings.phoneNumber endpoints with
      | .ok _ => none
      | .error e => some e.code

/-- The end of `verify_byot_setup`. -/
def State.live (endpoints : ByotWebhookEndpoints) (s : State) (settings : Settings)
    (answer : Except TwilioClientError IncomingPhoneNumberConfig) : State :=
  match driftCode endpoints settings answer with
  | none => s.markChecked
  | some errorCode => s.markDrifted settings errorCode

/-- `start_attempt` in a request that has read its settings. -/
def State.start (s : State) (number : Nat) (settings : Settings) : StatementFate → State
  | .done =>
      (s.startAttempt settings.phoneNumber).proceed number (.attempt settings s.nextAttempt)
  | .refused => s.finish number
  | .lost => (s.startAttempt settings.phoneNumber).finish number

/-! ## The requests of a number -/

def State.enabling? (s : State) (number : Nat) : Option Settings :=
  match s.request? number with
  | some (.enableWith settings) => some settings
  | _ => none

def State.attempting? (s : State) (number : Nat) : Option (Settings × Nat) :=
  match s.request? number with
  | some (.attempt settings attemptId) => some (settings, attemptId)
  | _ => none

def State.verifying? (s : State) (number : Nat) : Option Settings :=
  match s.request? number with
  | some (.verifyWith settings) => some settings
  | _ => none

/-- The new credentials of a request, and the number it has read. -/
def State.replacing? (s : State) (number : Nat) : Option Settings :=
  match s.request? number with
  | some (.updateTwilioCreds phoneNumber accountSid authToken) =>
      some ⟨phoneNumber, accountSid, authToken⟩
  | _ => none

def State.clearing? (s : State) (number : Nat) : Option String :=
  match s.request? number with
  | some (.clearTwilioCreds phoneNumber) => some phoneNumber
  | _ => none

def step (endpoints : ByotWebhookEndpoints) (s : State) : Action → Option State
  | .disable fate => some (fate.after s s.disable)
  | .updateTwilioPhone phoneNumber fate =>
      some (fate.after s (s.updatePhoneAndInvalidate phoneNumber))
  | .enable => s.currentPhone.map (fun phone => s.begin (.enable phone))
  | .verify => s.currentPhone.map (fun phone => s.begin (.verify phone))
  | .updateTwilioCreds accountSid authToken =>
      some (s.begin (.updateTwilioCreds (s.currentPhone.getD "") accountSid authToken))
  | .clearTwilioCreds => some (s.begin (.clearTwilioCreds (s.currentPhone.getD "")))
  | .readCredentials number => (s.request? number).map (s.readCredentials number)
  | .start number fate =>
      (s.enabling? number).map (fun settings => s.start number settings fate)
  | .settle number answers fate =>
      (s.attempting? number).map (fun a => fate.after (s.finish number)
        ((s.finish number).settle endpoints a.1 a.2 answers))
  | .live number answer fate =>
      (s.verifying? number).map (fun settings => fate.after (s.finish number)
        ((s.finish number).live endpoints settings answer))
  | .replaceCredentials number fate =>
      (s.replacing? number).map (fun settings => fate.after (s.finish number)
        ((s.finish number).replaceCredentialsAndInvalidate settings.phoneNumber
          settings.accountSid settings.authToken))
  | .clearCredentials number fate =>
      (s.clearing? number).map (fun phoneNumber => fate.after (s.finish number)
        ((s.finish number).clearCredentialsAndInvalidate phoneNumber))
  | .abandon number => some (s.finish number)

/-! ## What routing promises -/

/-- Routing is on only for the stored settings, as the attempt that has verified them checked
them. -/
def OnlyVerified (endpoints : ByotWebhookEndpoints) (s : State) : Prop :=
  s.ownTwilioEnabled = true → ∃ v c, s.verification = some v ∧ s.checked = some c ∧
    v.status = .verified ∧ v.attemptId = c.attemptId ∧ v.phoneNumber = c.settings.phoneNumber ∧
      v.phoneSid = some c.live.sid ∧ s.Stored c.settings ∧
        verifyLiveConfiguration c.live c.settings.phoneNumber endpoints = .ok ()

/-- No attempt switches routing on that was started before an explicit disable. -/
def DisableLasts (log : List Entry) : Prop :=
  ∀ later earlier attemptId, log = later ++ .activated attemptId :: earlier →
    .disabled ∉ Log.since (.started attemptId) earlier

/-- A drift verdict switches off no other settings than those it is about. -/
def DriftIsCurrent (log : List Entry) : Prop :=
  ∀ about switchedOff, .drifted about (some switchedOff) ∈ log → switchedOff = about

/-- An attempt starts with the settings that are stored; it is settled without an explicit disable
since; and a drift verdict comes while routing is off, or about the settings that are stored. -/
def InTurn (endpoints : ByotWebhookEndpoints) (s : State) : Action → Prop
  | .start number .done => ∀ settings ∈ s.enabling? number, s.Stored settings
  | .settle number answers _ => ∀ a ∈ s.attempting? number,
      (configureAndVerify answers a.1.phoneNumber endpoints).isOk = true →
        s.current a.2 = true → .disabled ∉ Log.since (.started a.2) s.log
  | .live number answer _ => ∀ settings ∈ s.verifying? number,
      (driftCode endpoints settings answer).isSome = true → s.ownTwilioEnabled = true →
        s.Stored settings
  | _ => True

instance (endpoints : ByotWebhookEndpoints) (s : State) (a : Action) :
    Decidable (InTurn endpoints s a) := by
  cases a with
  | start number fate => cases fate <;> unfold InTurn <;> infer_instance
  | _ => unfold InTurn; infer_instance

/-! ## The invariant -/

structure Inv (endpoints : ByotWebhookEndpoints) (s : State) : Prop where
  onlyVerified : OnlyVerified endpoints s
  /-- While an attempt is current, its settings are the stored ones: every change of a setting
  replaces the attempt. -/
  attempts : ∀ number settings attemptId, (number, .attempt settings attemptId) ∈ s.requests →
    s.current attemptId = true → s.Stored settings ∧
      ∀ v ∈ s.verification, v.phoneNumber = settings.phoneNumber
  fresh : ∀ v ∈ s.verification, v.attemptId < s.nextAttempt
  freshRequests : ∀ number settings attemptId,
    (number, .attempt settings attemptId) ∈ s.requests → attemptId < s.nextAttempt
  disableLasts : DisableLasts s.log
  driftIsCurrent : DriftIsCurrent s.log

variable {endpoints : ByotWebhookEndpoints} {s t : State}

theorem inv_init (preferredNumber : Option String) : Inv endpoints (init preferredNumber) where
  onlyVerified := fun h => by cases h
  attempts := fun _ _ _ h => by cases h
  fresh := fun _ h => by cases h
  freshRequests := fun _ _ _ h => by cases h
  disableLasts := by
    intro later earlier attemptId h
    exact absurd (congrArg List.length h) (by simp [init])
  driftIsCurrent := fun _ _ h => by cases h

theorem current_spec {attemptId : Nat} (h : s.current attemptId = true) :
    ∃ v, s.verification = some v ∧ v.attemptId = attemptId ∧ v.status = .configuring := by
  unfold State.current at h
  cases hv : s.verification with
  | none => simp [hv] at h
  | some v =>
      simp only [hv, Option.any_some, decide_eq_true_eq] at h
      exact ⟨v, rfl, h.1, h.2⟩

/-- While an attempt is current, routing is off. -/
theorem Inv.off_of_current (h : Inv endpoints s) {attemptId : Nat}
    (hcurrent : s.current attemptId = true) : s.ownTwilioEnabled = false := by
  cases hon : s.ownTwilioEnabled with
  | false => rfl
  | true =>
      obtain ⟨v, hv, -, hstatus⟩ := current_spec hcurrent
      obtain ⟨v', c, hv', -, hverified, -⟩ := h.onlyVerified hon
      rw [hv, Option.some.injEq] at hv'
      rw [← hv', hstatus] at hverified
      cases hverified

theorem disableLasts_cons {log : List Entry} {e : Entry} (h : DisableLasts log)
    (he : ∀ attemptId, e = .activated attemptId → .disabled ∉ Log.since (.started attemptId) log) :
    DisableLasts (e :: log) := by
  intro later earlier attemptId hsplit
  rcases Log.cons_split hsplit with ⟨-, heq, rfl⟩ | ⟨rest, -, hlog⟩
  · exact he attemptId heq
  · exact h rest earlier attemptId hlog

theorem driftIsCurrent_cons {log : List Entry} {e : Entry} (h : DriftIsCurrent log)
    (he : ∀ about switchedOff, e = .drifted about (some switchedOff) → switchedOff = about) :
    DriftIsCurrent (e :: log) := by
  intro about switchedOff hmem
  rcases List.mem_cons.mp hmem with heq | hmem
  · exact he about switchedOff heq.symm
  · exact h about switchedOff hmem

/-- Steps that only change the requests, and start no attempt. -/
theorem Inv.ofRequests (h : Inv endpoints s) (requests : List (Nat × Request)) (next : Nat)
    (hsub : ∀ number settings attemptId, (number, Request.attempt settings attemptId) ∈ requests →
      (number, Request.attempt settings attemptId) ∈ s.requests) :
    Inv endpoints { s with requests := requests, nextRequest := next } where
  onlyVerified := h.onlyVerified
  attempts := fun number settings attemptId hin =>
    h.attempts number settings attemptId (hsub number settings attemptId hin)
  fresh := h.fresh
  freshRequests := fun number settings attemptId hin =>
    h.freshRequests number settings attemptId (hsub number settings attemptId hin)
  disableLasts := h.disableLasts
  driftIsCurrent := h.driftIsCurrent

theorem Inv.begin (h : Inv endpoints s) {request : Request}
    (hnot : ∀ settings attemptId, request ≠ .attempt settings attemptId) :
    Inv endpoints (s.begin request) := by
  apply h.ofRequests
  intro number settings attemptId hin
  rcases List.mem_append.mp hin with hin | hin
  · exact hin
  · exact absurd (congrArg Prod.snd (List.mem_singleton.mp hin)).symm (hnot settings attemptId)

theorem Inv.finish (h : Inv endpoints s) (number : Nat) : Inv endpoints (s.finish number) := by
  apply h.ofRequests
  intro other settings attemptId hin
  exact (List.mem_filter.mp hin).1

theorem Inv.proceed (h : Inv endpoints s) (number : Nat) {request : Request}
    (hnot : ∀ settings attemptId, request ≠ .attempt settings attemptId) :
    Inv endpoints (s.proceed number request) := by
  apply (h.finish number).ofRequests
  intro other settings attemptId hin
  rcases List.mem_append.mp hin with hin | hin
  · exact hin
  · exact absurd (congrArg Prod.snd (List.mem_singleton.mp hin)).symm (hnot settings attemptId)

theorem Inv.readCredentials (h : Inv endpoints s) (number : Nat) (request : Request) :
    Inv endpoints (s.readCredentials number request) := by
  unfold State.readCredentials
  split
  next => exact h.finish number
  next accountSid authToken _ =>
    cases request with
    | enable phoneNumber => exact h.proceed number (fun _ _ heq => by cases heq)
    | verify phoneNumber => exact h.proceed number (fun _ _ heq => by cases heq)
    | _ => exact h

/-! ## The steps -/

theorem Inv.disable (h : Inv endpoints s) : Inv endpoints s.disable where
  onlyVerified := fun hon => by cases hon
  attempts := h.attempts
  fresh := h.fresh
  freshRequests := h.freshRequests
  disableLasts := disableLasts_cons h.disableLasts (fun _ heq => by cases heq)
  driftIsCurrent := driftIsCurrent_cons h.driftIsCurrent (fun _ _ heq => by cases heq)

/-- A changed setting: the attempt that was current is replaced by none. -/
theorem Inv.invalidate (h : Inv endpoints s) (phoneNumber : String)
    (preferredNumber : Option String) (secrets : Option UserSecrets) :
    Inv endpoints { s.invalidate phoneNumber with
      preferredNumber := preferredNumber, secrets := secrets } where
  onlyVerified := fun hon => by cases hon
  attempts := by
    intro number settings attemptId _ hcurrent
    simp [State.current, State.invalidate] at hcurrent
  fresh := by
    intro v hv
    cases hv
    exact Nat.lt_succ_self _
  freshRequests := fun number settings attemptId hin =>
    Nat.lt_succ_of_lt (h.freshRequests number settings attemptId hin)
  disableLasts := h.disableLasts
  driftIsCurrent := h.driftIsCurrent

theorem Inv.startAttempt (h : Inv endpoints s) (phoneNumber : String) :
    Inv endpoints (s.startAttempt phoneNumber) where
  onlyVerified := fun hon => by cases hon
  attempts := by
    intro number settings attemptId hin hcurrent
    obtain ⟨v, hv, hid, -⟩ := current_spec hcurrent
    cases hv
    have hlt := h.freshRequests number settings attemptId hin
    exact absurd hid (Nat.ne_of_gt hlt)
  fresh := by
    intro v hv
    cases hv
    exact Nat.lt_succ_self _
  freshRequests := fun number settings attemptId hin =>
    Nat.lt_succ_of_lt (h.freshRequests number settings attemptId hin)
  disableLasts := disableLasts_cons h.disableLasts (fun _ heq => by cases heq)
  driftIsCurrent := driftIsCurrent_cons h.driftIsCurrent (fun _ _ heq => by cases heq)

/-- The attempt that starts is current, with the settings that are stored. -/
theorem Inv.start (h : Inv endpoints s) (number : Nat) {settings : Settings}
    (hstored : s.Stored settings) : Inv endpoints (s.start number settings .done) := by
  have hstarted := (h.startAttempt settings.phoneNumber).finish number
  constructor
  · exact hstarted.onlyVerified
  · intro other settings' attemptId hin hcurrent
    rcases List.mem_append.mp hin with hin | hin
    · exact hstarted.attempts other settings' attemptId hin hcurrent
    · cases List.mem_singleton.mp hin
      refine ⟨hstored, fun v hv => ?_⟩
      cases hv
      rfl
  · exact hstarted.fresh
  · intro other settings' attemptId hin
    rcases List.mem_append.mp hin with hin | hin
    · exact hstarted.freshRequests other settings' attemptId hin
    · cases List.mem_singleton.mp hin
      exact Nat.lt_succ_self _
  · exact hstarted.disableLasts
  · exact hstarted.driftIsCurrent

/-- A row that is no longer being configured belongs to no attempt. -/
theorem not_current_of_status {v : ByotVerification} (hv : s.verification = some v)
    (hstatus : v.status ≠ .configuring) (attemptId : Nat) : s.current attemptId = false := by
  simp [State.current, hv, hstatus]

theorem Inv.activate (h : Inv endpoints s) {c : Checked}
    (hlive : verifyLiveConfiguration c.live c.settings.phoneNumber endpoints = .ok ())
    (hstored : s.current c.attemptId = true →
      s.Stored c.settings ∧ ∀ v ∈ s.verification, v.phoneNumber = c.settings.phoneNumber)
    (hlasts : s.current c.attemptId = true → .disabled ∉ Log.since (.started c.attemptId) s.log) :
    Inv endpoints (s.activateIfCurrent c) := by
  unfold State.activateIfCurrent
  split
  next hcurrent =>
    obtain ⟨v, hv, hid, -⟩ := current_spec hcurrent
    obtain ⟨hsettings, hphone⟩ := hstored hcurrent
    constructor
    · intro _
      refine ⟨_, c, congrArg (Option.map _) hv, rfl, rfl, hid, hphone v hv, rfl, hsettings, hlive⟩
    · intro number settings attemptId _ hcur
      rw [not_current_of_status (congrArg (Option.map _) hv) (by simp)] at hcur
      cases hcur
    · intro w hw
      obtain ⟨old, hold, rfl⟩ := Option.map_eq_some_iff.mp hw
      exact h.fresh old hold
    · exact h.freshRequests
    · apply disableLasts_cons h.disableLasts
      intro attemptId heq
      cases heq
      exact hlasts hcurrent
    · exact driftIsCurrent_cons h.driftIsCurrent (fun _ _ heq => by cases heq)
  next => exact h

theorem Inv.failIfCurrent (h : Inv endpoints s) (attemptId : Nat) (errorCode : String) :
    Inv endpoints (s.failIfCurrent attemptId errorCode) := by
  unfold State.failIfCurrent
  split
  next hcurrent =>
    have hoff := h.off_of_current hcurrent
    obtain ⟨v, hv, hid, -⟩ := current_spec hcurrent
    constructor
    · intro hon
      exact absurd hon (by simp [hoff])
    · intro number settings other _ hcur
      rw [not_current_of_status (congrArg (Option.map _) hv) (by simp)] at hcur
      cases hcur
    · intro w hw
      obtain ⟨old, hold, rfl⟩ := Option.map_eq_some_iff.mp hw
      exact h.fresh old hold
    · exact h.freshRequests
    · exact h.disableLasts
    · exact h.driftIsCurrent
  next => exact h

theorem Inv.markDrifted (h : Inv endpoints s) {about : Settings} (errorCode : String)
    (hstored : s.ownTwilioEnabled = true → s.Stored about) :
    Inv endpoints (s.markDrifted about errorCode) := by
  constructor
  · intro hon
    cases hon
  · intro number settings attemptId _ hcur
    obtain ⟨w, hw, -, hstatus⟩ := current_spec hcur
    obtain ⟨old, -, rfl⟩ := Option.map_eq_some_iff.mp hw
    cases hstatus
  · intro w hw
    obtain ⟨old, hold, rfl⟩ := Option.map_eq_some_iff.mp hw
    exact h.fresh old hold
  · exact h.freshRequests
  · exact disableLasts_cons h.disableLasts (fun _ heq => by cases heq)
  · apply driftIsCurrent_cons h.driftIsCurrent
    intro about' switchedOff heq
    simp only [Entry.drifted.injEq] at heq
    obtain ⟨rfl, hoff⟩ := heq
    split at hoff
    next hon =>
      obtain ⟨-, c, -, hc, -, -, -, -, hchecked, -⟩ := h.onlyVerified hon
      have habout := hstored hon
      rw [hc, Option.map_some, Option.some.injEq] at hoff
      subst hoff
      have hphone := hchecked.1.symm.trans habout.1
      have hsecrets := hchecked.2.symm.trans habout.2
      simp only [Option.some.injEq, UserSecrets.mk.injEq] at hphone hsecrets
      cases hcs : c.settings
      cases about
      simp_all
    next => cases hoff

theorem Inv.markChecked (h : Inv endpoints s) : Inv endpoints s.markChecked := by
  constructor
  · intro hon
    obtain ⟨v, c, hv, hc, hstatus, hrest⟩ := h.onlyVerified hon
    refine ⟨{ v with errorCode := none }, c, ?_, hc, hstatus, hrest⟩
    show s.verification.map _ = _
    rw [hv, Option.map_some, if_pos hstatus]
  · intro number settings attemptId hin hcur
    obtain ⟨w, hw, hid, hstatus⟩ := current_spec hcur
    obtain ⟨old, hold, rfl⟩ := Option.map_eq_some_iff.mp hw
    split at hid
    next hverified =>
      rw [if_pos hverified] at hstatus
      exact absurd (hverified.symm.trans hstatus) (by simp)
    next hnot =>
      rw [if_neg hnot] at hstatus
      have hcurrent : s.current attemptId = true := by
        rw [State.current, hold]
        simp [hid, hstatus]
      obtain ⟨hsettings, hphone⟩ := h.attempts number settings attemptId hin hcurrent
      refine ⟨hsettings, fun v hv => ?_⟩
      obtain ⟨before, hbefore, rfl⟩ := Option.map_eq_some_iff.mp hv
      split
      · exact hphone before hbefore
      · exact hphone before hbefore
  · intro w hw
    obtain ⟨old, hold, rfl⟩ := Option.map_eq_some_iff.mp hw
    split
    · exact h.fresh old hold
    · exact h.fresh old hold
  · exact h.freshRequests
  · exact h.disableLasts
  · exact h.driftIsCurrent

theorem request?_mem {number : Nat} {request : Request} (h : s.request? number = some request) :
    (number, request) ∈ s.requests := by
  obtain ⟨⟨n, r⟩, hfind, rfl⟩ := Option.map_eq_some_iff.mp h
  have hnumber := List.find?_some hfind
  simp only [decide_eq_true_eq] at hnumber
  exact hnumber ▸ List.mem_of_find?_eq_some hfind

theorem attempting?_mem {number : Nat} {a : Settings × Nat} (h : s.attempting? number = some a) :
    (number, .attempt a.1 a.2) ∈ s.requests := by
  unfold State.attempting? at h
  split at h
  next settings attemptId hrequest =>
    cases h
    exact request?_mem hrequest
  next => cases h

theorem Inv.settle (h : Inv endpoints s) {number : Nat} {a : Settings × Nat}
    {answers : TwilioAnswers} (ha : s.attempting? number = some a)
    (hlasts : (configureAndVerify answers a.1.phoneNumber endpoints).isOk = true →
      s.current a.2 = true → .disabled ∉ Log.since (.started a.2) s.log) :
    Inv endpoints ((s.finish number).settle endpoints a.1 a.2 answers) := by
  unfold State.settle
  cases hcheck : configureAndVerify answers a.1.phoneNumber endpoints with
  | error e => exact (h.finish number).failIfCurrent a.2 e.code
  | ok config =>
      rw [hcheck] at hlasts
      exact (h.finish number).activate (configureAndVerify_ok hcheck)
        (h.attempts number a.1 a.2 (attempting?_mem ha)) (hlasts rfl)

theorem Inv.live (h : Inv endpoints s) (number : Nat) {settings : Settings}
    {answer : Except TwilioClientError IncomingPhoneNumberConfig}
    (hstored : (driftCode endpoints settings answer).isSome = true → s.ownTwilioEnabled = true →
      s.Stored settings) :
    Inv endpoints ((s.finish number).live endpoints settings answer) := by
  unfold State.live
  cases hcode : driftCode endpoints settings answer with
  | none => exact (h.finish number).markChecked
  | some errorCode =>
      rw [hcode] at hstored
      exact (h.finish number).markDrifted errorCode (hstored rfl)

theorem inv_step {a : Action} (h : Inv endpoints s) (hok : InTurn endpoints s a)
    (hstep : step endpoints s a = some t) : Inv endpoints t := by
  cases a with
  | disable fate =>
      cases hstep
      exact fate.after_keeps (Inv endpoints) h h.disable
  | updateTwilioPhone phoneNumber fate =>
      cases hstep
      exact fate.after_keeps (Inv endpoints) h (h.invalidate phoneNumber _ _)
  | enable =>
      obtain ⟨phone, -, rfl⟩ := Option.map_eq_some_iff.mp hstep
      exact h.begin (fun _ _ heq => by cases heq)
  | verify =>
      obtain ⟨phone, -, rfl⟩ := Option.map_eq_some_iff.mp hstep
      exact h.begin (fun _ _ heq => by cases heq)
  | updateTwilioCreds accountSid authToken =>
      cases hstep
      exact h.begin (fun _ _ heq => by cases heq)
  | clearTwilioCreds =>
      cases hstep
      exact h.begin (fun _ _ heq => by cases heq)
  | readCredentials number =>
      obtain ⟨request, -, rfl⟩ := Option.map_eq_some_iff.mp hstep
      exact h.readCredentials number request
  | start number fate =>
      obtain ⟨settings, hsettings, rfl⟩ := Option.map_eq_some_iff.mp hstep
      cases fate with
      | done => exact h.start number (hok settings hsettings)
      | refused => exact h.finish number
      | lost => exact (h.startAttempt _).finish number
  | settle number answers fate =>
      obtain ⟨attempt, hattempt, rfl⟩ := Option.map_eq_some_iff.mp hstep
      exact fate.after_keeps (Inv endpoints) (h.finish number)
        (h.settle hattempt (hok attempt hattempt))
  | live number answer fate =>
      obtain ⟨settings, hsettings, rfl⟩ := Option.map_eq_some_iff.mp hstep
      exact fate.after_keeps (Inv endpoints) (h.finish number)
        (h.live number (hok settings hsettings))
  | replaceCredentials number fate =>
      obtain ⟨settings, -, rfl⟩ := Option.map_eq_some_iff.mp hstep
      exact fate.after_keeps (Inv endpoints) (h.finish number)
        ((h.finish number).invalidate settings.phoneNumber _ _)
  | clearCredentials number fate =>
      obtain ⟨phoneNumber, -, rfl⟩ := Option.map_eq_some_iff.mp hstep
      exact fate.after_keeps (Inv endpoints) (h.finish number)
        ((h.finish number).invalidate phoneNumber _ _)
  | abandon number =>
      cases hstep
      exact h.finish number

def exampleEndpoints : ByotWebhookEndpoints :=
  ⟨"https://example.com/api/sms/server", "https://example.com/api/voice/incoming"⟩

/-- A number as Twilio shows it once the webhooks are configured. -/
def liveNumber (sid phoneNumber : String) : IncomingPhoneNumberConfig :=
  ⟨sid, phoneNumber, true, true, exampleEndpoints.sms, "POST", exampleEndpoints.voice, "POST"⟩

def answersFor (sid phoneNumber : String) : TwilioAnswers :=
  ⟨.ok (liveNumber sid phoneNumber), .ok (), .ok (liveNumber sid phoneNumber)⟩

/-- The user stores credentials and enables routing for the first number. -/
def setup : List Action :=
  [.updateTwilioCreds "AC1" "token", .replaceCredentials 0 .done, .enable, .readCredentials 1,
    .start 1 .done, .settle 1 (answersFor "PN1" "+15550001") .done]

/-- Another number is stored, enabled and checked, and routing switched off at the end. -/
def inOrder : List Action :=
  setup ++ [.updateTwilioPhone "+15550002" .done, .enable, .readCredentials 2, .start 2 .done,
    .settle 2 (answersFor "PN2" "+15550002") .done, .verify, .readCredentials 3,
    .live 3 (.ok (liveNumber "PN2" "+15550002")) .done, .disable .done]

/-- The number is replaced after the request has read the old one. -/
def staleSettings : List Action :=
  [.updateTwilioCreds "AC1" "token", .replaceCredentials 0 .done, .enable,
    .updateTwilioPhone "+15550002" .done, .readCredentials 1, .start 1 .done,
    .settle 1 (answersFor "PN1" "+15550001") .done]

/-- Routing is disabled while Twilio is being asked. -/
def disabledMeanwhile : List Action :=
  [.updateTwilioCreds "AC1" "token", .replaceCredentials 0 .done, .enable, .readCredentials 1,
    .start 1 .done, .disable .done, .settle 1 (answersFor "PN1" "+15550001") .done]

/-- The first number is found to have drifted after the second one was verified. -/
def lateVerdict : List Action :=
  setup ++ [.verify, .readCredentials 2, .updateTwilioPhone "+15550002" .done, .enable,
    .readCredentials 3, .start 3 .done, .settle 3 (answersFor "PN2" "+15550002") .done,
    .live 2 (.error (.notFound "+15550001")) .done]

/-- What is on was checked: the stored number is the checked one. -/
theorem OnlyVerified.preferredNumber (h : OnlyVerified endpoints s)
    (hon : s.ownTwilioEnabled = true) :
    s.preferredNumber = s.checked.map (fun c => c.settings.phoneNumber) := by
  obtain ⟨v, c, -, hc, -, -, -, -, hstored, -⟩ := h hon
  rw [hstored.1, hc]
  rfl

end Lightfriend.Byot
