import Lightfriend.Core.Concurrent
import Lightfriend.Core.Machine
import Lightfriend.SmsDelivery.StatusLog

/-! # The Telnyx fallback of a failed message

A callback of a failed delivery begins a task. The task that claims the row of
the message replays it through Telnyx and records what became of it. Tasks of
duplicate callbacks overlap; whether the service may send at all is fixed for
the process.
-/

namespace Lightfriend.SmsDelivery

variable {π : Type}

/-! ## The row and the sends -/

def fallbackPrefix : String := "[Lightfriend backup] "

structure TelnyxSend where
  messageSid : String
  toNumber : String
  body : String
  outcome : Except String String

structure FallbackStore (π : Type) where
  rows : StatusTable π
  /-- The callbacks that were handled, and the messages handed to Telnyx. No code reads them. -/
  reports : List TwilioStatusCallback
  sends : List TelnyxSend

/-- As `log_message` inserts it. -/
def MessageStatusLog.queued (messageSid : String) (userId : Int) (toNumber : String)
    (fromNumber encryptedBody : Option String) : MessageStatusLog π where
  messageSid := messageSid
  userId := userId
  toNumber := toNumber
  fromNumber := fromNumber
  status := "queued"
  errorCode := none
  errorMessage := none
  price := none
  priceUnit := none
  encryptedBody := encryptedBody
  fallbackProvider := none
  fallbackAttemptedAt := none
  fallbackMessageSid := none
  fallbackError := none

namespace MessageStatusLog

def claim (now : Int) (r : MessageStatusLog π) : MessageStatusLog π :=
  { r with
    fallbackAttemptedAt := some now
    fallbackProvider := some "telnyx"
    fallbackMessageSid := none
    fallbackError := none }

def recordSuccess (fallbackMessageSid : String) (r : MessageStatusLog π) : MessageStatusLog π :=
  { r with fallbackMessageSid := some fallbackMessageSid, fallbackError := none }

/-- The first 1000 characters. -/
def shortened (error : String) : String := takeChars 1000 error

def recordError (error : String) (r : MessageStatusLog π) : MessageStatusLog π :=
  { r with fallbackError := some (shortened error) }

/-- The columns of the fallback's outcome. -/
def outcome (r : MessageStatusLog π) : Option String × Option String :=
  (r.fallbackMessageSid, r.fallbackError)

end MessageStatusLog

/-- How an outcome is recorded. -/
def recorded : Except String String → Option String × Option String
  | .ok fallbackMessageSid => (some fallbackMessageSid, none)
  | .error error => (none, some (MessageStatusLog.shortened error))

namespace FallbackStore

/-- `UPDATE message_status_log SET .. WHERE message_sid = ..`. -/
def update (t : FallbackStore π) (messageSid : String)
    (set : MessageStatusLog π → MessageStatusLog π)
    (hkey : ∀ r, (set r).messageSid = r.messageSid) : FallbackStore π :=
  { t with rows := t.rows.updateWhere (fun r => r.messageSid = messageSid) set hkey }

def claimable (t : FallbackStore π) (messageSid : String) : Option (MessageStatusLog π) :=
  (t.rows.find? messageSid).filter (fun r => r.fallbackAttemptedAt.isNone)

end FallbackStore

structure DeliveryFallbackMessage where
  userId : Int
  toNumber : String
  encryptedBody : Option String
deriving DecidableEq, Repr

/-! ## The statements of a task -/

inductive FallbackStatement
  | claim (messageSid : String)
  | findUser (userId : Int)
  | send (messageSid toNumber body : String)
  | recordSuccess (messageSid fallbackMessageSid : String)
  | recordError (messageSid error : String)
deriving DecidableEq, Repr

abbrev FallbackAnswer : FallbackStatement → Type
  | .claim _ => Option (Option DeliveryFallbackMessage)
  | .findUser _ => Except String Bool
  | .send _ _ _ => Except String String
  | .recordSuccess _ _ => Bool
  | .recordError _ _ => Bool

structure FallbackInput where
  fate : StatementFate
  now : Int
  /-- Whether the user is found. -/
  user : Except String Bool
  /-- The message id of Telnyx, or the error of the send. -/
  outcome : Except String String

def FallbackStatement.exec :
    Exec FallbackStatement FallbackAnswer FallbackInput (FallbackStore π) := fun s input t =>
  match s with
  | claim messageSid =>
      match t.claimable messageSid with
      | none => (t, input.fate.answer none)
      | some r =>
          (input.fate.after t (t.update messageSid (·.claim input.now) (fun _ => rfl)),
            input.fate.answer (some ⟨r.userId, r.toNumber, r.encryptedBody⟩))
  | findUser _ => (t, input.user)
  | send messageSid toNumber body =>
      ({ t with sends := t.sends ++ [⟨messageSid, toNumber, body, input.outcome⟩] }, input.outcome)
  | recordSuccess messageSid sid =>
      (input.fate.after t (t.update messageSid (·.recordSuccess sid) (fun _ => rfl)),
        (input.fate.answer ()).isSome)
  | recordError messageSid error =>
      (input.fate.after t (t.update messageSid (·.recordError error) (fun _ => rfl)),
        (input.fate.answer ()).isSome)

/-! ## The task -/

/-- The environment of the process, and what the task calls outside the repositories. -/
structure FallbackConfig where
  development : Bool
  telnyxConfigured : Bool
  decrypt : String → Except String String
  applySmsUrlFilter : String → String

namespace FallbackConfig

variable (config : FallbackConfig)

def sends : Bool := !config.development && config.telnyxConfigured

def telnyxDeliveryFallbackBody (body : String) : String :=
  let body := config.applySmsUrlFilter body
  if startsWithText body fallbackPrefix then body else fallbackPrefix ++ body

end FallbackConfig

def shouldAttemptTelnyxDeliveryFallback (status : String) (errorCode : Option String) : Bool :=
  if errorCode = some "21610" then false else status = "failed" || status = "undelivered"

abbrev FallbackProgram (ρ : Type) : Type := Program FallbackStatement FallbackAnswer ρ

section Task

variable (config : FallbackConfig) (messageSid : String)

def recordFallbackError (error : String) : FallbackProgram Unit :=
  .issue (.recordError messageSid error) (fun _ => .done ())

/-- A claim that finds no row is tried again after a while. -/
def claimWithRetry : Nat → FallbackProgram (Option DeliveryFallbackMessage)
  | 0 => .done none
  | attempts + 1 => .issue (.claim messageSid) (fun claimed =>
      match claimed with
      | some (some fallback) => .done (some fallback)
      | some none => claimWithRetry attempts
      | none => .done none)

def recordOutcome : Except String String → FallbackProgram Unit
  | .ok sid => .issue (.recordSuccess messageSid sid) (fun _ => .done ())
  | .error e => recordFallbackError messageSid e

/-- With the user that was found or not. -/
def sendFallback (fallback : DeliveryFallbackMessage) (body : String) :
    Except String Bool → FallbackProgram Unit
  | .ok true =>
      .issue (.send messageSid fallback.toNumber (config.telnyxDeliveryFallbackBody body))
        (recordOutcome messageSid)
  | .ok false => recordFallbackError messageSid s!"user {fallback.userId} not found"
  | .error e => recordFallbackError messageSid s!"find user failed: {e}"

def replay (fallback : DeliveryFallbackMessage) : FallbackProgram Unit :=
  match fallback.encryptedBody.filter (· ≠ "") with
  | none => recordFallbackError messageSid "missing encrypted outbound body"
  | some encryptedBody =>
      match config.decrypt encryptedBody with
      | .error e => recordFallbackError messageSid s!"failed to decrypt outbound body: {e}"
      | .ok body =>
          if trim body = "" then recordFallbackError messageSid "stored outbound body was empty"
          else .issue (.findUser fallback.userId) (sendFallback config messageSid fallback body)

def claimAndReplay : FallbackProgram Unit := do
  match ← claimWithRetry messageSid 4 with
  | none => .done ()
  | some fallback => replay config messageSid fallback

def attemptTelnyxDeliveryFallback : FallbackProgram Unit :=
  if config.development then
    recordFallbackError messageSid "skipping Telnyx delivery fallback in development environment"
  else if config.telnyxConfigured then claimAndReplay config messageSid
  else recordFallbackError messageSid "telnyx channel not configured"

end Task

/-! ## What a task knows -/

inductive FallbackKnown
  | began (messageSid : String)
  | claimed (messageSid : String)
  | sent (messageSid : String) (outcome : Except String String)
  | gaveUp

namespace FallbackKnown

def next (k : FallbackKnown) (s : FallbackStatement) (input : FallbackInput)
    (t : FallbackStore π) : FallbackKnown :=
  match s with
  | .claim messageSid =>
      match (FallbackStatement.exec (.claim messageSid) input t).2 with
      | some (some _) => claimed messageSid
      | _ => k
  | .send messageSid _ _ => sent messageSid input.outcome
  | .recordError _ _ => gaveUp
  | _ => k

/-- A task that has claimed nothing records an error only where the service never sends. -/
def allows (config : FallbackConfig) (k : FallbackKnown) : FallbackStatement → Prop
  | .claim messageSid => k = began messageSid ∧ config.sends = true
  | .findUser _ => True
  | .send messageSid _ _ => k = claimed messageSid
  | .recordSuccess messageSid sid => k = sent messageSid (.ok sid)
  | .recordError messageSid error =>
      (k = began messageSid ∧ config.sends = false) ∨ k = claimed messageSid ∨
        k = sent messageSid (.error error)

/-- The message that it has claimed and not sent. -/
def holds : FallbackKnown → Option String
  | claimed messageSid => some messageSid
  | _ => none

def Apart (k k' : FallbackKnown) : Prop := ∀ messageSid, k.holds = some messageSid →
  k'.holds ≠ some messageSid

theorem Apart.symm {k k' : FallbackKnown} (h : Apart k k') : Apart k' k :=
  fun messageSid hk hk' => h messageSid hk' hk

end FallbackKnown

def fallbackProtocol (config : FallbackConfig) :
    Protocol (FallbackStatement.exec (π := π)) FallbackKnown where
  allows := FallbackKnown.allows config
  admits _ := True
  next := FallbackKnown.next

section Obeys

variable {config : FallbackConfig} {messageSid : String} {k : FallbackKnown}

abbrev FallbackObeys (π : Type) (config : FallbackConfig) (k : FallbackKnown)
    (p : FallbackProgram Unit) : Prop :=
  (fallbackProtocol (π := π) config).Obeys (fun _ _ => True) k p

theorem obeys_recordError {error : String}
    (h : k.allows config (.recordError messageSid error)) :
    FallbackObeys π config k (recordFallbackError messageSid error) :=
  ⟨h, fun _ _ _ => trivial⟩

theorem obeys_claimWithRetry (messageSid : String) (hsends : config.sends = true) (attempts : Nat) :
    (fallbackProtocol (π := π) config).Obeys
      (fun k claimed => claimed.isSome = true → k = .claimed messageSid) (.began messageSid)
      (claimWithRetry messageSid attempts) := by
  induction attempts with
  | zero => exact fun h => by cases h
  | succ attempts ih =>
      refine ⟨⟨rfl, hsends⟩, fun input t _ => ?_⟩
      simp only [fallbackProtocol, FallbackKnown.next]
      cases (FallbackStatement.exec (.claim messageSid) input t).2 with
      | none => exact fun h => by cases h
      | some claimed =>
          cases claimed with
          | none => exact ih
          | some fallback => exact fun _ => rfl

theorem obeys_sendFallback (fallback : DeliveryFallbackMessage) (body : String)
    (user : Except String Bool) : FallbackObeys π config (.claimed messageSid)
      (sendFallback config messageSid fallback body user) := by
  cases user with
  | error e => exact obeys_recordError (Or.inr (Or.inl rfl))
  | ok found =>
      cases found with
      | false => exact obeys_recordError (Or.inr (Or.inl rfl))
      | true =>
          refine ⟨rfl, fun input t _ => ?_⟩
          change FallbackObeys π config (.sent messageSid input.outcome)
            (recordOutcome messageSid input.outcome)
          cases input.outcome with
          | ok sid => exact ⟨rfl, fun _ _ _ => trivial⟩
          | error e => exact obeys_recordError (Or.inr (Or.inr rfl))

theorem obeys_replay (fallback : DeliveryFallbackMessage) :
    FallbackObeys π config (.claimed messageSid) (replay config messageSid fallback) := by
  have hrecord : ∀ error, FallbackObeys π config (.claimed messageSid)
      (recordFallbackError messageSid error) :=
    fun error => obeys_recordError (Or.inr (Or.inl rfl))
  unfold replay
  split
  · exact hrecord _
  · split
    · exact hrecord _
    · split
      · exact hrecord _
      · exact ⟨trivial, fun input t _ => obeys_sendFallback fallback _ input.user⟩

theorem obeys_attempt :
    FallbackObeys π config (.began messageSid)
      (attemptTelnyxDeliveryFallback config messageSid) := by
  unfold attemptTelnyxDeliveryFallback
  split
  next hdevelopment =>
    exact obeys_recordError (Or.inl ⟨rfl, by simp [FallbackConfig.sends, hdevelopment]⟩)
  next hdevelopment =>
    split
    next htelnyx =>
      refine Protocol.Obeys.bind (obeys_claimWithRetry messageSid
        (by simp [FallbackConfig.sends, hdevelopment, htelnyx]) 4) (fun k claimed hclaimed => ?_)
      cases claimed with
      | none => trivial
      | some fallback =>
          rw [hclaimed rfl]
          exact obeys_replay fallback
    next htelnyx =>
      exact obeys_recordError (Or.inl ⟨rfl, by simp [FallbackConfig.sends, htelnyx]⟩)

end Obeys

/-! ## What the log and the sends keep -/

namespace FallbackStore

variable {t : FallbackStore π} {k k' : FallbackKnown} {config : FallbackConfig}
  {messageSid : String}

/-- The row of the message is claimed and has this outcome or none yet. -/
def Recorded (t : FallbackStore π) (e : TelnyxSend) : Prop :=
  ∃ r, t.rows.find? e.messageSid = some r ∧ r.fallbackAttemptedAt.isSome = true ∧
    (r.outcome = (none, none) ∨ r.outcome = recorded e.outcome)

/-- Some callback asked for the fallback. -/
def Reported (t : FallbackStore π) (messageSid : String) : Prop :=
  ∃ p ∈ t.reports, p.messageSid = messageSid ∧
    shouldAttemptTelnyxDeliveryFallback p.messageStatus p.errorCode = true

/-- The row is claimed, and nothing is sent or recorded yet. -/
def Open (t : FallbackStore π) (messageSid : String) : Prop :=
  (∃ r, t.rows.find? messageSid = some r ∧ r.fallbackAttemptedAt.isSome = true ∧
    r.outcome = (none, none)) ∧ ∀ e ∈ t.sends, e.messageSid ≠ messageSid

structure Kept (config : FallbackConfig) (t : FallbackStore π) : Prop where
  once : (t.sends.map (·.messageSid)).Nodup
  reported : ∀ e ∈ t.sends, t.Reported e.messageSid
  recorded : ∀ e ∈ t.sends, t.Recorded e
  enabled : config.sends = false → t.sends = []

def Fits (config : FallbackConfig) (k : FallbackKnown) (t : FallbackStore π) : Prop :=
  match k with
  | .began messageSid => t.Reported messageSid
  | .claimed messageSid => config.sends = true ∧ t.Reported messageSid ∧ t.Open messageSid
  | .sent messageSid outcome => ∃ e ∈ t.sends, e.messageSid = messageSid ∧ e.outcome = outcome
  | .gaveUp => True

theorem Kept.sole (h : Kept config t) {e e' : TelnyxSend} (he : e ∈ t.sends) (he' : e' ∈ t.sends)
    (heq : e.messageSid = e'.messageSid) : e = e' :=
  List.inj_on_of_nodup_map h.once he he' heq

/-! ### A change of the rows -/

/-- Every claimed row stays claimed. Its outcome changes for `writer` alone, and where its message
was sent it becomes that of the send. -/
structure RowsKept (writer : String) (t t' : FallbackStore π) : Prop where
  reports : t'.reports = t.reports
  sends : t'.sends = t.sends
  claimed : ∀ messageSid r, t.rows.find? messageSid = some r →
    r.fallbackAttemptedAt.isSome = true →
      ∃ r', t'.rows.find? messageSid = some r' ∧ r'.fallbackAttemptedAt.isSome = true ∧
        (messageSid ≠ writer → r'.outcome = r.outcome) ∧
          ∀ e ∈ t.sends, e.messageSid = messageSid →
            r'.outcome = r.outcome ∨ r'.outcome = SmsDelivery.recorded e.outcome

theorem RowsKept.refl (writer : String) (t : FallbackStore π) : RowsKept writer t t :=
  ⟨rfl, rfl, fun _ r hr hattempted => ⟨r, hr, hattempted, fun _ => rfl, fun _ _ _ => Or.inl rfl⟩⟩

variable {writer : String} {t' : FallbackStore π}

theorem RowsKept.reported (h : RowsKept writer t t') (hasked : t.Reported messageSid) :
    t'.Reported messageSid := by
  obtain ⟨p, hp, hasked⟩ := hasked
  exact ⟨p, by rw [h.reports]; exact hp, hasked⟩

theorem Kept.rows (h : Kept config t) (hrows : RowsKept writer t t') : Kept config t' where
  once := by
    rw [hrows.sends]
    exact h.once
  reported e he := by
    rw [hrows.sends] at he
    exact hrows.reported (h.reported e he)
  recorded e he := by
    rw [hrows.sends] at he
    obtain ⟨r, hr, hattempted, houtcome⟩ := h.recorded e he
    obtain ⟨r', hr', hattempted', _, hset⟩ := hrows.claimed _ r hr hattempted
    refine ⟨r', hr', hattempted', ?_⟩
    rcases hset e he rfl with hsame | hnew
    · rw [hsame]
      exact houtcome
    · exact Or.inr hnew
  enabled hdisabled := by
    rw [hrows.sends]
    exact h.enabled hdisabled

theorem Fits.rows (h : Fits config k t) (hrows : RowsKept writer t t')
    (hother : k.holds ≠ some writer) : Fits config k t' := by
  cases k with
  | began messageSid => exact hrows.reported h
  | claimed messageSid =>
      have hne : messageSid ≠ writer := fun heq => hother (congrArg some heq)
      obtain ⟨henabled, hasked, ⟨r, hr, hattempted, houtcome⟩, hnone⟩ := h
      obtain ⟨r', hr', hattempted', hsame, _⟩ := hrows.claimed _ r hr hattempted
      refine ⟨henabled, hrows.reported hasked,
        ⟨r', hr', hattempted', (hsame hne).trans houtcome⟩, fun e he => ?_⟩
      rw [hrows.sends] at he
      exact hnone e he
  | sent messageSid outcome =>
      obtain ⟨e, he, hsent⟩ := h
      exact ⟨e, by rw [hrows.sends]; exact he, hsent⟩
  | gaveUp => trivial

theorem find?_update {sid : String} (set : MessageStatusLog π → MessageStatusLog π)
    (hkey : ∀ r, (set r).messageSid = r.messageSid) {r : MessageStatusLog π}
    (h : t.rows.find? messageSid = some r) :
    (t.update sid set hkey).rows.find? messageSid =
      some (if messageSid = sid then set r else r) := by
  have hsid : r.messageSid = messageSid := (Table.find?_eq_some_iff.mp h).2
  change (t.rows.updateWhere _ set hkey).find? messageSid = _
  rw [Table.find?_updateWhere, h, Option.map_some, hsid]
  simp

/-- The row of another message stays, and that of the message itself is what is set. -/
theorem rowsKept_update (set : MessageStatusLog π → MessageStatusLog π)
    (hkey : ∀ r, (set r).messageSid = r.messageSid)
    (hset : ∀ r, t.rows.find? writer = some r → r.fallbackAttemptedAt.isSome = true →
      (set r).fallbackAttemptedAt.isSome = true ∧ ∀ e ∈ t.sends, e.messageSid = writer →
        (set r).outcome = r.outcome ∨ (set r).outcome = SmsDelivery.recorded e.outcome)
    (fate : StatementFate) : RowsKept writer t (fate.after t (t.update writer set hkey)) := by
  refine fate.after_keeps (RowsKept writer t) (.refl writer t) ?_
  refine ⟨rfl, rfl, fun messageSid r hr hattempted => ⟨_, find?_update set hkey hr, ?_⟩⟩
  by_cases hsame : messageSid = writer
  · rw [if_pos hsame]
    rw [hsame] at hr ⊢
    obtain ⟨hattempted', houtcome⟩ := hset r hr hattempted
    exact ⟨hattempted', fun hne => absurd rfl hne, houtcome⟩
  · rw [if_neg hsame]
    exact ⟨hattempted, fun _ => rfl, fun _ _ _ => Or.inl rfl⟩

/-! ### The statements of a task -/

variable {input : FallbackInput}

/-- A claim finds a row that nobody has claimed. -/
theorem rowsKept_claim {r : MessageStatusLog π} (now : Int)
    (hclaim : t.claimable messageSid = some r) (fate : StatementFate) :
    RowsKept messageSid t (fate.after t (t.update messageSid (·.claim now) (fun _ => rfl))) := by
  obtain ⟨hfound, hfree⟩ := Option.filter_eq_some_iff.mp hclaim
  refine rowsKept_update (·.claim now) (fun _ => rfl) (fun r' hr' hattempted => ?_) fate
  rw [hfound] at hr'
  cases hr'
  rw [Option.isNone_iff_eq_none.mp hfree] at hattempted
  cases hattempted

theorem rowsKept_success {fallbackMessageSid : String} (h : Kept config t)
    (hfits : Fits config (.sent messageSid (.ok fallbackMessageSid)) t) (fate : StatementFate) :
    RowsKept messageSid t (fate.after t
      (t.update messageSid (·.recordSuccess fallbackMessageSid) (fun _ => rfl))) := by
  obtain ⟨e, he, heq, houtcome⟩ := hfits
  refine rowsKept_update (·.recordSuccess fallbackMessageSid) (fun _ => rfl)
    (fun r _ hattempted => ⟨hattempted, fun e' he' heq' => Or.inr ?_⟩) fate
  rw [h.sole he' he (heq'.trans heq.symm), houtcome]
  rfl

theorem rowsKept_error {error : String} (h : Kept config t)
    (hallows : k.allows config (.recordError messageSid error)) (hfits : Fits config k t)
    (fate : StatementFate) :
    RowsKept messageSid t (fate.after t
      (t.update messageSid (·.recordError error) (fun _ => rfl))) := by
  refine rowsKept_update (·.recordError error) (fun _ => rfl)
    (fun r hr hattempted => ⟨hattempted, fun e' he' heq' => Or.inr ?_⟩) fate
  rcases hallows with ⟨_, hdisabled⟩ | rfl | rfl
  · rw [h.enabled hdisabled] at he'
    cases he'
  · exact absurd heq' (hfits.2.2.2 e' he')
  · obtain ⟨e, he, heq, houtcome⟩ := hfits
    rw [h.sole he' he (heq'.trans heq.symm), houtcome]
    obtain ⟨r', hr', _, hrecorded⟩ := h.recorded e he
    rw [heq, hr] at hr'
    cases hr'
    have hnone : r.fallbackMessageSid = none := by
      rcases hrecorded with hrecorded | hrecorded
      · exact congrArg Prod.fst hrecorded
      · rw [houtcome] at hrecorded
        exact congrArg Prod.fst hrecorded
    change (r.fallbackMessageSid, _) = _
    rw [hnone]
    rfl

theorem Kept.claim (h : Kept config t) (messageSid : String) :
    Kept config (FallbackStatement.exec (.claim messageSid) input t).1 := by
  simp only [FallbackStatement.exec]
  split
  · exact h
  next r hclaim => exact h.rows (rowsKept_claim _ hclaim input.fate)

theorem Kept.send (h : Kept config t) {toNumber body : String}
    (hfits : Fits config (.claimed messageSid) t) :
    Kept config (FallbackStatement.exec (.send messageSid toNumber body) input t).1 := by
  obtain ⟨henabled, hasked, ⟨r, hr, hattempted, houtcome⟩, hnone⟩ := hfits
  refine ⟨?_, fun e he => ?_, fun e he => ?_, fun hdisabled => ?_⟩
  · change ((t.sends ++ [_]).map _).Nodup
    rw [List.map_append, List.nodup_append]
    refine ⟨h.once, List.nodup_singleton _, fun sid hsid sid' hsid' => ?_⟩
    obtain ⟨e, he, rfl⟩ := List.mem_map.mp hsid
    rw [List.mem_singleton.mp hsid']
    exact hnone e he
  · rcases List.mem_append.mp he with hold | hnew
    · exact h.reported e hold
    · rw [List.mem_singleton.mp hnew]
      exact hasked
  · rcases List.mem_append.mp he with hold | hnew
    · exact h.recorded e hold
    · rw [List.mem_singleton.mp hnew]
      exact ⟨r, hr, hattempted, Or.inl houtcome⟩
  · rw [henabled] at hdisabled
    cases hdisabled

theorem Kept.exec (h : Kept config t) {stmt : FallbackStatement}
    (hallows : k.allows config stmt) (hfits : Fits config k t) :
    Kept config (FallbackStatement.exec stmt input t).1 := by
  cases stmt with
  | claim messageSid => exact h.claim messageSid
  | findUser userId => exact h
  | send messageSid toNumber body =>
      cases hallows
      exact h.send hfits
  | recordSuccess messageSid sid =>
      cases hallows
      exact h.rows (rowsKept_success h hfits input.fate)
  | recordError messageSid error => exact h.rows (rowsKept_error h hallows hfits input.fate)

/-- Nobody else has claimed the message whose outcome a task records. -/
theorem not_holds_of_record {outcome : Except String String}
    (hrecords : (k = .began messageSid ∧ config.sends = false) ∨ k = .claimed messageSid ∨
      k = .sent messageSid outcome) (hapart : FallbackKnown.Apart k k')
    (hfits : Fits config k t) (h : Fits config k' t) : k'.holds ≠ some messageSid := by
  intro hholds
  cases k' with
  | claimed messageSid' =>
      cases hholds
      rcases hrecords with ⟨_, hdisabled⟩ | rfl | rfl
      · rw [h.1] at hdisabled
        cases hdisabled
      · exact hapart _ rfl rfl
      · obtain ⟨e, he, heq, _⟩ := hfits
        exact h.2.2.2 e he heq
  | _ => cases hholds

/-- What another task knows stays so. -/
theorem Fits.exec {stmt : FallbackStatement} (hkept : Kept config t)
    (hallows : k.allows config stmt) (hapart : FallbackKnown.Apart k k')
    (hfits : Fits config k t) (h : Fits config k' t) :
    Fits config k' (FallbackStatement.exec stmt input t).1 := by
  cases stmt with
  | claim messageSid =>
      simp only [FallbackStatement.exec]
      split
      · exact h
      next r hclaim =>
        refine h.rows (rowsKept_claim _ hclaim input.fate) (fun hholds => ?_)
        cases k' with
        | claimed messageSid' =>
            cases hholds
            obtain ⟨r', hr', hattempted, _⟩ := h.2.2.1
            obtain ⟨hfound, hfree⟩ := Option.filter_eq_some_iff.mp hclaim
            rw [hr'] at hfound
            cases hfound
            rw [Option.isNone_iff_eq_none.mp hfree] at hattempted
            cases hattempted
        | _ => cases hholds
  | findUser userId => exact h
  | send messageSid toNumber body =>
      cases hallows
      cases k' with
      | began messageSid' => exact h
      | claimed messageSid' =>
          obtain ⟨henabled, hasked, hrow, hnone⟩ := h
          refine ⟨henabled, hasked, hrow, fun e he heq => ?_⟩
          rcases List.mem_append.mp he with hold | hnew
          · exact hnone e hold heq
          · rw [List.mem_singleton.mp hnew] at heq
            exact hapart messageSid rfl (congrArg some heq.symm)
      | sent messageSid' outcome =>
          obtain ⟨e, he, hsent⟩ := h
          exact ⟨e, List.mem_append_left _ he, hsent⟩
      | gaveUp => trivial
  | recordSuccess messageSid sid =>
      have hother := not_holds_of_record (Or.inr (Or.inr hallows)) hapart hfits h
      cases hallows
      exact h.rows (rowsKept_success hkept hfits input.fate) hother
  | recordError messageSid error =>
      exact h.rows (rowsKept_error hkept hallows hfits input.fate)
        (not_holds_of_record hallows hapart hfits h)

/-- What the task itself knows afterwards is so. -/
theorem Kept.fits_next {stmt : FallbackStatement} (h : Kept config t)
    (hallows : k.allows config stmt) (hfits : Fits config k t) :
    Fits config (k.next stmt input t) (FallbackStatement.exec stmt input t).1 := by
  cases stmt with
  | claim messageSid =>
      obtain ⟨rfl, henabled⟩ := hallows
      simp only [FallbackKnown.next, FallbackStatement.exec]
      cases hclaim : t.claimable messageSid with
      | none => cases input.fate <;> exact hfits
      | some r =>
          obtain ⟨hfound, hfree⟩ := Option.filter_eq_some_iff.mp hclaim
          have hrows := rowsKept_claim input.now hclaim input.fate
          cases hfate : input.fate with
          | refused => exact hfits
          | lost =>
              rw [hfate] at hrows
              exact hrows.reported hfits
          | done =>
              rw [hfate] at hrows
              refine ⟨henabled, hrows.reported hfits,
                ⟨_, find?_update (·.claim input.now) (fun _ => rfl) hfound, ?_, ?_⟩, fun e he heq => ?_⟩
              · rw [if_pos rfl]
                rfl
              · rw [if_pos rfl]
                rfl
              · obtain ⟨r', hr', hattempted, _⟩ := h.recorded e he
                rw [heq, hfound] at hr'
                cases hr'
                rw [Option.isNone_iff_eq_none.mp hfree] at hattempted
                cases hattempted
  | findUser userId => exact hfits
  | send messageSid toNumber body => exact ⟨_, List.mem_append_right _ (List.mem_singleton.mpr rfl),
      rfl, rfl⟩
  | recordSuccess messageSid sid =>
      cases hallows
      change Fits config (.sent messageSid (.ok sid)) _
      exact Fits.rows hfits (rowsKept_success h hfits input.fate) (fun hholds => by cases hholds)
  | recordError messageSid error => trivial

theorem apart_next {stmt : FallbackStatement} (hallows : k.allows config stmt)
    (hapart : FallbackKnown.Apart k k') (h : Fits config k' t) :
    FallbackKnown.Apart (k.next stmt input t) k' := by
  cases stmt with
  | claim messageSid =>
      obtain ⟨rfl, _⟩ := hallows
      simp only [FallbackKnown.next, FallbackStatement.exec]
      cases hclaim : t.claimable messageSid with
      | none => cases input.fate <;> exact hapart
      | some r =>
          cases input.fate with
          | done =>
              intro sid hsid hholds
              cases hsid
              cases k' with
              | claimed messageSid' =>
                  cases hholds
                  obtain ⟨r', hr', hattempted, _⟩ := h.2.2.1
                  obtain ⟨hfound, hfree⟩ := Option.filter_eq_some_iff.mp hclaim
                  rw [hr'] at hfound
                  cases hfound
                  rw [Option.isNone_iff_eq_none.mp hfree] at hattempted
                  cases hattempted
              | _ => cases hholds
          | refused => exact hapart
          | lost => exact hapart
  | findUser userId => exact hapart
  | send messageSid toNumber body => exact fun _ hsid => by cases hsid
  | recordSuccess messageSid sid => exact hapart
  | recordError messageSid error => exact fun _ hsid => by cases hsid

/-! ### Once recorded -/

/-- The row of the message has the outcome of the send. -/
def RecordedAs (t : FallbackStore π) (e : TelnyxSend) : Prop :=
  ∃ r, t.rows.find? e.messageSid = some r ∧ r.outcome = SmsDelivery.recorded e.outcome

/-- What was sent stays sent, and the outcome that is recorded of it stays. -/
structure Later (t t' : FallbackStore π) : Prop where
  sends : ∀ e ∈ t.sends, e ∈ t'.sends
  recorded : ∀ e ∈ t.sends, t.RecordedAs e → t'.RecordedAs e

theorem Later.refl (t : FallbackStore π) : Later t t := ⟨fun _ he => he, fun _ _ h => h⟩

theorem Later.trans {t'' : FallbackStore π} (h : Later t t') (h' : Later t' t'') : Later t t'' :=
  ⟨fun e he => h'.sends e (h.sends e he),
    fun e he hrecorded => h'.recorded e (h.sends e he) (h.recorded e he hrecorded)⟩

theorem RowsKept.later (h : RowsKept writer t t') (hkept : Kept config t) : Later t t' := by
  refine ⟨fun e he => by rw [h.sends]; exact he, fun e he hrecorded => ?_⟩
  obtain ⟨r, hr, houtcome⟩ := hrecorded
  obtain ⟨r', hr', hattempted, _⟩ := hkept.recorded e he
  rw [hr] at hr'
  cases hr'
  obtain ⟨r', hr', _, _, hset⟩ := h.claimed _ r hr hattempted
  refine ⟨r', hr', ?_⟩
  rcases hset e he rfl with hsame | hnew
  · exact hsame.trans houtcome
  · exact hnew

theorem later_exec {stmt : FallbackStatement} (hkept : Kept config t)
    (hallows : k.allows config stmt) (hfits : Fits config k t) :
    Later t (FallbackStatement.exec stmt input t).1 := by
  cases stmt with
  | claim messageSid =>
      simp only [FallbackStatement.exec]
      split
      · exact .refl t
      next r hclaim => exact (rowsKept_claim _ hclaim input.fate).later hkept
  | findUser userId => exact .refl t
  | send messageSid toNumber body =>
      exact ⟨fun e he => List.mem_append_left _ he, fun _ _ hrecorded => hrecorded⟩
  | recordSuccess messageSid sid =>
      cases hallows
      exact (rowsKept_success hkept hfits input.fate).later hkept
  | recordError messageSid error =>
      exact (rowsKept_error hkept hallows hfits input.fate).later hkept

/-! ### The rest of the service -/

/-- A write that leaves the columns of the fallback alone. -/
theorem rowsKept_columns (t : FallbackStore π) (sid : String)
    (set : MessageStatusLog π → MessageStatusLog π)
    (hkey : ∀ r, (set r).messageSid = r.messageSid)
    (hattempted : ∀ r, (set r).fallbackAttemptedAt = r.fallbackAttemptedAt)
    (houtcome : ∀ r, (set r).outcome = r.outcome) (fate : StatementFate) (writer : String) :
    RowsKept writer t (fate.after t (t.update sid set hkey)) := by
  refine fate.after_keeps (RowsKept writer t) (.refl writer t) ?_
  refine ⟨rfl, rfl, fun messageSid r hr hclaimed => ⟨_, find?_update set hkey hr, ?_⟩⟩
  split
  · refine ⟨?_, fun _ => houtcome r, fun _ _ _ => Or.inl (houtcome r)⟩
    rw [hattempted r]
    exact hclaimed
  · exact ⟨hclaimed, fun _ => rfl, fun _ _ _ => Or.inl rfl⟩

def log (t : FallbackStore π) (row : MessageStatusLog π) : FallbackStore π :=
  { t with rows := t.rows.insertOrIgnore row }

theorem rowsKept_log (row : MessageStatusLog π) (writer : String) :
    RowsKept writer t (t.log row) := by
  refine ⟨rfl, rfl, fun messageSid r hr hclaimed =>
    ⟨r, ?_, hclaimed, fun _ => rfl, fun _ _ _ => Or.inl rfl⟩⟩
  change (t.rows.insertOrIgnore row).find? messageSid = some r
  rw [Table.find?_insertOrIgnore, hr]
  simp

/-- A callback of a message is handled. -/
def report (t : FallbackStore π) (payload : TwilioStatusCallback) : FallbackStore π :=
  { t with reports := t.reports ++ [payload] }

theorem Reported.report (h : t.Reported messageSid) (payload : TwilioStatusCallback) :
    (t.report payload).Reported messageSid := by
  obtain ⟨p, hp, hasked⟩ := h
  exact ⟨p, List.mem_append_left _ hp, hasked⟩

theorem Kept.report (h : Kept config t) (payload : TwilioStatusCallback) :
    Kept config (t.report payload) :=
  ⟨h.once, fun e he => (h.reported e he).report payload, h.recorded, h.enabled⟩

theorem Fits.report (h : Fits config k t) (payload : TwilioStatusCallback) :
    Fits config k (t.report payload) := by
  cases k with
  | began messageSid => exact Reported.report h payload
  | claimed messageSid => exact ⟨h.1, Reported.report h.2.1 payload, h.2.2⟩
  | sent messageSid outcome => exact h
  | gaveUp => trivial

theorem Fits.columns (h : Fits config k t) (hrows : ∀ writer, RowsKept writer t t') :
    Fits config k t' := by
  by_cases hholds : k.holds = some ""
  · exact h.rows (hrows "-") (by rw [hholds]; decide)
  · exact h.rows (hrows "") hholds

end FallbackStore

/-! ## Every run -/

abbrev FallbackState (π : Type) : Type :=
  Concurrent FallbackStatement FallbackAnswer (FallbackStore π) FallbackKnown Unit

inductive FallbackAction
  /-- A message was sent through Twilio and is logged. -/
  | log (messageSid : String) (userId : Int) (toNumber : String)
      (fromNumber encryptedBody : Option String)
  | callback (payload : TwilioStatusCallback) (fate : StatementFate)
  | storePrice (messageSid : String) (price : MessagePrice) (fate : StatementFate)
  | issue (i : Nat) (input : FallbackInput)

namespace FallbackState

variable (format : PriceFormat π) (config : FallbackConfig)

def start : FallbackState π := ⟨⟨⟨[], List.nodup_nil⟩, [], []⟩, []⟩

/-- What the update of a status does to the log. -/
def updateStatus (t : FallbackStore π) (payload : TwilioStatusCallback) (fate : StatementFate) :
    FallbackStore π :=
  fate.after t
    (t.update payload.messageSid (·.setStatus (format.updateOf payload)) (fun _ => rfl))

def step (s : FallbackState π) : FallbackAction → Option (FallbackState π)
  | .log messageSid userId toNumber fromNumber encryptedBody => some { s with
      store := s.store.log (.queued messageSid userId toNumber fromNumber encryptedBody) }
  | .callback payload fate =>
      let handled : FallbackState π :=
        { s with store := (updateStatus format s.store payload fate).report payload }
      some (if shouldAttemptTelnyxDeliveryFallback payload.messageStatus payload.errorCode then
        Concurrent.start handled (.began payload.messageSid)
          (attemptTelnyxDeliveryFallback config payload.messageSid)
      else handled)
  | .storePrice messageSid price fate => some { s with
      store := fate.after s.store (s.store.update messageSid
        (·.setPrice (format.priceValue price) price.unit) (fun _ => rfl)) }
  | .issue i input => Concurrent.issue (fallbackProtocol config) s i input

structure Inv (s : FallbackState π) : Prop where
  sound : s.Sound (fallbackProtocol config) (FallbackStore.Kept config) (FallbackStore.Fits config)
  apart : s.Apart FallbackKnown.Apart

variable {format : PriceFormat π} {config : FallbackConfig} {s next : FallbackState π}
  {a : FallbackAction}

/-- A change of the store that leaves the columns of the fallback alone. -/
theorem Inv.columns (h : s.Inv config) {t : FallbackStore π}
    (hrows : ∀ writer, s.store.RowsKept writer t) : Inv config { s with store := t } :=
  ⟨⟨h.sound.store.rows (hrows ""), fun r hr => (h.sound.fits r hr).columns hrows, h.sound.obeys⟩,
    h.apart⟩

theorem rowsKept_updateStatus (t : FallbackStore π) (payload : TwilioStatusCallback)
    (fate : StatementFate) (writer : String) :
    t.RowsKept writer (updateStatus format t payload fate) :=
  FallbackStore.rowsKept_columns _ _ (·.setStatus (format.updateOf payload)) (fun _ => rfl)
    (fun _ => rfl) (fun _ => rfl) fate writer

theorem Inv.step (h : s.Inv config) (hstep : s.step format config a = some next) :
    next.Inv config ∧ s.store.Later next.store := by
  have hkept := h.sound.store
  cases a with
  | log messageSid userId toNumber fromNumber encryptedBody =>
      cases hstep
      exact ⟨h.columns (FallbackStore.rowsKept_log _),
        (FallbackStore.rowsKept_log _ "").later hkept⟩
  | callback payload fate =>
      cases hstep
      have hrows : ∀ writer,
          s.store.RowsKept writer (updateStatus format s.store payload fate) :=
        rowsKept_updateStatus s.store payload fate
      have hupdated := h.columns hrows
      have hhandled : Inv config ({ s with
          store := (updateStatus format s.store payload fate).report payload } :
            FallbackState π) :=
        ⟨⟨hupdated.sound.store.report payload,
          fun r hr => (hupdated.sound.fits r hr).report payload, h.sound.obeys⟩, h.apart⟩
      have hlater := (hrows "").later hkept
      split
      next hasked =>
        have hfits : FallbackStore.Fits config (.began payload.messageSid)
            ((updateStatus format s.store payload fate).report payload) :=
          ⟨payload, List.mem_append_right _ (List.mem_singleton.mpr rfl), rfl, hasked⟩
        refine ⟨⟨hhandled.sound.start hfits obeys_attempt, hhandled.apart.start ?_ ?_⟩,
          hlater.sends, hlater.recorded⟩
        · exact fun _ _ hapart => hapart.symm
        · exact fun _ _ _ hsid => by cases hsid
      next => exact ⟨hhandled, hlater.sends, hlater.recorded⟩
  | storePrice messageSid price fate =>
      cases hstep
      have hrows := FallbackStore.rowsKept_columns s.store messageSid
        (·.setPrice (format.priceValue price) price.unit) (fun _ => rfl) (fun _ => rfl)
        (fun _ => rfl) fate
      exact ⟨h.columns hrows, (hrows "").later hkept⟩
  | issue i input =>
      refine ⟨?_, ?_⟩
      · obtain ⟨hsound, hapart⟩ := h.sound.issue_apart h.apart
          (fun _ _ hapart => hapart.symm) trivial (Concurrent.nextMeets_true s i)
          (fun _ _ hallows _ hfits => hkept.exec hallows hfits)
          (fun _ _ hallows _ hfits => hkept.fits_next hallows hfits)
          (fun _ _ _ hallows _ hapart hfits hfits' =>
            FallbackStore.Fits.exec hkept hallows hapart hfits hfits')
          (fun _ _ _ hallows hapart _ hfits' => FallbackStore.apart_next hallows hapart hfits') hstep
        exact ⟨hsound, hapart⟩
      · obtain ⟨r, stmt, rest, hr, hprogram, rfl⟩ := Concurrent.issue_spec hstep
        have hmem : r ∈ s.running := List.mem_of_getElem? hr
        have hobeys := h.sound.obeys r hmem
        rw [hprogram] at hobeys
        exact FallbackStore.later_exec hkept hobeys.1 (h.sound.fits r hmem)

/-- At most one send for the message, only after a failure, and what is recorded is its outcome,
from one state of a run to a later one. -/
structure FallbackLaw (messageSid : String) (s final : FallbackState π) : Prop where
  once : (final.store.sends.filter (fun e => e.messageSid = messageSid)).length ≤ 1
  reported : ∀ e ∈ final.store.sends, e.messageSid = messageSid → ∃ p ∈ final.store.reports,
    p.messageSid = messageSid ∧ (p.messageStatus = "failed" ∨ p.messageStatus = "undelivered") ∧
      p.errorCode ≠ some "21610"
  recorded : ∀ e ∈ final.store.sends, e.messageSid = messageSid → final.store.Recorded e
  stays : ∀ e ∈ s.store.sends, e.messageSid = messageSid → s.store.RecordedAs e →
    final.store.RecordedAs e

theorem failed_of_shouldAttempt {status : String} {errorCode : Option String}
    (h : shouldAttemptTelnyxDeliveryFallback status errorCode = true) :
    (status = "failed" ∨ status = "undelivered") ∧ errorCode ≠ some "21610" := by
  unfold shouldAttemptTelnyxDeliveryFallback at h
  split at h
  · cases h
  next hcode =>
    refine ⟨?_, hcode⟩
    simpa using h

theorem inv_start : (start : FallbackState π).Inv config := by
  refine ⟨Concurrent.sound_of_none_running ⟨List.nodup_nil, ?_, ?_, fun _ => rfl⟩, ?_⟩
  · intro e he
    cases he
  · intro e he
    cases he
  · intro i j r r' _ hr
    cases hr

theorem Inv.law (h : next.Inv config) (hlater : s.store.Later next.store) (messageSid : String) :
    FallbackLaw messageSid s next where
  once := by
    have honce := h.sound.store.once
    have hcount := List.nodup_iff_count_le_one.mp honce messageSid
    rw [List.count, List.countP_map, List.countP_eq_length_filter] at hcount
    exact hcount
  reported e he heq := by
    obtain ⟨p, hp, hsid, hasked⟩ := h.sound.store.reported e he
    exact ⟨p, hp, hsid.trans heq, failed_of_shouldAttempt hasked⟩
  recorded e he _ := h.sound.store.recorded e he
  stays e he _ hrecorded := hlater.recorded e he hrecorded

end FallbackState

/-- In every run at most one Telnyx message is sent for a message, only after a callback reported
a failure, and what is recorded is its outcome and stays. -/
theorem telnyx_fallback_once {format : PriceFormat π} {config : FallbackConfig}
    {messageSid : String} {before after : List FallbackAction} {s final : FallbackState π}
    (hbefore : Transition.run (FallbackState.step format config) FallbackState.start before = some s)
    (hafter : Transition.run (FallbackState.step format config) s after = some final) :
    FallbackState.FallbackLaw messageSid s final := by
  have hkeep : ∀ (s : FallbackState π) (a : FallbackAction) (next : FallbackState π),
      s.Inv config → s.step format config a = some next → next.Inv config :=
    fun _ _ _ h hstep => (h.step hstep).1
  have hinv : s.Inv config := Transition.run_invariant_all hkeep FallbackState.inv_start hbefore
  have hkeep' : ∀ (u : FallbackState π) (a : FallbackAction) (next : FallbackState π),
      u.Inv config ∧ s.store.Later u.store → u.step format config a = some next →
        next.Inv config ∧ s.store.Later next.store :=
    fun _ _ _ h hstep => ⟨(h.1.step hstep).1, h.2.trans (h.1.step hstep).2⟩
  obtain ⟨hfinal, hlater⟩ := Transition.run_invariant_all hkeep' ⟨hinv, .refl s.store⟩ hafter
  exact hfinal.law hlater messageSid

/-! ## Two callbacks of a failure -/

namespace FallbackExample

def config : FallbackConfig := ⟨false, true, .ok, id⟩

def callback (errorCode : Option String) : FallbackAction :=
  .callback ⟨"SM1", "undelivered", errorCode, none, none, none⟩ .done

def done : FallbackInput := ⟨.done, 100, .ok true, .ok "T1"⟩

/-- Two tasks, of which the first claims, sends and records. -/
def replayed (errorCode : Option String) : List FallbackAction :=
  [.log "SM1" 1 "+358401234567" none (some "hello"), callback errorCode, callback errorCode] ++
    List.replicate 4 (.issue 0 done)

def reached (s : FallbackState Int) (actions : List FallbackAction) : FallbackState Int :=
  Transition.final (FallbackState.step StatusExample.format config) s actions

end FallbackExample

open FallbackExample in
theorem telnyx_fallback_once_replayed :
    FallbackState.FallbackLaw "SM1" (reached .start (replayed (some "30003")))
      (reached (reached .start (replayed (some "30003"))) [.issue 1 done]) :=
  telnyx_fallback_once
    (show Transition.run (FallbackState.step StatusExample.format config) .start
      (replayed (some "30003")) = some (reached .start (replayed (some "30003"))) from
        Transition.run_eq_final (by decide +kernel))
    (Transition.run_eq_final (by decide +kernel))

open FallbackExample in
/-- A failure without an error code is replayed as well. -/
theorem telnyx_fallback_without_error_code :
    ¬ ∀ (config : FallbackConfig) (actions : List FallbackAction) (s : FallbackState Int),
      Transition.run (FallbackState.step StatusExample.format config) FallbackState.start actions =
        some s → ∀ e ∈ s.store.sends, ∃ p ∈ s.store.reports, p.messageSid = e.messageSid ∧
          (p.messageStatus = "failed" ∨ p.messageStatus = "undelivered") ∧
            ∃ code, p.errorCode = some code ∧ code ≠ "21610" := by
  intro hlaw
  have hsent := hlaw config (replayed none) _ (Transition.run_eq_final (by decide +kernel))
  have hreports : ∀ p ∈ (reached .start (replayed none)).store.reports, p.errorCode = none := by
    decide +kernel
  have hlength : 0 < (reached .start (replayed none)).store.sends.length := by decide +kernel
  obtain ⟨p, hp, _, _, code, hcode, _⟩ := hsent _ (List.getElem_mem hlength)
  rw [hreports p hp] at hcode
  cases hcode

end Lightfriend.SmsDelivery
