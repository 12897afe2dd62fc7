import Lightfriend.Billing.Credits
import Lightfriend.Billing.UsageOutbox
import Lightfriend.Core.Transition

/-! # Charging an SMS

Both providers call back with the statuses of a message. A callback that its
handler takes for the final one is charged by `deduct_from_twilio_price`: to the
outbox under a transaction id made of the message id, or to the credits of the
user. The callbacks of a message are handled one after the other, and anything
else may happen to the user's row in between.
-/

namespace Lightfriend.Billing

/-! ## The callbacks -/

inductive SmsProvider
  | twilio
  | telnyx
deriving DecidableEq, Repr

def SmsProvider.name : SmsProvider → String
  | twilio => "twilio"
  | telnyx => "telnyx"

structure SmsMessage where
  provider : SmsProvider
  id : String
deriving DecidableEq, Repr

/-- The transaction id of the charge in the outbox. -/
def SmsMessage.transactionId (m : SmsMessage) : String := m.provider.name ++ "-sms-" ++ m.id

structure TwilioStatusCallback (α : Type) where
  messageSid : String
  messageStatus : String
  /-- The number in `Price`, if there is one. -/
  priceValue : Option α
deriving DecidableEq, Repr

structure TelnyxAddress where
  phoneNumber : String
  status : Option String
deriving DecidableEq, Repr

structure TelnyxStatusPayload where
  id : String
  /-- `to`. -/
  recipients : List TelnyxAddress
deriving DecidableEq, Repr

structure TelnyxWebhook where
  eventType : String
  payload : TelnyxStatusPayload
deriving DecidableEq, Repr

inductive StatusCallback (α : Type)
  | twilio (payload : TwilioStatusCallback α)
  | telnyx (webhook : TelnyxWebhook)
deriving DecidableEq, Repr

def StatusCallback.message {α : Type} : StatusCallback α → SmsMessage
  | twilio payload => ⟨.twilio, payload.messageSid⟩
  | telnyx webhook => ⟨.telnyx, webhook.payload.id⟩

/-- The settings of the server, and the arithmetic of `cost_to_microusd`. -/
structure SmsConfig (α : Type) where
  metronomeEnabled : Bool
  /-- The number in `TELNYX_USD_PER_MESSAGE`, if there is one. -/
  telnyxUsdPerMessage : Option α
  /-- None for a cost that is not finite or not positive. -/
  costToMicrousd : α → Option Int

def SmsConfig.telnyxPriceUsdPerMessage {α : Type} [F32 α] (config : SmsConfig α) : α :=
  config.telnyxUsdPerMessage.getD (F32.literal 4 3)

def normalizePhone (raw : String) : String :=
  if startsWithChar '+' (trim raw) then trim raw else "+" ++ trim raw

def mapTelnyxStatus (s : String) : String :=
  match s with
  | "queued" => "queued"
  | "sending" => "sending"
  | "delivering" => "sending"
  | "sent" => "sent"
  | "delivery_unconfirmed" => "sent"
  | "delivered" => "delivered"
  | "sending_failed" => "failed"
  | "delivery_failed" => "failed"
  | _ => "queued"

/-- The statuses that Twilio's handler charges for. -/
def isFinalTwilioStatus (status : String) : Bool :=
  ["delivered", "sent", "failed", "undelivered"].contains status

/-! ## The store -/

/-- A charge for the message, in the outbox or in one of the user's pools. -/
inductive SmsCharge (α : Type)
  | outbox (costMicrousd : Int)
  | pool (taken : α)
deriving DecidableEq, Repr

structure SmsStore (α : Type) where
  /-- The user whom the message was sent to, and the row of this user. -/
  userId : Int
  user : User α
  outbox : UsageTable
  /-- The credits in the usage log of the message. -/
  usageLogCredits : Option α
  /-- The charges that callbacks of the message recorded. No code reads it. -/
  charges : List (SmsCharge α)

inductive SmsStatement (α : Type)
  | billing (s : Statement α)
  | getMessageUserInfo (messageSid : String)
  | findByPhoneNumber (phoneNumber : String)
  | updateUsageLogCredits (sid : String) (credits : α)
deriving Repr

abbrev SmsAnswer {α : Type} : SmsStatement α → Type
  | .billing s => Answer s
  | .getMessageUserInfo _ => Option (Option Int)
  | .findByPhoneNumber _ => Option (Option Int)
  | .updateUsageLogCredits _ _ => Bool

structure SmsInput (α : Type) extends Input α where
  /-- Does the lookup of the message's user find one? -/
  found : Bool
  uuid : String
deriving DecidableEq, Repr

abbrev SmsProgram (α ρ : Type) : Type := Program (SmsStatement α) SmsAnswer ρ

namespace SmsStore

variable {α : Type} [F32 α] (config : SmsConfig α)

/-- The row that `enqueue_usage` inserts. -/
def usageEvent (t : SmsStore α) (input : SmsInput α) (eventType : String) (cost : α)
    (transactionId : Option String) : Option BillingUsageEvent :=
  (config.costToMicrousd cost).map (fun costMicrousd =>
    .enqueued (transactionId.getD input.uuid) t.userId eventType costMicrousd input.now input.now)

/-- An event whose transaction id is taken is not inserted. -/
def enqueue (t : SmsStore α) (event : BillingUsageEvent) : SmsStore α :=
  if t.outbox.HasKey event.transactionId then t
  else
    { t with
      outbox := t.outbox.insertOrIgnore event
      charges := t.charges ++ [.outbox event.costMicrousd] }

/-- The store after a statement that was carried out. -/
def write (t : SmsStore α) (input : SmsInput α) : SmsStatement α → SmsStore α
  | .billing (.enqueueUsage eventType cost transactionId) =>
      match t.usageEvent config input eventType cost transactionId with
      | none => t
      | some event => t.enqueue event
  | .billing (.updateUserCredits newCredits) =>
      { t with
        user := t.user.write (.updateUserCredits newCredits)
        charges := t.charges ++ [.pool (t.user.credits - newCredits)] }
  | .billing (.updateUserCreditsLeft newCreditsLeft) =>
      { t with
        user := t.user.write (.updateUserCreditsLeft newCreditsLeft)
        charges := t.charges ++ [.pool (t.user.creditsLeft - newCreditsLeft)] }
  | .billing s => { t with user := t.user.write s }
  | .updateUsageLogCredits _ credits => { t with usageLogCredits := some credits }
  | _ => t

def answer (t : SmsStore α) (input : SmsInput α) : (s : SmsStatement α) → SmsAnswer s
  | .billing (.enqueueUsage eventType cost transactionId) =>
      (t.usageEvent config input eventType cost transactionId).isSome &&
        (input.fate.answer ()).isSome
  | .billing s => t.user.answer input.toInput s
  | .getMessageUserInfo _ => input.fate.answer (if input.found then some t.userId else none)
  | .findByPhoneNumber _ => input.fate.answer (if input.found then some t.userId else none)
  | .updateUsageLogCredits _ _ => (input.fate.answer ()).isSome

def exec : Exec (SmsStatement α) SmsAnswer (SmsInput α) (SmsStore α) := fun s input t =>
  (input.fate.after t (t.write config input s), t.answer config input s)

end SmsStore

/-! ## The handlers -/

section Handlers

variable {α : Type} [F32 α]

def onCredits {ρ : Type} (p : BillingProgram α ρ) : SmsProgram α ρ :=
  p.embed SmsStatement.billing (fun _ answer => answer)

def getMessageUserInfo (messageSid : String) : SmsProgram α (Option (Option Int)) :=
  .issue (SmsStatement.getMessageUserInfo messageSid) .done

def findByPhoneNumber (phoneNumber : String) : SmsProgram α (Option (Option Int)) :=
  .issue (SmsStatement.findByPhoneNumber phoneNumber) .done

def updateUsageLogCredits (sid : String) (credits : α) : SmsProgram α Bool :=
  .issue (SmsStatement.updateUsageLogCredits sid credits) .done

/-- Deduct the price and note the cost in the usage log. -/
def deductAndLog (metronomeEnabled : Bool) (price : α) (message : SmsMessage) :
    SmsProgram α Unit := do
  match ← onCredits (deductFromTwilioPrice metronomeEnabled price (some message.id)
      message.provider.name) with
  | .error _ => return ()
  | .ok cost =>
      let _ ← updateUsageLogCredits message.id cost
      return ()

/-- Charge the user that a lookup found. -/
def chargeFound (metronomeEnabled : Bool) (price : α) (message : SmsMessage)
    (userId : Option (Option Int)) : SmsProgram α Unit :=
  match userId with
  | some (some _) => deductAndLog metronomeEnabled price message
  | _ => return ()

def twilioStatusCallback (config : SmsConfig α) (payload : TwilioStatusCallback α) :
    SmsProgram α Unit :=
  if isFinalTwilioStatus payload.messageStatus then
    match payload.priceValue with
    | none => return ()
    | some price =>
        if 0 < F32.abs price then do
          let userInfo ← getMessageUserInfo payload.messageSid
          chargeFound config.metronomeEnabled price ⟨.twilio, payload.messageSid⟩ userInfo
        else return ()
  else return ()

def telnyxStatus (config : SmsConfig α) (webhook : TelnyxWebhook) : SmsProgram α Unit :=
  let isFinal := webhook.eventType == "message.finalized"
  if webhook.eventType ≠ "message.sent" ∧ isFinal = false then return ()
  else
    match webhook.payload.recipients.head? with
    | none => return ()
    | some recipient => do
        let userId ← findByPhoneNumber (normalizePhone recipient.phoneNumber)
        if isFinal && mapTelnyxStatus (recipient.status.getD "") == "delivered" then
          chargeFound config.metronomeEnabled config.telnyxPriceUsdPerMessage
            ⟨.telnyx, webhook.payload.id⟩ userId
        else return ()

def StatusCallback.handle (config : SmsConfig α) : StatusCallback α → SmsProgram α Unit
  | .twilio payload => twilioStatusCallback config payload
  | .telnyx webhook => telnyxStatus config webhook

end Handlers

/-! ## What a callback issues -/

def Statement.isCharge {α : Type} : Statement α → Bool
  | .updateUserCredits _ => true
  | .updateUserCreditsLeft _ => true
  | .enqueueUsage _ _ _ => true
  | _ => false

def SmsStatement.isCharge {α : Type} : SmsStatement α → Bool
  | .billing s => s.isCharge
  | _ => false

/-- One charge, unless it is spent. -/
def oneCharge (S : Type) (isCharge : S → Bool) : Discipline S Bool where
  allows spent s := isCharge s = true → spent = false
  next spent s := spent || isCharge s

theorem oneCharge_ignores (S : Type) (isCharge : S → Bool) :
    (oneCharge S isCharge).Ignores (fun s => isCharge s = false) := by
  intro spent s hfree
  refine ⟨fun hcharge => ?_, ?_⟩
  · rw [hfree] at hcharge
    cases hcharge
  · change (spent || isCharge s) = spent
    rw [hfree, Bool.or_false]

section Deduction

variable {α ρ : Type}

/-- The billing program issues no charge. -/
abbrev Chargeless (p : BillingProgram α ρ) : Prop := p.Only (fun s => s.isCharge = false)

/-- The billing program issues one charge at most. -/
abbrev ChargesOnce (p : BillingProgram α ρ) : Prop :=
  p.Follows (oneCharge (Statement α) Statement.isCharge) (fun _ => True) false

/-- The charge of a statement, if it is one, goes to the outbox under this transaction id. -/
def ToOutbox (transactionId : String) (s : Statement α) : Prop :=
  s.isCharge = true → ∃ eventType cost, s = .enqueueUsage eventType cost (some transactionId)

theorem toOutbox_of_chargeless {transactionId : String} {s : Statement α}
    (h : s.isCharge = false) : ToOutbox transactionId s := by
  intro hcharge
  rw [h] at hcharge
  cases hcharge

theorem chargeless_findById : Chargeless (α := α) findById := ⟨rfl, fun _ => trivial⟩

theorem chargeless_isByotUser : Chargeless (α := α) isByotUser := ⟨rfl, fun _ => trivial⟩

theorem chargeless_refresh (wrote : Bool) (failed gone : String) :
    Chargeless (α := α) (refresh wrote failed gone) := by
  unfold refresh
  split
  · refine chargeless_findById.bind (fun answer => ?_)
    match answer with
    | none => trivial
    | some none => trivial
    | some (some user) => trivial
  · trivial

/-- A charge, and nothing else after it. -/
theorem chargesOnce_last {s : Statement α} (f : Answer s → ρ) :
    ChargesOnce (Program.issue s (fun answer => .done (f answer))) :=
  ⟨fun _ => rfl, fun _ => trivial⟩

theorem chargeless_hasNoIncludedUsage (user : User α) : Chargeless (hasNoIncludedUsage user) := by
  unfold hasNoIncludedUsage
  split
  · trivial
  · exact chargeless_isByotUser

variable [F32 α]

theorem chargeless_dropIncludedUsage (user : User α) : Chargeless (dropIncludedUsage user) := by
  unfold dropIncludedUsage
  split
  · exact ⟨rfl, fun cleared => chargeless_refresh cleared _ _⟩
  · trivial

theorem chargeless_renewIncludedUsage (user : User α) : Chargeless (renewIncludedUsage user) := by
  rw [renewIncludedUsage_eq]
  refine ⟨rfl, fun now => ?_⟩
  beta_reduce
  split
  · trivial
  · trivial
  · exact ⟨rfl, fun reset => chargeless_refresh reset _ _⟩

theorem chargeless_ensure (metronomeEnabled : Bool) (user : User α) :
    Chargeless (ensureCurrentIncludedUsageWindow metronomeEnabled user) := by
  unfold ensureCurrentIncludedUsageWindow
  split
  · trivial
  · refine (chargeless_hasNoIncludedUsage user).bind (fun excluded => ?_)
    split
    · exact chargeless_dropIncludedUsage user
    · exact chargeless_renewIncludedUsage user

theorem chargesOnce_takePrice (user : User α) (cost : α) : ChargesOnce (takePrice user cost) := by
  unfold takePrice
  split
  · exact chargesOnce_last _
  · split
    · exact chargesOnce_last _
    · split <;> exact chargesOnce_last _

theorem chargesOnce_chargePrice (metronomeEnabled : Bool) (provider : String)
    (transactionId : Option String) (user : User α) (cost : α) :
    ChargesOnce (chargePrice metronomeEnabled provider transactionId user cost) := by
  unfold chargePrice
  split
  · exact chargesOnce_last _
  · refine (chargeless_ensure metronomeEnabled user).first (oneCharge_ignores _ _)
      (fun result => ?_)
    cases result with
    | error error => trivial
    | ok user => exact chargesOnce_takePrice user cost

theorem chargesOnce_deductFromTwilioPrice (metronomeEnabled : Bool) (price : α)
    (transactionId : Option String) (provider : String) :
    ChargesOnce (deductFromTwilioPrice metronomeEnabled price transactionId provider) := by
  unfold deductFromTwilioPrice
  refine chargeless_findById.first (oneCharge_ignores _ _) (fun answer => ?_)
  match answer with
  | none => trivial
  | some none => trivial
  | some (some user) =>
      unfold deductPrice
      refine chargeless_isByotUser.first (oneCharge_ignores _ _) (fun byot => ?_)
      split
      · trivial
      · split
        · trivial
        · exact chargesOnce_chargePrice metronomeEnabled provider transactionId user _

/-- What holds of the readings and of the charge holds of all statements of a deduction. -/
theorem only_deductFromTwilioPrice {p : Statement α → Prop} {metronomeEnabled : Bool} {price : α}
    {transactionId : Option String} {provider : String}
    (hreads : ∀ s : Statement α, s.isCharge = false → p s)
    (hcharge : (F32.abs price == 0) = false → ∀ user,
      (chargePrice metronomeEnabled provider transactionId user
        (F32.abs price * twilioCostMargin α)).Only p) :
    (deductFromTwilioPrice metronomeEnabled price transactionId provider).Only p := by
  unfold deductFromTwilioPrice
  refine (chargeless_findById.weaken hreads).bind (fun answer => ?_)
  match answer with
  | none => trivial
  | some none => trivial
  | some (some user) =>
      unfold deductPrice
      refine (chargeless_isByotUser.weaken hreads).bind (fun byot => ?_)
      split
      · trivial
      · split
        · trivial
        next hprice => exact hcharge (Bool.eq_false_iff.mpr hprice) user

/-- With a price of zero nothing is charged. -/
theorem chargeless_deductFromTwilioPrice (metronomeEnabled : Bool) {price : α}
    (transactionId : Option String) (provider : String) (hprice : (F32.abs price == 0) = true) :
    Chargeless (deductFromTwilioPrice metronomeEnabled price transactionId provider) := by
  refine only_deductFromTwilioPrice (fun _ hfree => hfree) (fun hpositive => ?_)
  rw [hprice] at hpositive
  cases hpositive

/-- Under Metronome a deduction charges the outbox only. -/
theorem toOutbox_deductFromTwilioPrice (price : α) (id provider : String) :
    (deductFromTwilioPrice true price (some id) provider).Only
      (ToOutbox (provider ++ "-sms-" ++ id)) := by
  refine only_deductFromTwilioPrice (fun _ hfree => toOutbox_of_chargeless hfree) ?_
  intro _ user
  exact ⟨fun _ => ⟨_, _, rfl⟩, fun _ => trivial⟩

end Deduction

section Callbacks

variable {α ρ : Type}

abbrev SmsChargeless (p : SmsProgram α ρ) : Prop := p.Only (fun s => s.isCharge = false)

abbrev SmsChargesOnce (p : SmsProgram α ρ) : Prop :=
  p.Follows (oneCharge (SmsStatement α) SmsStatement.isCharge) (fun _ => True) false

/-- The charge of a statement, if it is one, goes to the outbox under this transaction id. -/
def SmsToOutbox (transactionId : String) (s : SmsStatement α) : Prop :=
  s.isCharge = true →
    ∃ eventType cost, s = .billing (.enqueueUsage eventType cost (some transactionId))

theorem smsToOutbox_of_chargeless {transactionId : String} {s : SmsStatement α}
    (h : s.isCharge = false) : SmsToOutbox transactionId s := by
  intro hcharge
  rw [h] at hcharge
  cases hcharge

theorem Chargeless.onCredits {p : BillingProgram α ρ} (h : Chargeless p) :
    SmsChargeless (onCredits p) :=
  Program.Only.embed (f := SmsStatement.billing) (fun _ hs => hs) h

theorem ChargesOnce.onCredits {p : BillingProgram α ρ} (h : ChargesOnce p) :
    SmsChargesOnce (onCredits p) :=
  Program.Follows.embed (f := SmsStatement.billing) (fun _ _ hs => hs) (fun _ _ => rfl) h

theorem toOutbox_onCredits {p : BillingProgram α ρ} {transactionId : String}
    (h : p.Only (ToOutbox transactionId)) : (onCredits p).Only (SmsToOutbox transactionId) := by
  refine Program.Only.embed (f := SmsStatement.billing) (fun s hs hcharge => ?_) h
  obtain ⟨eventType, cost, rfl⟩ := hs hcharge
  exact ⟨eventType, cost, rfl⟩

variable [F32 α] {config : SmsConfig α}

/-- The callback passes the filter of its handler, with a price that is not zero. -/
def StatusCallback.isChargeable (config : SmsConfig α) : StatusCallback α → Bool
  | .twilio payload =>
      isFinalTwilioStatus payload.messageStatus &&
        payload.priceValue.any (fun price => 0 < F32.abs price && !(F32.abs price == 0))
  | .telnyx webhook =>
      webhook.eventType == "message.finalized" &&
        webhook.payload.recipients.head?.any
          (fun recipient => mapTelnyxStatus (recipient.status.getD "") == "delivered") &&
        !(F32.abs config.telnyxPriceUsdPerMessage == 0)

/-- A callback that charges looks the user up and deducts the price. -/
theorem handle_cases (config : SmsConfig α) (c : StatusCallback α) :
    SmsChargeless (c.handle config) ∨
      ∃ (lookup : SmsProgram α (Option (Option Int))) (price : α), SmsChargeless lookup ∧
        c.handle config = (lookup >>= chargeFound config.metronomeEnabled price c.message) ∧
        ((F32.abs price == 0) = false → c.isChargeable config = true) := by
  cases c with
  | twilio payload =>
      change SmsChargeless (twilioStatusCallback config payload) ∨ ∃ lookup price, _ ∧
        twilioStatusCallback config payload = _ ∧ _
      unfold twilioStatusCallback
      split
      next hfinal =>
        split
        · exact Or.inl trivial
        next price hprice =>
          split
          next hpositive =>
            refine Or.inr ⟨getMessageUserInfo payload.messageSid, price, ⟨rfl, fun _ => trivial⟩,
              rfl, fun hzero => ?_⟩
            simp [StatusCallback.isChargeable, hfinal, hprice, hpositive, hzero]
          · exact Or.inl trivial
      · exact Or.inl trivial
  | telnyx webhook =>
      change SmsChargeless (telnyxStatus config webhook) ∨ ∃ lookup price, _ ∧
        telnyxStatus config webhook = _ ∧ _
      unfold telnyxStatus
      simp only
      split
      · exact Or.inl trivial
      · split
        · exact Or.inl trivial
        next recipient hrecipient =>
          split
          next hdelivered =>
            rw [Bool.and_eq_true] at hdelivered
            refine Or.inr ⟨findByPhoneNumber (normalizePhone recipient.phoneNumber),
              config.telnyxPriceUsdPerMessage, ⟨rfl, fun _ => trivial⟩, rfl, fun hzero => ?_⟩
            simp [StatusCallback.isChargeable, hrecipient, hdelivered.1, hdelivered.2, hzero]
          · exact Or.inl ⟨rfl, fun _ => trivial⟩

/-- What holds of statements that are no charges, and of the deduction, holds of all statements. -/
theorem only_handle {p : SmsStatement α → Prop} {c : StatusCallback α}
    (hfree : ∀ s : SmsStatement α, s.isCharge = false → p s)
    (hdeduct : ∀ price, ((F32.abs price == 0) = false → c.isChargeable config = true) →
      (onCredits (deductFromTwilioPrice config.metronomeEnabled price (some c.message.id)
        c.message.provider.name)).Only p) : (c.handle config).Only p := by
  rcases handle_cases config c with hhandle | ⟨lookup, price, hlookup, hhandle, hprice⟩
  · exact hhandle.weaken hfree
  · rw [hhandle]
    refine (hlookup.weaken hfree).bind (fun userId => ?_)
    match userId with
    | none => trivial
    | some none => trivial
    | some (some _) =>
        refine (hdeduct price hprice).bind (fun result => ?_)
        cases result with
        | error error => trivial
        | ok cost => exact ⟨hfree _ rfl, fun _ => trivial⟩

theorem chargeless_handle {c : StatusCallback α} (h : c.isChargeable config = false) :
    SmsChargeless (c.handle config) := by
  refine only_handle (fun _ hfree => hfree) (fun price hprice => ?_)
  have hzero : (F32.abs price == 0) = true := by
    cases hzero : F32.abs price == 0 with
    | true => rfl
    | false =>
        rw [hprice hzero] at h
        cases h
  exact (chargeless_deductFromTwilioPrice config.metronomeEnabled _ _ hzero).onCredits

theorem chargesOnce_handle (c : StatusCallback α) : SmsChargesOnce (c.handle config) := by
  have hignores := oneCharge_ignores (SmsStatement α) SmsStatement.isCharge
  rcases handle_cases config c with hfree | ⟨lookup, price, hlookup, hhandle, _⟩
  · exact (hfree.follows hignores false).weaken (fun _ _ => trivial)
  · rw [hhandle]
    refine hlookup.first hignores (fun userId => ?_)
    match userId with
    | none => trivial
    | some none => trivial
    | some (some _) =>
        have hdeduct := (chargesOnce_deductFromTwilioPrice config.metronomeEnabled price
          (some c.message.id) c.message.provider.name).onCredits
        refine hdeduct.bind (fun spent result _ => ?_)
        cases result with
        | error error => trivial
        | ok cost => exact ⟨fun hcharge => (Bool.false_ne_true hcharge).elim, fun _ => trivial⟩

/-- Under Metronome every charge of a callback is under the transaction id of its message. -/
theorem toOutbox_handle (hmetronome : config.metronomeEnabled = true) (c : StatusCallback α) :
    (c.handle config).Only (SmsToOutbox c.message.transactionId) := by
  refine only_handle (fun _ => smsToOutbox_of_chargeless) (fun price _ => ?_)
  rw [hmetronome]
  exact toOutbox_onCredits (toOutbox_deductFromTwilioPrice price _ _)

end Callbacks

/-! ## The charges of a message -/

section Run

variable {α : Type}

inductive SmsAction (α : Type)
  /-- A callback, and what its statements will meet. -/
  | callback (c : StatusCallback α) (inputs : Nat → SmsInput α)
  /-- Anything else. Events are not taken out of the outbox. -/
  | elsewhere (userId : Int) (user : User α) (outbox : UsageTable)

namespace SmsStore

def start (userId : Int) (user : User α) (outbox : UsageTable) : SmsStore α where
  userId := userId
  user := user
  outbox := outbox
  usageLogCredits := none
  charges := []

def keepsEvents (t : SmsStore α) (outbox : UsageTable) : Bool :=
  t.outbox.rows.all (fun r => outbox.HasKey r.transactionId)

theorem keepsEvents_spec {t : SmsStore α} {outbox : UsageTable} (h : t.keepsEvents outbox = true)
    {transactionId : String} (hkey : t.outbox.HasKey transactionId) :
    outbox.HasKey transactionId := by
  obtain ⟨r, hr, hid⟩ := Table.hasKey_iff.mp hkey
  have hrow := List.all_eq_true.mp h r hr
  rw [← hid]
  exact of_decide_eq_true hrow

theorem enqueue_cases (t : SmsStore α) (event : BillingUsageEvent) :
    t.enqueue event = t ∧ t.outbox.HasKey event.transactionId ∨
      ¬ t.outbox.HasKey event.transactionId ∧
        (t.enqueue event).outbox.HasKey event.transactionId ∧
        (t.enqueue event).charges = t.charges ++ [.outbox event.costMicrousd] := by
  unfold enqueue
  split
  next hkey => exact Or.inl ⟨rfl, hkey⟩
  next hkey => exact Or.inr ⟨hkey, Table.hasKey_insertOrIgnore _ _, rfl⟩

end SmsStore

variable [F32 α] {config : SmsConfig α} {message : SmsMessage}

namespace SmsStore

def step (config : SmsConfig α) (message : SmsMessage) (t : SmsStore α) :
    SmsAction α → Option (SmsStore α)
  | .callback c inputs =>
      if c.message = message then some ((c.handle config).solo (exec config) inputs t).1 else none
  | .elsewhere userId user outbox =>
      if t.keepsEvents outbox then
        some { t with userId := userId, user := user, outbox := outbox }
      else none

/-- Without Metronome a callback passes the filter when a charge is recorded. -/
def repeatsCharge (config : SmsConfig α) (t : SmsStore α) : SmsAction α → Bool
  | .callback c _ =>
      !config.metronomeEnabled && c.isChargeable config && !t.charges.isEmpty
  | .elsewhere _ _ _ => false

variable {t next : SmsStore α}

theorem exec_of_chargeless (config : SmsConfig α) {s : SmsStatement α} (h : s.isCharge = false) (input : SmsInput α)
    (t : SmsStore α) : (exec config s input t).1.charges = t.charges ∧
      (exec config s input t).1.outbox = t.outbox := by
  have hwrite : (t.write config input s).charges = t.charges ∧
      (t.write config input s).outbox = t.outbox := by
    cases s with
    | billing s =>
        cases s with
        | updateUserCredits newCredits => cases h
        | updateUserCreditsLeft newCreditsLeft => cases h
        | enqueueUsage eventType cost transactionId => cases h
        | _ => exact ⟨rfl, rfl⟩
    | _ => exact ⟨rfl, rfl⟩
  change (input.fate.after t (t.write config input s)).charges = _ ∧
    (input.fate.after t (t.write config input s)).outbox = _
  rcases input.fate.after_cases t (t.write config input s) with hsame | hwritten
  · rw [hsame]
    exact ⟨rfl, rfl⟩
  · rw [hwritten]
    exact hwrite

/-- A statement records one charge at most. -/
theorem length_charges_exec (config : SmsConfig α) (s : SmsStatement α) (input : SmsInput α) (t : SmsStore α) :
    (exec config s input t).1.charges.length ≤ t.charges.length + 1 := by
  have hwrite : (t.write config input s).charges.length ≤ t.charges.length + 1 := by
    cases s with
    | billing s =>
        cases s with
        | updateUserCredits newCredits => simp [write]
        | updateUserCreditsLeft newCreditsLeft => simp [write]
        | enqueueUsage eventType cost transactionId =>
            simp only [write]
            split
            · exact Nat.le_succ _
            next event _ =>
              rcases t.enqueue_cases event with ⟨hsame, _⟩ | ⟨_, _, hcharges⟩
              · rw [hsame]
                exact Nat.le_succ _
              · rw [hcharges, List.length_append]
                exact le_refl _
        | _ => exact Nat.le_succ _
    | _ => exact Nat.le_succ _
  exact input.fate.after_keeps (fun u : SmsStore α => u.charges.length ≤ t.charges.length + 1)
    (Nat.le_succ _) hwrite

/-- The charges, with the one that is not spent yet. -/
def Within (n : Nat) (spent : Bool) (t : SmsStore α) : Prop :=
  t.charges.length + (if spent then 0 else 1) ≤ n

theorem Within.exec {n : Nat} {spent : Bool} {s : SmsStatement α} (h : t.Within n spent)
    (hallows : s.isCharge = true → spent = false) (input : SmsInput α) :
    (SmsStore.exec config s input t).1.Within n (spent || s.isCharge) := by
  unfold Within at *
  cases hcharge : s.isCharge with
  | true =>
      have hone := length_charges_exec config s input t
      rw [hallows hcharge] at h
      simp only [Bool.or_true, if_true, Bool.false_eq_true, if_false] at h ⊢
      omega
  | false =>
      rw [Bool.or_false, (exec_of_chargeless config hcharge input t).1]
      exact h

/-- A callback records one charge at most. -/
theorem length_charges_handle (config : SmsConfig α) (c : StatusCallback α) (inputs : Nat → SmsInput α)
    (t : SmsStore α) : ((c.handle config).solo (exec config) inputs t).1.charges.length ≤
      t.charges.length + 1 := by
  have hstart : t.Within (t.charges.length + 1) false := le_refl _
  have hkeep : ∀ (spent : Bool) (s : SmsStatement α) (input : SmsInput α) (u : SmsStore α),
      (s.isCharge = true → spent = false) → u.Within (t.charges.length + 1) spent →
        (exec config s input u).1.Within (t.charges.length + 1) (spent || s.isCharge) :=
    fun _ _ input _ hallows h => h.exec hallows input
  obtain ⟨spent, hle⟩ := (chargesOnce_handle c).solo hkeep hstart
  exact (Nat.le_add_right _ _).trans hle

theorem charges_handle_of_chargeless {c : StatusCallback α} (h : c.isChargeable config = false)
    (inputs : Nat → SmsInput α) (t : SmsStore α) :
    ((c.handle config).solo (exec config) inputs t).1.charges = t.charges := by
  have hkeep : ∀ (s : SmsStatement α) (input : SmsInput α) (u : SmsStore α), s.isCharge = false →
      u.charges = t.charges → (exec config s input u).1.charges = t.charges :=
    fun s input u hfree hsame => ((exec_of_chargeless config hfree input u).1).trans hsame
  exact (chargeless_handle h).solo hkeep rfl

/-- One charge at most, and its event is in the outbox. -/
def Enqueued (message : SmsMessage) (t : SmsStore α) : Prop :=
  t.charges.length ≤ 1 ∧ (t.charges ≠ [] → t.outbox.HasKey message.transactionId)

theorem Enqueued.exec (h : t.Enqueued message) {s : SmsStatement α}
    (hs : SmsToOutbox message.transactionId s) (input : SmsInput α) :
    (SmsStore.exec config s input t).1.Enqueued message := by
  cases hcharge : s.isCharge with
  | false =>
      obtain ⟨hcharges, houtbox⟩ := exec_of_chargeless config hcharge input t
      unfold Enqueued
      rw [hcharges, houtbox]
      exact h
  | true =>
      obtain ⟨eventType, cost, rfl⟩ := hs hcharge
      change (input.fate.after t (t.write config input _)).Enqueued message
      rcases input.fate.after_cases t (t.write config input _) with hsame | hwritten
      · rw [hsame]
        exact h
      · rw [hwritten]
        simp only [write]
        split
        · exact h
        next event hevent =>
          have hid : event.transactionId = message.transactionId := by
            obtain ⟨costMicrousd, _, rfl⟩ := Option.map_eq_some_iff.mp hevent
            rfl
          rcases t.enqueue_cases event with ⟨hsame, _⟩ | ⟨hfree, hkey, hcharges⟩
          · rw [hsame]
            exact h
          · rw [hid] at hfree hkey
            have hnone : t.charges = [] := by
              by_contra hsome
              exact hfree (h.2 hsome)
            refine ⟨?_, fun _ => hkey⟩
            rw [hcharges, hnone]
            exact le_refl _

theorem Enqueued.step (hmetronome : config.metronomeEnabled = true) (h : t.Enqueued message)
    {a : SmsAction α} (hstep : t.step config message a = some next) : next.Enqueued message := by
  cases a with
  | callback c inputs =>
      simp only [SmsStore.step, Option.ite_none_right_eq_some, Option.some.injEq] at hstep
      obtain ⟨rfl, rfl⟩ := hstep
      exact (toOutbox_handle hmetronome c).solo (fun s input u hs hu => hu.exec hs input) h
  | elsewhere userId user outbox =>
      simp only [SmsStore.step, Option.ite_none_right_eq_some, Option.some.injEq] at hstep
      obtain ⟨hkeeps, rfl⟩ := hstep
      exact ⟨h.1, fun hsome => keepsEvents_spec hkeeps (h.2 hsome)⟩

/-- Without Metronome the filter has to stop what comes after a charge. -/
theorem step_length_charges (hmetronome : config.metronomeEnabled = false)
    (h : t.charges.length ≤ 1) {a : SmsAction α} (hown : t.repeatsCharge config a = false)
    (hstep : t.step config message a = some next) : next.charges.length ≤ 1 := by
  cases a with
  | callback c inputs =>
      simp only [SmsStore.step, Option.ite_none_right_eq_some, Option.some.injEq] at hstep
      obtain ⟨_, rfl⟩ := hstep
      cases hchargeable : c.isChargeable config with
      | false =>
          rw [charges_handle_of_chargeless hchargeable]
          exact h
      | true =>
          have hnone : t.charges = [] := by
            simpa [repeatsCharge, hmetronome, hchargeable] using hown
          have hle := length_charges_handle config c inputs t
          rw [hnone] at hle
          exact hle
  | elsewhere userId user outbox =>
      simp only [SmsStore.step, Option.ite_none_right_eq_some, Option.some.injEq] at hstep
      obtain ⟨_, rfl⟩ := hstep
      exact h

end SmsStore

/-- In every run in which Metronome is on, or no callback passes the filter once a charge is
recorded, the message is charged at most once. -/
theorem sms_charged_once {userId : Int} {user : User α} {outbox : UsageTable}
    {actions : List (SmsAction α)} {final : SmsStore α}
    (hown : Transition.Meets (SmsStore.step config message)
      (fun t a => t.repeatsCharge config a = false) (SmsStore.start userId user outbox) actions)
    (hrun : Transition.run (SmsStore.step config message) (SmsStore.start userId user outbox)
      actions = some final) : final.charges.length ≤ 1 := by
  cases hmetronome : config.metronomeEnabled with
  | true =>
      have hstart : (SmsStore.start userId user outbox).Enqueued message :=
        ⟨Nat.zero_le _, fun hsome => absurd rfl hsome⟩
      have hkeep : ∀ (t : SmsStore α) (a : SmsAction α) (next : SmsStore α),
          t.Enqueued message → t.step config message a = some next → next.Enqueued message :=
        fun _ _ _ h hstep => h.step hmetronome hstep
      exact (Transition.run_invariant_all hkeep hstart hrun).1
  | false =>
      have hkeep : ∀ (t : SmsStore α) (a : SmsAction α) (next : SmsStore α),
          t.charges.length ≤ 1 → t.repeatsCharge config a = false →
            t.step config message a = some next → next.charges.length ≤ 1 :=
        fun _ _ _ h hown hstep => SmsStore.step_length_charges hmetronome h hown hstep
      exact Transition.run_invariant hkeep (Nat.zero_le _) hown hrun

end Run

/-! ## Two runs -/

namespace SmsExample

def message : SmsMessage := ⟨.twilio, "SM1"⟩

def user : User Rat where
  phoneNumber := "+358401234567"
  subTier := some "tier 2"
  ownTwilioEnabled := false
  credits := 5
  creditsLeft := 3
  includedUsageWindowStartTimestamp := some 1
  includedUsageWindowEndTimestamp := some 2592001
  lastCreditsNotification := none

def localPools : SmsConfig Rat := ⟨false, none, fun cost => if 0 < cost then some 1 else none⟩

/-- Every statement of the callback is carried out, and the user is found. -/
def callback (messageStatus : String) (priceValue : Option Rat) : SmsAction Rat :=
  .callback (.twilio ⟨"SM1", messageStatus, priceValue⟩)
    (fun _ => { fate := .done, now := 100, pricing := none, found := true, uuid := "u" })

def store : SmsStore Rat := .start 1 user Table.empty

def reached (actions : List (SmsAction Rat)) : SmsStore Rat :=
  Transition.final (SmsStore.step localPools message) store actions

/-- Only the last callback carries the price. -/
def pricedOnce : List (SmsAction Rat) :=
  [callback "queued" none, callback "sent" none, callback "delivered" (some (-83 / 10000))]

/-- Both final callbacks carry the price. -/
def pricedTwice : List (SmsAction Rat) :=
  [callback "sent" (some (-83 / 10000)), callback "delivered" (some (-83 / 10000))]

end SmsExample

open SmsExample in
theorem sms_charged_once_priced_once : (reached pricedOnce).charges.length ≤ 1 :=
  @sms_charged_once Rat _ localPools message 1 user Table.empty pricedOnce _ (by decide +kernel)
    (Transition.run_eq_final (by decide +kernel))

open SmsExample in
/-- A message that is sent and then delivered is charged twice. -/
theorem sms_charged_once_fails_without_outbox :
    ¬ ∀ (config : SmsConfig Rat) (message : SmsMessage) (userId : Int) (user : User Rat)
      (outbox : UsageTable) (actions : List (SmsAction Rat)) (final : SmsStore Rat),
      Transition.run (SmsStore.step config message) (SmsStore.start userId user outbox) actions =
        some final → final.charges.length ≤ 1 := by
  intro law
  have hlaw : (reached pricedTwice).charges.length ≤ 1 :=
    law localPools message 1 user Table.empty pricedTwice _
      (Transition.run_eq_final (by decide +kernel))
  exact absurd hlaw (by decide +kernel)

end Lightfriend.Billing
