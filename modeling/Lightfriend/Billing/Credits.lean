import Lightfriend.Core.Database
import Lightfriend.Core.Machine
import Lightfriend.Core.Program

/-! # The credits of a user

Every reading and writing of the user's row is a statement of its own; the calls
that deduct and add credits are programs over these statements. A call computes
with the copy of the row it read and writes absolute values.
-/

namespace Lightfriend.Billing

/-! ## Amounts -/

/-- What the billing code does with `f32` amounts. No law of the arithmetic is assumed, and of the
comparisons only that they do not contradict each other. -/
class F32 (α : Type) extends Zero α, Add α, Sub α, Mul α, Div α, Neg α, LT α, LE α, BEq α where
  /-- `as f32`. -/
  ofInt : Int → α
  /-- The literal of these digits, the last `places` of them after the point. -/
  literal (digits places : Nat) : α
  ceil : α → α
  decLt : DecidableLT α
  decLe : DecidableLE α
  not_lt_of_le : ∀ x y : α, y ≤ x → ¬ x < y

namespace F32

variable {α : Type} [F32 α]

instance : DecidableLT α := decLt
instance : DecidableLE α := decLe

def abs (x : α) : α := if x < 0 then -x else x

def max (x y : α) : α := if x < y then y else x

end F32

/-- Exact amounts. -/
instance : F32 Rat where
  ofInt n := n
  literal digits places := (digits : Rat) / (10 ^ places : Nat)
  ceil x := x.ceil
  decLt := inferInstance
  decLe := inferInstance
  not_lt_of_le _ _ h := not_lt.mpr h

def includedUsageWindowSeconds : Int := 30 * 24 * 60 * 60

section Constants

variable (α : Type) [F32 α]

def monthlyCreditBudget : α := F32.literal 250 1
def twilioCostMargin : α := F32.literal 13 1
def tinfoilCostPerMin : α := F32.literal 5 2

end Constants

/-! ## The row and its statements -/

structure User (α : Type) where
  phoneNumber : String
  subTier : Option String
  ownTwilioEnabled : Bool
  credits : α
  creditsLeft : α
  includedUsageWindowStartTimestamp : Option Int
  includedUsageWindowEndTimestamp : Option Int
  lastCreditsNotification : Option Int
deriving DecidableEq, Repr

structure NotificationPricing (α : Type) where
  inboundVoicePrice : α
  calculatedVoicePrice : α
deriving DecidableEq, Repr

inductive Statement (α : Type)
  | findById
  | isByotUser
  /-- The price row of a country, from another table. -/
  | getCachedNotificationPricing (countryCode : String)
  /-- `Utc::now()`. -/
  | now
  | clearIncludedUsageWindow
  | resetIncludedUsageWindow (windowStart windowEnd : Int) (includedCredits : α)
  | updateUserCredits (newCredits : α)
  | updateUserCreditsLeft (newCreditsLeft : α)
  /-- The reading and the writing of `increase_credits`. -/
  | findUser
  | setCredits (newCredits : α)
  /-- The outbox is another table. -/
  | enqueueUsage (eventType : String) (cost : α) (transactionId : Option String)
deriving Repr

/-- What a statement answers; a database error is `none` or `false`. -/
abbrev Answer {α : Type} : Statement α → Type
  | .findById => Option (Option (User α))
  | .isByotUser => Bool
  | .getCachedNotificationPricing _ => Option (NotificationPricing α)
  | .now => Int
  | .clearIncludedUsageWindow => Bool
  | .resetIncludedUsageWindow _ _ _ => Bool
  | .updateUserCredits _ => Bool
  | .updateUserCreditsLeft _ => Bool
  | .findUser => Option (User α)
  | .setCredits _ => Bool
  | .enqueueUsage _ _ _ => Bool

/-- What the environment gives a statement. -/
structure Input (α : Type) where
  fate : StatementFate
  now : Int
  pricing : Option (NotificationPricing α)
deriving DecidableEq, Repr

abbrev BillingProgram (α ρ : Type) : Type := Program (Statement α) Answer ρ

abbrev BillingCall (α ρ : Type) : Type := Call (Statement α) Answer (Input α) ρ

namespace User

variable {α : Type} [F32 α]

def clearIncludedUsageWindow (u : User α) : User α :=
  { u with
    creditsLeft := 0
    includedUsageWindowStartTimestamp := none
    includedUsageWindowEndTimestamp := none
    lastCreditsNotification := none }

def resetIncludedUsageWindow (u : User α) (windowStart windowEnd : Int) (includedCredits : α) :
    User α :=
  { u with
    creditsLeft := includedCredits
    includedUsageWindowStartTimestamp := some windowStart
    includedUsageWindowEndTimestamp := some windowEnd
    lastCreditsNotification := none }

def setCredits (u : User α) (newCredits : α) : User α :=
  { u with credits := newCredits, lastCreditsNotification := none }

/-- The row after an update that was carried out. -/
def write (u : User α) : Statement α → User α
  | .clearIncludedUsageWindow => u.clearIncludedUsageWindow
  | .resetIncludedUsageWindow windowStart windowEnd includedCredits =>
      u.resetIncludedUsageWindow windowStart windowEnd includedCredits
  | .updateUserCredits newCredits => { u with credits := newCredits }
  | .updateUserCreditsLeft newCreditsLeft => { u with creditsLeft := newCreditsLeft }
  | .setCredits newCredits => u.setCredits newCredits
  | _ => u

/-- The answer to a statement on the row. -/
def answer (u : User α) (input : Input α) : (s : Statement α) → Answer s
  | .findById => input.fate.answer (some u)
  | .isByotUser => (input.fate.answer u.ownTwilioEnabled).getD false
  | .getCachedNotificationPricing _ => input.pricing
  | .now => input.now
  | .clearIncludedUsageWindow => (input.fate.answer ()).isSome
  | .resetIncludedUsageWindow _ _ _ => (input.fate.answer ()).isSome
  | .updateUserCredits _ => (input.fate.answer ()).isSome
  | .updateUserCreditsLeft _ => (input.fate.answer ()).isSome
  | .findUser => input.fate.answer u
  | .setCredits _ => (input.fate.answer ()).isSome
  | .enqueueUsage _ _ _ => (input.fate.answer ()).isSome

def exec : Exec (Statement α) Answer (Input α) (User α) := fun s input u =>
  (input.fate.after u (u.write s), u.answer input s)

end User

/-! ## The window of the included usage -/

structure IncludedUsageWindow where
  start : Int
  ends : Int
deriving DecidableEq, Repr

/-- The loop that moves the window up to `now`. It spins when the end of the window has reached
the last timestamp, which is `none`. -/
def rollWindow (now : Int) : Nat → IncludedUsageWindow → Option IncludedUsageWindow
  | 0, _ => none
  | fuel + 1, window =>
      if window.ends ≤ now then
        rollWindow now fuel ⟨window.ends, saturatingAdd window.ends includedUsageWindowSeconds⟩
      else some window

/-- Enough rounds for every window that ends after timestamp 0. -/
def rollRounds (now : Int) : Nat := (now / includedUsageWindowSeconds).toNat + 2

/-- The current window, and whether it is a new one. -/
def currentIncludedUsageWindow (now : Int) (currentStart currentEnd : Option Int) :
    Option (IncludedUsageWindow × Bool) :=
  match currentStart, currentEnd with
  | some start, some ends =>
      if 0 < start ∧ start < ends then
        if now < ends then some (⟨start, ends⟩, false)
        else (rollWindow now (rollRounds now) ⟨start, ends⟩).map (fun window => (window, true))
      else some (⟨now, saturatingAdd now includedUsageWindowSeconds⟩, true)
  | _, _ => some (⟨now, saturatingAdd now includedUsageWindowSeconds⟩, true)

/-! ## The calls -/

section Statements

variable {α : Type}

def findById : BillingProgram α (Option (Option (User α))) := .issue Statement.findById .done

def isByotUser : BillingProgram α Bool := .issue Statement.isByotUser .done

def getCachedNotificationPricing (countryCode : String) :
    BillingProgram α (Option (NotificationPricing α)) :=
  .issue (Statement.getCachedNotificationPricing countryCode) .done

def currentTime : BillingProgram α Int := .issue Statement.now .done

def clearIncludedUsageWindow : BillingProgram α Bool :=
  .issue Statement.clearIncludedUsageWindow .done

def resetIncludedUsageWindow (window : IncludedUsageWindow) (includedCredits : α) :
    BillingProgram α Bool :=
  .issue (Statement.resetIncludedUsageWindow window.start window.ends includedCredits) .done

def updateUserCredits (newCredits : α) : BillingProgram α Bool :=
  .issue (Statement.updateUserCredits newCredits) .done

def updateUserCreditsLeft (newCreditsLeft : α) : BillingProgram α Bool :=
  .issue (Statement.updateUserCreditsLeft newCreditsLeft) .done

def findUser : BillingProgram α (Option (User α)) := .issue Statement.findUser .done

def setCredits (newCredits : α) : BillingProgram α Bool :=
  .issue (Statement.setCredits newCredits) .done

def enqueueUsage (eventType : String) (cost : α) (transactionId : Option String) :
    BillingProgram α Bool :=
  .issue (Statement.enqueueUsage eventType cost transactionId) .done

end Statements

section Calls

variable {α : Type} [F32 α]

/-- Read the row again after its window was written. -/
def refresh (wrote : Bool) (failed gone : String) : BillingProgram α (Except String (User α)) :=
  if wrote then do
    match ← findById with
    | none => return .error "Failed to refresh user"
    | some none => return .error gone
    | some (some user) => return .ok user
  else return .error failed

/-- `user.sub_tier.as_deref() != Some("tier 2") || is_byot_user(user.id)`. -/
def hasNoIncludedUsage (user : User α) : BillingProgram α Bool :=
  if user.subTier ≠ some "tier 2" then return true else isByotUser

/-- The branch of a user without included usage. -/
def dropIncludedUsage (user : User α) : BillingProgram α (Except String (User α)) :=
  if 0 < user.creditsLeft ∨ user.includedUsageWindowStartTimestamp.isSome = true ∨
      user.includedUsageWindowEndTimestamp.isSome = true then do
    let cleared ← clearIncludedUsageWindow
    refresh cleared "Failed to clear included usage window" "User not found after usage clear"
  else return .ok user

/-- The branch of a user with included usage. -/
def renewIncludedUsage (user : User α) : BillingProgram α (Except String (User α)) := do
  let now ← currentTime
  match currentIncludedUsageWindow now user.includedUsageWindowStartTimestamp
      user.includedUsageWindowEndTimestamp with
  | none => return .error "The window loop spins"
  | some (_, false) => return .ok user
  | some (window, true) =>
      let reset ← resetIncludedUsageWindow window (monthlyCreditBudget α)
      refresh reset "Failed to reset included usage window" "User not found after usage reset"

theorem renewIncludedUsage_eq (user : User α) :
    renewIncludedUsage user = .issue Statement.now (fun now =>
      match currentIncludedUsageWindow now user.includedUsageWindowStartTimestamp
          user.includedUsageWindowEndTimestamp with
      | none => .done (.error "The window loop spins")
      | some (_, false) => .done (.ok user)
      | some (window, true) => .issue (Statement.resetIncludedUsageWindow window.start
          window.ends (monthlyCreditBudget α)) (fun reset =>
            refresh reset "Failed to reset included usage window"
              "User not found after usage reset")) :=
  rfl

def ensureCurrentIncludedUsageWindow (metronomeEnabled : Bool) (user : User α) :
    BillingProgram α (Except String (User α)) :=
  if metronomeEnabled then return .ok user
  else do
    let excluded ← hasNoIncludedUsage user
    if excluded then dropIncludedUsage user else renewIncludedUsage user

/-- The minutes a call of `amount` seconds is billed for. -/
def minutes (amount : Option Int) : α :=
  F32.max (F32.ceil (F32.ofInt (amount.getD 60) / F32.literal 60 0)) (F32.literal 1 0)

def cachedPricing (countryCode : Option String) :
    BillingProgram α (Option (NotificationPricing α)) :=
  match countryCode with
  | some code => getCachedNotificationPricing code
  | none => return none

/-- The cost of a call at the prices found. -/
def activityCost (pricing : Option (NotificationPricing α)) (eventType : String)
    (amount : Option Int) : α :=
  match eventType with
  | "voice" =>
      let twilioPrice := (pricing.map NotificationPricing.inboundVoicePrice).getD (F32.literal 3 2)
      minutes amount * (twilioPrice + tinfoilCostPerMin α)
  | "noti_call" =>
      let twilioPrice :=
        (pricing.map NotificationPricing.calculatedVoicePrice).getD (F32.literal 13 2)
      minutes amount * (twilioPrice + tinfoilCostPerMin α)
  | _ => 0

def getActivityCost (getCountryCodeFromPhone : String → Option String) (phoneNumber : String)
    (eventType : String) (amount : Option Int) : BillingProgram α α := do
  let pricing ← cachedPricing (getCountryCodeFromPhone phoneNumber)
  return activityCost pricing eventType amount

def written (ok : Bool) (failed : String) : Except String Unit :=
  if ok then .ok () else .error failed

/-- Take the cost from one of the two pools of the copy. -/
def takeCost (user : User α) (cost : α) : BillingProgram α (Except String Unit) := do
  if user.creditsLeft < cost ∧ user.credits < cost then return .error "Insufficient credits"
  else if cost ≤ user.creditsLeft then
    let ok ← updateUserCreditsLeft (user.creditsLeft - cost)
    return written ok "Failed to process credits"
  else if cost ≤ user.credits then
    let ok ← updateUserCredits (user.credits - cost)
    return written ok "Failed to process credits"
  else return .ok ()

/-- Charge the cost to the outbox or to the current window of the user. -/
def chargeCost (metronomeEnabled : Bool) (eventType : String) (user : User α) (cost : α) :
    BillingProgram α (Except String Unit) := do
  match ← ensureCurrentIncludedUsageWindow metronomeEnabled user with
  | .error error => return .error error
  | .ok user =>
      if metronomeEnabled then
        let ok ← enqueueUsage eventType cost none
        return written ok "Failed to queue usage"
      else takeCost user cost

/-- `deduct_user_credits` after its first reading. -/
def deductActivity (metronomeEnabled : Bool) (getCountryCodeFromPhone : String → Option String)
    (eventType : String) (amount : Option Int) (user : User α) :
    BillingProgram α (Except String Unit) := do
  if ← isByotUser then return .ok ()
  else
    let cost ← getActivityCost getCountryCodeFromPhone user.phoneNumber eventType amount
    if cost ≤ 0 then return .ok () else chargeCost metronomeEnabled eventType user cost

def deductUserCredits (metronomeEnabled : Bool)
    (getCountryCodeFromPhone : String → Option String) (eventType : String)
    (amount : Option Int) : BillingProgram α (Except String Unit) := do
  match ← findById with
  | none => return .error "Database error occurred"
  | some none => return .error "User not found"
  | some (some user) =>
      deductActivity metronomeEnabled getCountryCodeFromPhone eventType amount user

/-- Take the cost from one of the two pools of the copy, or empty one of them. -/
def takePrice (user : User α) (cost : α) : BillingProgram α (Except String α) := do
  if cost ≤ user.creditsLeft then
    let ok ← updateUserCreditsLeft (user.creditsLeft - cost)
    return (written ok "Failed to update credits_left").map (fun _ => cost)
  else if cost ≤ user.credits then
    let ok ← updateUserCredits (user.credits - cost)
    return (written ok "Failed to update credits").map (fun _ => cost)
  else if 0 < user.creditsLeft then
    let ok ← updateUserCreditsLeft 0
    return (written ok "Failed to zero credits_left").map (fun _ => cost)
  else
    let ok ← updateUserCredits 0
    return (written ok "Failed to zero credits").map (fun _ => cost)

/-- Charge the price to the outbox or to the current window of the user. -/
def chargePrice (metronomeEnabled : Bool) (provider : String) (transactionId : Option String)
    (user : User α) (cost : α) : BillingProgram α (Except String α) :=
  if metronomeEnabled then do
    let ok ← enqueueUsage (provider ++ "_sms") cost
      (transactionId.map (fun id => provider ++ "-sms-" ++ id))
    return (written ok "Failed to queue usage").map (fun _ => cost)
  else do
    match ← ensureCurrentIncludedUsageWindow metronomeEnabled user with
    | .error error => return .error error
    | .ok user => takePrice user cost

/-- `deduct_from_twilio_price` after its first reading. -/
def deductPrice (metronomeEnabled : Bool) (twilioPriceUsd : α) (transactionId : Option String)
    (provider : String) (user : User α) : BillingProgram α (Except String α) := do
  if ← isByotUser then return .ok 0
  else if F32.abs twilioPriceUsd == 0 then return .ok 0
  else
    chargePrice metronomeEnabled provider transactionId user
      (F32.abs twilioPriceUsd * twilioCostMargin α)

def deductFromTwilioPrice (metronomeEnabled : Bool) (twilioPriceUsd : α)
    (transactionId : Option String) (provider : String) : BillingProgram α (Except String α) := do
  match ← findById with
  | none => return .error "Database error"
  | some none => return .error "User not found"
  | some (some user) => deductPrice metronomeEnabled twilioPriceUsd transactionId provider user

def increaseCredits (amount : α) : BillingProgram α Bool := do
  match ← findUser with
  | none => return false
  | some user => setCredits (user.credits + amount)

theorem increaseCredits_eq (amount : α) :
    increaseCredits amount = .issue Statement.findUser (fun found =>
      match found with
      | none => .done false
      | some user => setCredits (user.credits + amount)) :=
  rfl

end Calls

end Lightfriend.Billing
