import Lightfriend.Billing.Credits
import Lightfriend.Core.Concurrent
import Lightfriend.Core.Transition

/-! # Crediting a credit pack

A paid Checkout session in payment mode is delivered as often as Stripe likes.
Each delivery makes its remote calls and writes one by one, any of them may
fail, and each delivery may stop anywhere; deliveries may overlap. The credits
are raised by a reading of the row and a later writing of an absolute value.
-/

namespace Lightfriend.Billing

/-! ## The delivery -/

structure CheckoutSession where
  customer : Option String
  /-- The address in the shipping details. -/
  address : Option String
  paymentIntent : Option String
  amountSubtotal : Option Int
deriving DecidableEq, Repr

inductive PackStatement (α : Type)
  | billing (s : Statement α)
  | updateCustomerAddress (customerId address : String)
  | retrievePaymentIntent (paymentIntentId : String)
  | findByStripeCustomerId (customerId : String)
  | setStripePaymentMethodId (paymentMethodId : String)
  | updateLastCreditPackPurchase (amount : α) (timestamp : Int)
deriving Repr

abbrev PackAnswer {α : Type} : PackStatement α → Type
  | .billing s => Answer s
  | .updateCustomerAddress _ _ => Bool
  | .retrievePaymentIntent _ => Option (Option String)
  | .findByStripeCustomerId _ => Option Bool
  | .setStripePaymentMethodId _ => Bool
  | .updateLastCreditPackPurchase _ _ => Bool

abbrev PackProgram (α ρ : Type) : Type := Program (PackStatement α) PackAnswer ρ

/-- The answer to Stripe: `200 OK`, or a status and an error text. -/
abbrev PackResponse : Type := Except (Nat × String) Unit

structure PackInput (α : Type) extends Input α where
  /-- The payment method of the retrieved payment intent. -/
  paymentMethod : Option String
  /-- Is there a user with the customer id? -/
  found : Bool
deriving DecidableEq, Repr

structure PackStore (α : Type) where
  user : User α
  stripePaymentMethodId : Option String
  lastCreditPackPurchase : Option (α × Int)
  /-- A delivery of the session has been credited. No code reads it. -/
  credited : Bool
deriving DecidableEq, Repr

namespace PackStore

variable {α : Type} [F32 α]

def write (t : PackStore α) : PackStatement α → PackStore α
  | .billing (.setCredits newCredits) =>
      { t with user := t.user.setCredits newCredits, credited := true }
  | .billing s => { t with user := t.user.write s }
  | .updateCustomerAddress _ _ => t
  | .retrievePaymentIntent _ => t
  | .findByStripeCustomerId _ => t
  | .setStripePaymentMethodId paymentMethodId =>
      { t with stripePaymentMethodId := some paymentMethodId }
  | .updateLastCreditPackPurchase amount timestamp =>
      { t with lastCreditPackPurchase := some (amount, timestamp) }

def answer (t : PackStore α) (input : PackInput α) : (s : PackStatement α) → PackAnswer s
  | .billing s => t.user.answer input.toInput s
  | .updateCustomerAddress _ _ => (input.fate.answer ()).isSome
  | .retrievePaymentIntent _ => input.fate.answer input.paymentMethod
  | .findByStripeCustomerId _ => input.fate.answer input.found
  | .setStripePaymentMethodId _ => (input.fate.answer ()).isSome
  | .updateLastCreditPackPurchase _ _ => (input.fate.answer ()).isSome

def exec : Exec (PackStatement α) PackAnswer (PackInput α) (PackStore α) := fun s input t =>
  (input.fate.after t (t.write s), t.answer input s)

end PackStore

section Delivery

variable {α : Type} [F32 α] {ρ : Type}

def onUser (p : BillingProgram α ρ) : PackProgram α ρ := p.embed .billing (fun _ answer => answer)

def stripeCall (s : PackStatement α) : PackProgram α (PackAnswer s) := .perform s

def updateAddress (customerId : String) (address : Option String) : PackProgram α Unit :=
  match address with
  | none => return ()
  | some address => do
      -- An address that is not updated is only logged.
      let _ ← stripeCall (.updateCustomerAddress customerId address)
      return ()

def trackPurchase (amount : α) : PackProgram α PackResponse := do
  let now ← onUser currentTime
  let _ ← stripeCall (.updateLastCreditPackPurchase amount now)
  return .ok ()

def creditUser (amount : α) : PackProgram α PackResponse := do
  if ← onUser (increaseCredits amount) then trackPurchase amount
  else return .error (500, "Database error")

def creditCustomer (customerId paymentMethodId : String) (amount : α) :
    PackProgram α PackResponse := do
  match ← stripeCall (.findByStripeCustomerId customerId) with
  | none => return .error (500, "Database error")
  | some false => return .error (404, "Customer not found")
  | some true =>
      if ← stripeCall (.setStripePaymentMethodId paymentMethodId) then creditUser amount
      else return .error (500, "Database error")

/-- `amount_in_cents as f32 / 100.00`. -/
def CheckoutSession.amount (session : CheckoutSession) : α :=
  F32.ofInt (session.amountSubtotal.getD 0) / F32.literal 100 0

def creditIntent (customerId paymentIntentId : String) (amount : α) :
    PackProgram α PackResponse := do
  match ← stripeCall (.retrievePaymentIntent paymentIntentId) with
  | none => return .error (500, "Failed to retrieve PaymentIntent")
  | some none => return .ok ()
  | some (some paymentMethodId) => creditCustomer customerId paymentMethodId amount

/-- The branch of `stripe_webhook` for a completed session in payment mode. -/
def completeCreditPack (session : CheckoutSession) : PackProgram α PackResponse :=
  match session.customer with
  | none => return .ok ()
  | some customerId => do
      updateAddress customerId session.address
      match session.paymentIntent with
      | none => return .error (500, "No payment intent in session")
      | some paymentIntentId => creditIntent customerId paymentIntentId session.amount

end Delivery

/-! ## What a delivery knows -/

section Protocol

variable {α : Type} [F32 α]

/-- The credits that a delivery read, and whether a delivery had been credited then. -/
structure CreditsReading (α : Type) where
  credits : α
  credited : Bool
deriving DecidableEq, Repr

/-- The credits are only set to what was read and the amount. -/
def CreditAllowed (amount : α) (known : Option (CreditsReading α)) : PackStatement α → Prop
  | .billing (.setCredits newCredits) => ∃ r, known = some r ∧ newCredits = r.credits + amount
  | .billing (.updateUserCredits _) => False
  | _ => True

def PackStatement.read (known : Option (CreditsReading α)) (t : PackStore α) :
    PackStatement α → Option (CreditsReading α)
  | .billing .findUser => some ⟨t.user.credits, t.credited⟩
  | _ => known

def packProtocol (amount : α) :
    Protocol (PackStore.exec (α := α)) (Option (CreditsReading α)) where
  allows := CreditAllowed amount
  admits _ := True
  next known s _ t := s.read known t

variable {amount : α} {known : Option (CreditsReading α)} {ρ : Type}

/-- Nothing has to hold at the end of a delivery. -/
abbrev PackObeys (amount : α) (known : Option (CreditsReading α)) (p : PackProgram α ρ) : Prop :=
  (packProtocol amount).Obeys (fun _ _ => True) known p

/-- A call that is neither reading nor writing the credits, whatever its answer. -/
theorem packObeys_call {s : PackStatement α} {f : PackAnswer s → PackProgram α ρ}
    (hallowed : CreditAllowed amount known s) (hread : ∀ t : PackStore α, s.read known t = known)
    (hf : ∀ answer, PackObeys amount known (f answer)) :
    PackObeys amount known (stripeCall s >>= f) := by
  refine ⟨hallowed, fun input t _ => ?_⟩
  change (packProtocol amount).Obeys _ (s.read known t) _
  rw [hread t]
  exact hf _

theorem packObeys_increaseCredits (amount : α) (known : Option (CreditsReading α)) :
    PackObeys amount known (onUser (increaseCredits amount)) := by
  rw [increaseCredits_eq]
  refine ⟨trivial, fun input t _ => ?_⟩
  have hanswer : (PackStore.exec (.billing .findUser) input t).2 = input.fate.answer t.user := rfl
  rw [hanswer]
  cases hread : input.fate.answer t.user with
  | none => trivial
  | some user =>
      obtain ⟨_, rfl⟩ := StatementFate.answer_eq_some hread
      exact ⟨⟨_, rfl, rfl⟩, fun _ _ _ => trivial⟩

theorem packObeys_creditUser (amount : α) (known : Option (CreditsReading α)) :
    PackObeys amount known (creditUser amount) := by
  refine (packObeys_increaseCredits amount known).bind (fun known credited _ => ?_)
  cases credited with
  | false => trivial
  | true => exact ⟨trivial, fun _ _ _ => ⟨trivial, fun _ _ _ => trivial⟩⟩

theorem packObeys_creditCustomer (customerId paymentMethodId : String) (amount : α)
    (known : Option (CreditsReading α)) :
    PackObeys amount known (creditCustomer customerId paymentMethodId amount) := by
  refine packObeys_call trivial (fun _ => rfl) (fun found => ?_)
  match found with
  | none => trivial
  | some false => trivial
  | some true =>
      refine packObeys_call trivial (fun _ => rfl) (fun saved => ?_)
      cases saved with
      | false => trivial
      | true => exact packObeys_creditUser amount known

theorem packObeys_creditIntent (customerId paymentIntentId : String) (amount : α)
    (known : Option (CreditsReading α)) :
    PackObeys amount known (creditIntent customerId paymentIntentId amount) := by
  refine packObeys_call trivial (fun _ => rfl) (fun paymentMethod => ?_)
  match paymentMethod with
  | none => trivial
  | some none => trivial
  | some (some paymentMethodId) => exact packObeys_creditCustomer _ _ _ _

theorem packObeys_completeCreditPack (session : CheckoutSession) :
    PackObeys session.amount none (completeCreditPack (α := α) session) := by
  unfold completeCreditPack
  cases session.customer with
  | none => trivial
  | some customerId =>
      have hintent : PackObeys (session.amount (α := α)) none
          (match session.paymentIntent with
            | none => .done (.error (500, "No payment intent in session"))
            | some paymentIntentId => creditIntent customerId paymentIntentId session.amount) := by
        cases session.paymentIntent with
        | none => trivial
        | some paymentIntentId => exact packObeys_creditIntent _ _ _ _
      cases session.address with
      | none => exact hintent
      | some address => exact packObeys_call trivial (fun _ => rfl) (fun _ => hintent)

end Protocol

/-! ## Every run -/

section Run

variable {α : Type} [F32 α] {session : CheckoutSession}

abbrev PackState (α : Type) : Type :=
  Concurrent (PackStatement α) PackAnswer (PackStore α) (Option (CreditsReading α)) PackResponse

inductive PackAction (α : Type)
  /-- A delivery of the session's event arrives. -/
  | deliver
  | issue (i : Nat) (input : PackInput α)
deriving DecidableEq, Repr

namespace PackState

def start (user : User α) (stripePaymentMethodId : Option String)
    (lastCreditPackPurchase : Option (α × Int)) : PackState α where
  store := ⟨user, stripePaymentMethodId, lastCreditPackPurchase, false⟩
  running := []

def step (session : CheckoutSession) (s : PackState α) : PackAction α → Option (PackState α)
  | .deliver => some (Concurrent.start s none (completeCreditPack session))
  | .issue i input => Concurrent.issue (packProtocol session.amount) s i input

/-- A delivery that sets the credits has read them before any delivery was credited. -/
def readsBeforeCredit (s : PackState α) : PackAction α → Bool
  | .deliver => true
  | .issue i input => input.fate = .refused || s.nextMeets (fun known stmt =>
      match stmt with
      | .billing (.setCredits _) => known.all (fun r => !r.credited)
      | _ => true) i

/-- The credits are those of the beginning, or the amount more once a delivery was credited. -/
def Credited (credits amount : α) (t : PackStore α) : Prop :=
  t.user.credits = if t.credited then credits + amount else credits

/-- What a delivery read before any delivery was credited are the credits of the beginning. -/
def Fits (credits : α) (known : Option (CreditsReading α)) (_ : PackStore α) : Prop :=
  ∀ r, known = some r → r.credited = false → r.credits = credits

variable {credits amount : α} {t : PackStore α}

theorem Credited.exec (h : Credited credits amount t) {known : Option (CreditsReading α)}
    (hfits : Fits credits known t) {stmt : PackStatement α} {input : PackInput α}
    (hallowed : CreditAllowed amount known stmt)
    (hown : ∀ newCredits, stmt = .billing (.setCredits newCredits) → input.fate = .refused ∨
      known.all (fun r => !r.credited) = true) :
    Credited credits amount (PackStore.exec stmt input t).1 := by
  change Credited credits amount (input.fate.after t (t.write stmt))
  by_cases hset : ∃ newCredits, stmt = .billing (.setCredits newCredits)
  · obtain ⟨newCredits, rfl⟩ := hset
    rcases hown newCredits rfl with hrefused | hbefore
    · rw [hrefused]
      exact h
    · obtain ⟨r, rfl, rfl⟩ := hallowed
      have hcredits : r.credits = credits := hfits r rfl (by simpa using hbefore)
      rcases input.fate.after_cases t (t.write (.billing (.setCredits (r.credits + amount)))) with
        hsame | hwritten
      · rw [hsame]
        exact h
      · rw [hwritten, hcredits]
        rfl
  · have hwrite : Credited credits amount (t.write stmt) := by
      cases stmt with
      | billing stmt =>
          cases stmt with
          | setCredits newCredits => exact absurd ⟨newCredits, rfl⟩ hset
          | updateUserCredits newCredits => exact hallowed.elim
          | _ => exact h
      | _ => exact h
    exact input.fate.after_keeps (Credited credits amount) h hwrite

theorem Fits.read {known : Option (CreditsReading α)} (h : Fits credits known t)
    (hcredited : Credited credits amount t) (stmt : PackStatement α) (t' : PackStore α) :
    Fits credits (stmt.read known t) t' := by
  cases stmt with
  | billing stmt =>
      cases stmt with
      | findUser =>
          intro r hr hbefore
          cases hr
          have hcredits : t.user.credits = if t.credited then credits + amount else credits :=
            hcredited
          simp only at hbefore ⊢
          rw [hcredits, hbefore]
          rfl
      | _ => exact h
  | _ => exact h

abbrev Inv (credits : α) (session : CheckoutSession) (s : PackState α) : Prop :=
  s.Sound (packProtocol session.amount) (Credited credits session.amount) (Fits credits)

theorem Inv.step {s next : PackState α} (h : Inv credits session s) {a : PackAction α}
    (hown : s.readsBeforeCredit a = true) (hstep : s.step session a = some next) :
    Inv credits session next := by
  cases a with
  | deliver =>
      cases hstep
      exact h.start (fun r hr => by cases hr) (packObeys_completeCreditPack session)
  | issue i input =>
      refine h.issue trivial ?_ (fun _ _ hfits => hfits) (fun _ stmt hfits => ?_) hstep
      · intro r stmt rest hr hprogram hallowed hfits
        refine h.store.exec hfits hallowed (fun newCredits hset => ?_)
        rcases Bool.or_eq_true_iff.mp hown with hrefused | hmeets
        · exact Or.inl (of_decide_eq_true hrefused)
        · have hnext := Concurrent.nextMeets_spec hmeets hr hprogram
          rw [hset] at hnext
          exact Or.inr hnext
      · exact hfits.read h.store stmt _

end PackState

end Run

/-! ## Two runs -/

namespace CreditPackExample

def user : User Rat where
  phoneNumber := "+358401234567"
  subTier := some "tier 2"
  ownTwilioEnabled := false
  credits := 1
  creditsLeft := 3
  includedUsageWindowStartTimestamp := none
  includedUsageWindowEndTimestamp := none
  lastCreditsNotification := none

/-- A pack of five. -/
def session : CheckoutSession := ⟨some "cus_1", none, some "pi_1", some 500⟩

def input (fate : StatementFate) : PackInput Rat :=
  { fate := fate, now := 100, pricing := none, paymentMethod := some "pm_1", found := true }

/-- The statements of the `i`th delivery end this way. -/
def runDelivery (i : Nat) (fates : List StatementFate) : List (PackAction Rat) :=
  .deliver :: fates.map (fun fate => .issue i (input fate))

/-- The first delivery fails before it credits the user. -/
def failedFirst : List (PackAction Rat) :=
  runDelivery 0 [.done, .done, .refused] ++ runDelivery 1 [.done, .done, .done, .done, .done]

/-- The first delivery credits the user and loses the answer. -/
def lostFirst : List (PackAction Rat) :=
  runDelivery 0 [.done, .done, .done, .done, .lost] ++
    runDelivery 1 [.done, .done, .done, .done, .done]

def reached (actions : List (PackAction Rat)) : PackState Rat :=
  Transition.final (PackState.step session) (PackState.start user none none) actions

end CreditPackExample

end Lightfriend.Billing
