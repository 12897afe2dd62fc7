import Lightfriend.Core.Concurrent
import Lightfriend.Core.Database
import Lightfriend.Core.Transition

/-! # The overage setting

The overage setting of a user is kept at the billing provider and in the billing
account. A request of the user and the migration of the old preference change
first the one and then the other; a payment webhook changes the account alone.
Any number of them run at the same time.
-/

namespace Lightfriend.Billing

/-! ## The account -/

structure BillingAccount where
  provisioningStatus : String
  metronomeCustomerId : Option String
  metronomeContractId : Option String
  paymentReady : Bool
  usageEntitled : Bool
  legacyCreditMigrated : Bool
  overageEnabled : Bool
  overageConsentVersion : Option String
  legacyOveragePreferenceMigrated : Bool
deriving DecidableEq, Repr

def overageConsentVersion : String := "2026-07-21"

def legacyOverageConsentVersion : String := "legacy-auto-topup-migration-2026-07-23"

def legacyOverageMigrationTarget (legacyAutoTopupEnabled paymentReady alreadyMigrated : Bool) :
    Option Bool :=
  if alreadyMigrated then none
  else if legacyAutoTopupEnabled && !paymentReady then none
  else some legacyAutoTopupEnabled

structure OverageStore where
  account : BillingAccount
  /-- The setting last applied at the provider. -/
  provider : Bool
deriving DecidableEq, Repr

/-! ## The statements -/

inductive OverageStatement
  | ensureAccount
  | getAccount
  | enqueueCutoverUsage
  | migrateLegacyCredit
  | markLegacyCreditMigrated
  | stripePaymentReady
  | setPaymentReady (ready : Bool)
  | createContract
  | markProvisioned (customerId contractId : String) (ready : Bool)
  | markProvisioningFailed
  | setUsageEntitled (entitled : Bool)
  /-- The provider is told to keep overage off: for a new contract, and while the payment setup
  of an old preference is incomplete. -/
  | keepOverageOff
  /-- The provider is told a setting that is then written to the account. -/
  | applyOverage (enabled : Bool)
  | completeMigration (enabled : Bool)
  | setOverage (enabled : Bool)
  /-- `set_overage(.., false, None)` of a payment webhook. -/
  | disableOverage
deriving DecidableEq, Repr

abbrev OverageValue : OverageStatement → Type
  | .ensureAccount => BillingAccount
  | .getAccount => BillingAccount
  | .stripePaymentReady => Bool
  | .createContract => String × String
  | _ => Unit

/-- Every statement can fail. -/
abbrev OverageAnswer (s : OverageStatement) : Type := Option (OverageValue s)

structure OverageInput where
  fate : StatementFate
  ready : Bool
  created : String × String
deriving DecidableEq, Repr

namespace BillingAccount

def withOverage (account : BillingAccount) (enabled : Bool) (consentVersion : Option String) :
    BillingAccount :=
  { account with
    overageEnabled := enabled
    overageConsentVersion := consentVersion
    legacyOveragePreferenceMigrated := true }

end BillingAccount

namespace OverageStore

/-- A write to the account. -/
def write (t : OverageStore) (fate : StatementFate) (account : BillingAccount) :
    OverageStore × Option Unit :=
  (fate.after t { t with account := account }, fate.answer ())

/-- A call of the provider. -/
def apply (t : OverageStore) (fate : StatementFate) (enabled : Bool) :
    OverageStore × Option Unit :=
  (fate.after t { t with provider := enabled }, fate.answer ())

end OverageStore

def OverageStatement.exec : Exec OverageStatement OverageAnswer OverageInput OverageStore :=
  fun s input t =>
    match s with
    | ensureAccount => (t, input.fate.answer t.account)
    | getAccount => (t, input.fate.answer t.account)
    | enqueueCutoverUsage => (t, input.fate.answer ())
    | migrateLegacyCredit => (t, input.fate.answer ())
    | markLegacyCreditMigrated =>
        t.write input.fate { t.account with legacyCreditMigrated := true }
    | stripePaymentReady => (t, some input.ready)
    | setPaymentReady ready => t.write input.fate { t.account with paymentReady := ready }
    | createContract => (t, input.fate.answer input.created)
    | markProvisioned customerId contractId ready =>
        t.write input.fate { t.account with
          metronomeCustomerId := some customerId
          metronomeContractId := some contractId
          paymentReady := ready
          provisioningStatus := "provisioned" }
    | markProvisioningFailed =>
        t.write input.fate { t.account with provisioningStatus := "failed" }
    | setUsageEntitled entitled =>
        t.write input.fate { t.account with usageEntitled := entitled }
    | keepOverageOff => t.apply input.fate false
    | applyOverage enabled => t.apply input.fate enabled
    | completeMigration enabled =>
        t.write input.fate (t.account.withOverage enabled
          (if enabled then some legacyOverageConsentVersion else none))
    | setOverage enabled =>
        t.write input.fate (t.account.withOverage enabled
          (if enabled then some overageConsentVersion else none))
    | disableOverage => t.write input.fate (t.account.withOverage false none)

/-! ## The runs -/

abbrev OverageProgram (ρ : Type) : Type := Program OverageStatement OverageAnswer ρ

section Programs

variable {ρ : Type}

/-- Go on with the answer of a statement, or fail with it. -/
def attempt (s : OverageStatement) (k : OverageValue s → OverageProgram (Option ρ)) :
    OverageProgram (Option ρ) :=
  .issue s (fun answer =>
    match answer with
    | some value => k value
    | none => .done none)

/-- `MetronomeClient::set_overage`, which needs a provisioned account. -/
def clientSetOverage (account : BillingAccount) (s : OverageStatement)
    (k : OverageValue s → OverageProgram (Option ρ)) : OverageProgram (Option ρ) :=
  if account.metronomeCustomerId.isSome && account.metronomeContractId.isSome then attempt s k
  else .done none

variable (chargeWhenUnder : Bool)

def migrateLegacyOveragePreference (account : BillingAccount) :
    OverageProgram (Option BillingAccount) :=
  if account.legacyOveragePreferenceMigrated then .done (some account)
  else
    match legacyOverageMigrationTarget chargeWhenUnder account.paymentReady
      account.legacyOveragePreferenceMigrated with
    | none => clientSetOverage account .keepOverageOff (fun _ => .done (some account))
    | some enabled =>
        clientSetOverage account (.applyOverage enabled) (fun _ =>
          attempt (.completeMigration enabled) (fun _ =>
            attempt .getAccount (fun account => .done (some account))))

/-- A provisioned account whose credit is migrated. -/
def refreshPaymentReady (account : BillingAccount) : OverageProgram (Option BillingAccount) :=
  if account.paymentReady then migrateLegacyOveragePreference chargeWhenUnder account
  else
    attempt .stripePaymentReady (fun ready =>
      attempt (.setPaymentReady ready) (fun _ =>
        attempt .getAccount (migrateLegacyOveragePreference chargeWhenUnder)))

def provisionedUser (account : BillingAccount) : OverageProgram (Option BillingAccount) :=
  attempt .enqueueCutoverUsage (fun _ =>
    if account.legacyCreditMigrated then refreshPaymentReady chargeWhenUnder account
    else if account.metronomeCustomerId.isNone || account.metronomeContractId.isNone then
      .done none
    else
      attempt .migrateLegacyCredit (fun _ =>
        attempt .markLegacyCreditMigrated (fun _ => refreshPaymentReady chargeWhenUnder account)))

def newlyProvisionedUser (account : BillingAccount) : OverageProgram (Option BillingAccount) :=
  attempt .enqueueCutoverUsage (fun _ =>
    if account.legacyCreditMigrated then
      attempt .getAccount (migrateLegacyOveragePreference chargeWhenUnder)
    else
      attempt .migrateLegacyCredit (fun _ =>
        attempt .markLegacyCreditMigrated (fun _ =>
          attempt .getAccount (migrateLegacyOveragePreference chargeWhenUnder))))

def provisionUser : OverageProgram (Option BillingAccount) :=
  attempt .ensureAccount (fun account =>
    if account.provisioningStatus = "provisioned" then provisionedUser chargeWhenUnder account
    else
      attempt .stripePaymentReady (fun ready =>
        attempt .createContract (fun (customerId, contractId) =>
          attempt .keepOverageOff (fun _ =>
            attempt (.markProvisioned customerId contractId ready) (fun _ =>
              newlyProvisionedUser chargeWhenUnder account)))))

/-- How a run ends. -/
inductive OverageResult
  | finished
  /-- A request of the user returned success. -/
  | updated
deriving DecidableEq, Repr

/-- One user of `provision_subscribers`. -/
def provisionSubscriber : OverageProgram OverageResult := do
  match ← provisionUser chargeWhenUnder with
  | some _ => .done .finished
  | none => .issue .ensureAccount (fun _ =>
      .issue .markProvisioningFailed (fun _ => .done .finished))

/-- The task of `setup_user_subscription`. -/
def provisionNewSubscriber : OverageProgram OverageResult := do
  let _ ← provisionUser chargeWhenUnder
  .done .finished

/-- What `get_overage_status` does for a user of the plan. -/
def getOverageStatus : OverageProgram OverageResult :=
  .issue .ensureAccount (fun answer =>
    match answer with
    | none => .done .finished
    | some account =>
        if account.provisioningStatus ≠ "provisioned" || !account.paymentReady then do
          let _ ← provisionUser chargeWhenUnder
          .done .finished
        else .done .finished)

structure UpdateOverageRequest where
  enabled : Bool
  consentVersion : Option String
deriving DecidableEq, Repr

def applyRequest (request : UpdateOverageRequest) (account : BillingAccount) :
    OverageProgram (Option Unit) :=
  if request.enabled && !account.paymentReady then .done none
  else
    clientSetOverage account (.applyOverage request.enabled) (fun _ =>
      attempt (.setOverage request.enabled) (fun _ =>
        if request.enabled then
          attempt (.setUsageEntitled true) (fun _ =>
            attempt .getAccount (fun _ => .done (some ())))
        else attempt .getAccount (fun _ => .done (some ()))))

/-- A request of a user of the plan. -/
def updateOverage (request : UpdateOverageRequest) : OverageProgram OverageResult :=
  if request.enabled && request.consentVersion ≠ some overageConsentVersion then .done .finished
  else do
    match ← provisionUser chargeWhenUnder with
    | none => .done .finished
    | some account => do
        match ← applyRequest request account with
        | none => .done .finished
        | some _ => .done .updated

/-- A failed payment, or one that needs an action or cannot be billed. -/
def paymentWebhook (paid : Bool) : OverageProgram OverageResult := do
  let _ ← attempt (ρ := Unit) .getAccount (fun account =>
    attempt (.setPaymentReady paid) (fun _ =>
      attempt (.setUsageEntitled (paid && account.overageEnabled)) (fun _ =>
        if paid then .done (some ()) else attempt .disableOverage (fun _ => .done (some ())))))
  .done .finished

end Programs

/-! ## What a run knows -/

structure OverageKnown where
  /-- The provider has taken a setting that is not written to the account. -/
  owes : Option Bool
  /-- The setting of the user is written to the account. -/
  updated : Bool
deriving DecidableEq, Repr

namespace OverageKnown

/-- A setting is written by the run that applied it, and nothing is done before. -/
def allows (k : OverageKnown) : OverageStatement → Prop
  | .completeMigration enabled => k.owes = some enabled
  | .setOverage enabled => k.owes = some enabled
  | _ => k.owes = none

def next (k : OverageKnown) (s : OverageStatement) (input : OverageInput)
    (_ : OverageStore) : OverageKnown :=
  match s with
  | .applyOverage enabled => if input.fate = .done then { k with owes := some enabled } else k
  | .completeMigration _ => { k with owes := none }
  | .setOverage _ => ⟨none, k.updated || input.fate = .done⟩
  | _ => k

/-- A run ends with no setting left to write, and a successful request with that of the user
written. -/
def Settled (k : OverageKnown) (result : OverageResult) : Prop :=
  k.owes = none ∧ (result = .updated → k.updated = true)

end OverageKnown

def overageProtocol : Protocol OverageStatement.exec OverageKnown where
  allows := OverageKnown.allows
  admits _ := True
  next := OverageKnown.next

section Obeys

variable {ρ : Type} {post : OverageKnown → Option ρ → Prop} {k : OverageKnown}

/-- A statement after which the same is known, whatever becomes of it. -/
theorem obeys_attempt {k' : OverageKnown} {s : OverageStatement}
    {f : OverageValue s → OverageProgram (Option ρ)} (hallows : k.allows s)
    (hnext : ∀ input t, k.next s input t = k') (hfail : post k' none)
    (hf : ∀ value, overageProtocol.Obeys post k' (f value)) :
    overageProtocol.Obeys post k (attempt s f) := by
  refine ⟨hallows, fun input t _ => ?_⟩
  rw [show overageProtocol.next k s input t = k' from hnext input t]
  cases (OverageStatement.exec s input t).2 with
  | none => exact hfail
  | some value => exact hf value

theorem obeys_clientSetOverage {account : BillingAccount} {s : OverageStatement}
    {f : OverageValue s → OverageProgram (Option ρ)} (hfail : post k none)
    (h : overageProtocol.Obeys post k (attempt s f)) :
    overageProtocol.Obeys post k (clientSetOverage account s f) := by
  unfold clientSetOverage
  split
  · exact h
  · exact hfail

/-- The setting that the provider takes is owed until it is written. -/
theorem obeys_applyOverage {enabled : Bool} {f : Unit → OverageProgram (Option ρ)}
    (howes : k.owes = none) (hfail : post k none)
    (hf : overageProtocol.Obeys post { k with owes := some enabled } (f ())) :
    overageProtocol.Obeys post k (attempt (.applyOverage enabled) f) := by
  refine ⟨howes, fun input t _ => ?_⟩
  show overageProtocol.Obeys post
    (if input.fate = .done then { k with owes := some enabled } else k) _
  by_cases hdone : input.fate = .done
  · rw [if_pos hdone]
    have hanswer : (OverageStatement.exec (.applyOverage enabled) input t).2 = some () := by
      simp [OverageStatement.exec, OverageStore.apply, hdone, StatementFate.answer]
    rw [hanswer]
    exact hf
  · rw [if_neg hdone]
    have hanswer : (OverageStatement.exec (.applyOverage enabled) input t).2 = none := by
      cases hfate : input.fate with
      | done => exact absurd hfate hdone
      | refused => simp [OverageStatement.exec, OverageStore.apply, hfate, StatementFate.answer]
      | lost => simp [OverageStatement.exec, OverageStore.apply, hfate, StatementFate.answer]
    rw [hanswer]
    exact hfail

/-- Only a run that owes nothing goes on or ends. -/
def Owing (updated : Bool) (k : OverageKnown) (_ : Option ρ) : Prop := k = ⟨none, updated⟩

variable {updated : Bool}

theorem obeys_migrate (chargeWhenUnder : Bool) (account : BillingAccount) :
    overageProtocol.Obeys (Owing updated) ⟨none, updated⟩
      (migrateLegacyOveragePreference chargeWhenUnder account) := by
  unfold migrateLegacyOveragePreference
  split
  · exact rfl
  · split
    · exact obeys_clientSetOverage rfl (obeys_attempt rfl (fun _ _ => rfl) rfl (fun _ => rfl))
    · refine obeys_clientSetOverage rfl (obeys_applyOverage rfl rfl ?_)
      refine obeys_attempt rfl (fun _ _ => rfl) rfl (fun _ => ?_)
      exact obeys_attempt rfl (fun _ _ => rfl) rfl (fun _ => rfl)

theorem obeys_refreshPaymentReady (chargeWhenUnder : Bool) (account : BillingAccount) :
    overageProtocol.Obeys (Owing updated) ⟨none, updated⟩
      (refreshPaymentReady chargeWhenUnder account) := by
  unfold refreshPaymentReady
  split
  · exact obeys_migrate chargeWhenUnder account
  · refine obeys_attempt rfl (fun _ _ => rfl) rfl (fun ready => ?_)
    refine obeys_attempt rfl (fun _ _ => rfl) rfl (fun _ => ?_)
    exact obeys_attempt rfl (fun _ _ => rfl) rfl (obeys_migrate chargeWhenUnder)

theorem obeys_provisionedUser (chargeWhenUnder : Bool) (account : BillingAccount) :
    overageProtocol.Obeys (Owing updated) ⟨none, updated⟩
      (provisionedUser chargeWhenUnder account) := by
  refine obeys_attempt rfl (fun _ _ => rfl) rfl (fun _ => ?_)
  split
  · exact obeys_refreshPaymentReady chargeWhenUnder account
  · split
    · exact rfl
    · refine obeys_attempt rfl (fun _ _ => rfl) rfl (fun _ => ?_)
      refine obeys_attempt rfl (fun _ _ => rfl) rfl (fun _ => ?_)
      exact obeys_refreshPaymentReady chargeWhenUnder account

theorem obeys_newlyProvisionedUser (chargeWhenUnder : Bool) (account : BillingAccount) :
    overageProtocol.Obeys (Owing updated) ⟨none, updated⟩
      (newlyProvisionedUser chargeWhenUnder account) := by
  refine obeys_attempt rfl (fun _ _ => rfl) rfl (fun _ => ?_)
  split
  · exact obeys_attempt rfl (fun _ _ => rfl) rfl (obeys_migrate chargeWhenUnder)
  · refine obeys_attempt rfl (fun _ _ => rfl) rfl (fun _ => ?_)
    refine obeys_attempt rfl (fun _ _ => rfl) rfl (fun _ => ?_)
    exact obeys_attempt rfl (fun _ _ => rfl) rfl (obeys_migrate chargeWhenUnder)

theorem obeys_provisionUser (chargeWhenUnder : Bool) :
    overageProtocol.Obeys (Owing updated) ⟨none, updated⟩ (provisionUser chargeWhenUnder) := by
  refine obeys_attempt rfl (fun _ _ => rfl) rfl (fun account => ?_)
  split
  · exact obeys_provisionedUser chargeWhenUnder account
  · refine obeys_attempt rfl (fun _ _ => rfl) rfl (fun ready => ?_)
    refine obeys_attempt rfl (fun _ _ => rfl) rfl (fun created => ?_)
    refine obeys_attempt rfl (fun _ _ => rfl) rfl (fun _ => ?_)
    refine obeys_attempt rfl (fun _ _ => rfl) rfl (fun _ => ?_)
    exact obeys_newlyProvisionedUser chargeWhenUnder account

def OverageKnown.begin : OverageKnown := ⟨none, false⟩

abbrev OverageObeys (p : OverageProgram OverageResult) : Prop :=
  overageProtocol.Obeys OverageKnown.Settled OverageKnown.begin p

theorem settled_finished : OverageKnown.begin.Settled .finished :=
  ⟨rfl, fun h => by cases h⟩

theorem obeys_provisionNewSubscriber (chargeWhenUnder : Bool) :
    OverageObeys (provisionNewSubscriber chargeWhenUnder) := by
  refine (obeys_provisionUser chargeWhenUnder).bind (fun k result hk => ?_)
  rw [show k = OverageKnown.begin from hk]
  exact settled_finished

theorem obeys_provisionSubscriber (chargeWhenUnder : Bool) :
    OverageObeys (provisionSubscriber chargeWhenUnder) := by
  refine (obeys_provisionUser chargeWhenUnder).bind (fun k result hk => ?_)
  rw [show k = OverageKnown.begin from hk]
  cases result with
  | some account => exact settled_finished
  | none => exact ⟨rfl, fun _ _ _ => ⟨rfl, fun _ _ _ => settled_finished⟩⟩

theorem obeys_getOverageStatus (chargeWhenUnder : Bool) :
    OverageObeys (getOverageStatus chargeWhenUnder) := by
  refine ⟨rfl, fun input t _ => ?_⟩
  show overageProtocol.Obeys _ OverageKnown.begin _
  cases (OverageStatement.exec .ensureAccount input t).2 with
  | none => exact settled_finished
  | some account =>
      dsimp only
      split
      · exact obeys_provisionNewSubscriber chargeWhenUnder
      · exact settled_finished

/-- The part of a request after the provisioning. -/
theorem obeys_applyRequest (request : UpdateOverageRequest) (account : BillingAccount) :
    overageProtocol.Obeys (fun k result => k.owes = none ∧ (result = some () → k.updated = true))
      OverageKnown.begin (applyRequest request account) := by
  unfold applyRequest
  have hfail : OverageKnown.begin.owes = none ∧
      (none = some () → OverageKnown.begin.updated = true) := ⟨rfl, fun h => by cases h⟩
  split
  · exact hfail
  · refine obeys_clientSetOverage hfail (obeys_applyOverage rfl hfail ?_)
    refine ⟨rfl, fun input t _ => ?_⟩
    show overageProtocol.Obeys _ ⟨none, false || input.fate = .done⟩ _
    cases hanswer : (OverageStatement.exec (.setOverage request.enabled) input t).2 with
    | none => exact ⟨rfl, fun h => by cases h⟩
    | some value =>
      obtain ⟨hdone, _⟩ := StatementFate.answer_eq_some
        (show input.fate.answer () = some value from hanswer)
      have hknown : (⟨none, false || input.fate = .done⟩ : OverageKnown) = ⟨none, true⟩ := by
        simp [hdone]
      rw [hknown]
      dsimp only
      have hdone' : (⟨none, true⟩ : OverageKnown).owes = none ∧
          ((none : Option Unit) = some () → (⟨none, true⟩ : OverageKnown).updated = true) :=
        ⟨rfl, fun _ => rfl⟩
      split
      · refine obeys_attempt rfl (fun _ _ => rfl) hdone' (fun _ => ?_)
        exact obeys_attempt rfl (fun _ _ => rfl) hdone' (fun _ => ⟨rfl, fun _ => rfl⟩)
      · exact obeys_attempt rfl (fun _ _ => rfl) hdone' (fun _ => ⟨rfl, fun _ => rfl⟩)

theorem obeys_updateOverage (chargeWhenUnder : Bool) (request : UpdateOverageRequest) :
    OverageObeys (updateOverage chargeWhenUnder request) := by
  unfold updateOverage
  split
  · exact settled_finished
  · refine (obeys_provisionUser chargeWhenUnder).bind (fun k result hk => ?_)
    rw [show k = OverageKnown.begin from hk]
    cases result with
    | none => exact settled_finished
    | some account =>
        refine (obeys_applyRequest request account).bind (fun k result hk => ?_)
        cases result with
        | none => exact ⟨hk.1, fun h => by cases h⟩
        | some _ => exact ⟨hk.1, fun _ => hk.2 rfl⟩

theorem obeys_paymentWebhook (paid : Bool) : OverageObeys (paymentWebhook paid) := by
  have hwebhook : overageProtocol.Obeys (Owing false) ⟨none, false⟩
      (attempt (ρ := Unit) .getAccount (fun account =>
        attempt (.setPaymentReady paid) (fun _ =>
          attempt (.setUsageEntitled (paid && account.overageEnabled)) (fun _ =>
            if paid then .done (some ()) else attempt .disableOverage (fun _ => .done (some ())))))) := by
    refine obeys_attempt rfl (fun _ _ => rfl) rfl (fun account => ?_)
    refine obeys_attempt rfl (fun _ _ => rfl) rfl (fun _ => ?_)
    refine obeys_attempt rfl (fun _ _ => rfl) rfl (fun _ => ?_)
    split
    · exact rfl
    · exact obeys_attempt rfl (fun _ _ => rfl) rfl (fun _ => rfl)
  refine hwebhook.bind (fun k result hk => ?_)
  rw [show k = OverageKnown.begin from hk]
  exact settled_finished

end Obeys

/-! ## All runs of a user -/

abbrev OverageRuns : Type :=
  Concurrent OverageStatement OverageAnswer OverageStore OverageKnown OverageResult

inductive OverageAction
  | provisionSubscriber (chargeWhenUnder : Bool)
  | provisionNewSubscriber (chargeWhenUnder : Bool)
  | getOverageStatus (chargeWhenUnder : Bool)
  | updateOverage (chargeWhenUnder : Bool) (request : UpdateOverageRequest)
  | paymentWebhook (paid : Bool)
  | issue (i : Nat) (input : OverageInput)
  /-- The process of a run ends before the run does. -/
  | stop (i : Nat)
deriving DecidableEq, Repr

namespace OverageStatement

/-- The statements that the flag, its marker or the setting at the provider depend on. -/
def touches : OverageStatement → Bool
  | keepOverageOff => true
  | applyOverage _ => true
  | completeMigration _ => true
  | setOverage _ => true
  | disableOverage => true
  | _ => false

/-- Neither the write of a request of the user nor that of a webhook. -/
def ofMigration : OverageStatement → Bool
  | setOverage _ => false
  | disableOverage => false
  | _ => true

end OverageStatement

namespace OverageRuns

/-- The account of a user with the old preference not migrated, and overage off. -/
def begin (account : BillingAccount) : OverageRuns :=
  ⟨⟨{ account with overageEnabled := false, legacyOveragePreferenceMigrated := false }, false⟩, []⟩

def step (s : OverageRuns) : OverageAction → Option OverageRuns
  | .provisionSubscriber c => some (s.start .begin (Lightfriend.Billing.provisionSubscriber c))
  | .provisionNewSubscriber c =>
      some (s.start .begin (Lightfriend.Billing.provisionNewSubscriber c))
  | .getOverageStatus c => some (s.start .begin (Lightfriend.Billing.getOverageStatus c))
  | .updateOverage c request =>
      some (s.start .begin (Lightfriend.Billing.updateOverage c request))
  | .paymentWebhook paid => some (s.start .begin (Lightfriend.Billing.paymentWebhook paid))
  | .issue i input => Concurrent.issue overageProtocol s i input
  | .stop i => Concurrent.stop s i .finished

/-- The local flag and the setting at the provider. -/
def Agrees (s : OverageRuns) : Prop := s.store.account.overageEnabled = s.store.provider

/-- No request, migration or webhook is in progress. -/
def Quiet (s : OverageRuns) : Prop := ∀ r ∈ s.running, r.program.isDone = true

/-- The run was a request of the user and returned success. -/
def isUpdated : OverageProgram OverageResult → Bool
  | .done .updated => true
  | _ => false

/-- A request of the user has returned success. -/
def Chosen (s : OverageRuns) : Prop := ∃ r ∈ s.running, isUpdated r.program = true

/-- Every setting that is still to be written is `enabled`. -/
def owesOnly (s : OverageRuns) (enabled : Bool) : Bool :=
  s.running.all (fun r => r.known.owes.all (· = enabled))

/-- The conditions on a statement: a setting is applied at the provider only while no run is to
write another one, and overage is kept off there, or an answer gets lost, only where this is the
flag; the write after it is carried out, and that of a migration only while the marker is not set
or the flag is the same; a webhook turns the flag off only where the provider has it off. -/
def permits (s : OverageRuns) (input : OverageInput) : OverageStatement → Bool
  | .keepOverageOff =>
      input.fate = .refused || s.owesOnly false && !s.store.account.overageEnabled
  | .applyOverage enabled =>
      input.fate = .refused ||
        s.owesOnly enabled && (input.fate = .done || s.store.account.overageEnabled = enabled)
  | .completeMigration enabled =>
      input.fate ≠ .refused && (!s.store.account.legacyOveragePreferenceMigrated ||
        s.store.account.overageEnabled = enabled)
  | .setOverage _ => input.fate ≠ .refused
  | .disableOverage => input.fate = .refused || !s.store.provider
  | _ => true

def orderly (s : OverageRuns) : OverageAction → Bool
  | .issue i input => Concurrent.nextMeets (fun _ stmt => s.permits input stmt) s i
  | .stop i => s.running[i]?.all (fun r => r.known.owes = none)
  | _ => true

/-- The action is a step of a migration. -/
def Migrates (s : OverageRuns) : OverageAction → Prop
  | .issue i _ => Concurrent.nextMeets (fun _ stmt => stmt.ofMigration) s i = true
  | _ => False

end OverageRuns

/-! ## What the runs keep -/

namespace OverageStore

variable {t : OverageStore} {input : OverageInput} {stmt : OverageStatement} {enabled : Bool}

/-- What is owed was applied last, and the setting of the user is marked. -/
def Fits (k : OverageKnown) (t : OverageStore) : Prop :=
  (∀ enabled, k.owes = some enabled → t.provider = enabled) ∧
    (k.updated = true → t.account.legacyOveragePreferenceMigrated = true)

theorem exec_untouched (stmt : OverageStatement) (input : OverageInput) (t : OverageStore)
    (h : stmt.touches = false) :
    (stmt.exec input t).1.provider = t.provider ∧
      (stmt.exec input t).1.account.overageEnabled = t.account.overageEnabled ∧
      (stmt.exec input t).1.account.legacyOveragePreferenceMigrated =
        t.account.legacyOveragePreferenceMigrated := by
  cases stmt <;> cases h <;>
    cases hfate : input.fate <;>
    simp [OverageStatement.exec, write, hfate, StatementFate.after]

theorem exec_refused (h : input.fate = .refused) : (stmt.exec input t).1 = t := by
  cases stmt <;> simp [OverageStatement.exec, write, apply, h, StatementFate.after]

/-- A setting that the provider takes. -/
theorem apply_done {fate : StatementFate} (h : fate ≠ .refused) :
    (t.apply fate enabled).1 = { t with provider := enabled } := by
  cases fate with
  | done => rfl
  | refused => exact absurd rfl h
  | lost => rfl

theorem write_done {account : BillingAccount} {fate : StatementFate} (h : fate ≠ .refused) :
    (t.write fate account).1 = { t with account := account } := by
  cases fate with
  | done => rfl
  | refused => exact absurd rfl h
  | lost => rfl

end OverageStore

namespace OverageRuns

variable {s next : OverageRuns} {input : OverageInput} {stmt : OverageStatement}
  {rest : OverageAnswer stmt → OverageProgram OverageResult}
  {r : Running OverageStatement OverageAnswer OverageKnown OverageResult}

theorem owesOnly_spec {enabled enabled' : Bool} (h : s.owesOnly enabled = true) (hr : r ∈ s.running)
    (howes : r.known.owes = some enabled') : enabled' = enabled := by
  have hall := List.all_eq_true.mp h r hr
  rw [howes, Option.all_some, decide_eq_true_eq] at hall
  exact hall

/-- What a run knows stays right under a permitted statement of any run. -/
theorem fits_others (hpermits : s.permits input stmt = true) :
    ∀ r' ∈ s.running, OverageStore.Fits r'.known s.store →
      OverageStore.Fits r'.known (stmt.exec input s.store).1 := by
  intro r' hr' hfits
  by_cases hrefused : input.fate = .refused
  · rw [OverageStore.exec_refused hrefused]
    exact hfits
  · have huntouched := OverageStore.exec_untouched stmt input s.store
    cases stmt with
    | keepOverageOff =>
        simp only [permits, hrefused, decide_false, Bool.false_or, Bool.and_eq_true] at hpermits
        show OverageStore.Fits r'.known (s.store.apply input.fate false).1
        rw [OverageStore.apply_done hrefused]
        exact ⟨fun enabled howes => (owesOnly_spec hpermits.1 hr' howes).symm, hfits.2⟩
    | applyOverage applied =>
        simp only [permits, hrefused, decide_false, Bool.false_or, Bool.and_eq_true] at hpermits
        show OverageStore.Fits r'.known (s.store.apply input.fate applied).1
        rw [OverageStore.apply_done hrefused]
        exact ⟨fun enabled howes => (owesOnly_spec hpermits.1 hr' howes).symm, hfits.2⟩
    | completeMigration enabled =>
        show OverageStore.Fits r'.known (s.store.write input.fate _).1
        rw [OverageStore.write_done hrefused]
        exact ⟨hfits.1, fun _ => rfl⟩
    | setOverage enabled =>
        show OverageStore.Fits r'.known (s.store.write input.fate _).1
        rw [OverageStore.write_done hrefused]
        exact ⟨hfits.1, fun _ => rfl⟩
    | disableOverage =>
        show OverageStore.Fits r'.known (s.store.write input.fate _).1
        rw [OverageStore.write_done hrefused]
        exact ⟨hfits.1, fun _ => rfl⟩
    | _ =>
        obtain ⟨hprovider, _, hmarker⟩ := huntouched rfl
        exact ⟨fun enabled howes => hprovider.trans (hfits.1 enabled howes),
          fun hupdated => hmarker.trans (hfits.2 hupdated)⟩

/-- So does what the issuer knows afterwards. -/
theorem fits_next (hpermits : s.permits input stmt = true) (hr : r ∈ s.running)
    (hfits : OverageStore.Fits r.known s.store) :
    OverageStore.Fits (r.known.next stmt input s.store) (stmt.exec input s.store).1 := by
  have hsame := fits_others hpermits r hr hfits
  cases stmt with
  | applyOverage applied =>
      unfold OverageKnown.next
      dsimp only
      split
      next hdone =>
        refine ⟨fun enabled howes => ?_, hsame.2⟩
        cases howes
        show (s.store.apply input.fate applied).1.provider = applied
        rw [OverageStore.apply_done (by rw [hdone]; decide)]
      next => exact hsame
  | completeMigration enabled => exact ⟨fun _ howes => (by cases howes), hsame.2⟩
  | setOverage enabled =>
      refine ⟨fun _ howes => (by cases howes), fun _ => ?_⟩
      show (s.store.write input.fate _).1.account.legacyOveragePreferenceMigrated = true
      rw [OverageStore.write_done (by simpa [permits] using hpermits)]
      rfl
  | _ => exact hsame

/-- Some run is to write what it has applied, or the flag is what the provider has. -/
def Accounted (s : OverageRuns) : Prop := (∃ r ∈ s.running, r.known.owes ≠ none) ∨ s.Agrees

/-- A statement of a run that owes nothing leaves what the others owe. -/
theorem owing_kept {i : Nat}
    {x : Running OverageStatement OverageAnswer OverageKnown OverageResult}
    (hr : s.running[i]? = some r) (hnone : r.known.owes = none)
    (howing : ∃ r' ∈ s.running, r'.known.owes ≠ none) :
    ∃ r' ∈ s.running.set i x, r'.known.owes ≠ none := by
  obtain ⟨r', hr', howes⟩ := howing
  obtain ⟨j, hj⟩ := List.getElem?_of_mem hr'
  have hne : i ≠ j := by
    intro heq
    rw [heq, hj, Option.some.injEq] at hr
    rw [hr] at howes
    exact howes hnone
  refine ⟨r', ?_, howes⟩
  have hset : (s.running.set i x)[j]? = some r' := by
    rw [List.getElem?_set_ne hne]
    exact hj
  exact List.mem_of_getElem? hset

theorem Accounted.issue {i : Nat} (h : s.Accounted) (hr : s.running[i]? = some r)
    (hpermits : s.permits input stmt = true) (hallows : r.known.allows stmt)
    (hfits : OverageStore.Fits r.known s.store)
    (hnext : next = ⟨(stmt.exec input s.store).1, s.running.set i
      ⟨r.known.next stmt input s.store, rest (stmt.exec input s.store).2⟩⟩) : next.Accounted := by
  rw [hnext]
  -- a run that owes nothing and does not change the two sides leaves them as they are
  have hkeep : r.known.owes = none →
      (stmt.exec input s.store).1.account.overageEnabled = s.store.account.overageEnabled →
      (stmt.exec input s.store).1.provider = s.store.provider →
      Accounted ⟨(stmt.exec input s.store).1, s.running.set i
        ⟨r.known.next stmt input s.store, rest (stmt.exec input s.store).2⟩⟩ := by
    intro hnone henabled hprovider
    cases h with
    | inl howing => exact Or.inl (owing_kept hr hnone howing)
    | inr hagrees => exact Or.inr (henabled.trans (hagrees.trans hprovider.symm))
  by_cases hrefused : input.fate = .refused
  · have hstore : (stmt.exec input s.store).1 = s.store := OverageStore.exec_refused hrefused
    cases stmt with
    | completeMigration enabled => simp [permits, hrefused] at hpermits
    | setOverage enabled => simp [permits, hrefused] at hpermits
    | _ => exact hkeep hallows (by rw [hstore]) (by rw [hstore])
  · have huntouched := OverageStore.exec_untouched stmt input s.store
    cases stmt with
    | keepOverageOff =>
        simp only [permits, hrefused, decide_false, Bool.false_or, Bool.and_eq_true,
          Bool.not_eq_true'] at hpermits
        refine Or.inr ?_
        show (s.store.apply input.fate false).1.account.overageEnabled =
          (s.store.apply input.fate false).1.provider
        rw [OverageStore.apply_done hrefused]
        exact hpermits.2
    | applyOverage enabled =>
        simp only [permits, hrefused, decide_false, Bool.false_or, Bool.and_eq_true,
          Bool.or_eq_true, decide_eq_true_eq] at hpermits
        by_cases hdone : input.fate = .done
        · have hlt : i < s.running.length := (List.getElem?_eq_some_iff.mp hr).1
          refine Or.inl ⟨_, List.mem_of_getElem? (List.getElem?_set_self hlt), ?_⟩
          simp [OverageKnown.next, hdone]
        · have hflag := hpermits.2.resolve_left hdone
          refine Or.inr ?_
          show (s.store.apply input.fate enabled).1.account.overageEnabled =
            (s.store.apply input.fate enabled).1.provider
          rw [OverageStore.apply_done hrefused]
          exact hflag
    | completeMigration enabled =>
        refine Or.inr ?_
        show (s.store.write input.fate _).1.account.overageEnabled =
          (s.store.write input.fate _).1.provider
        rw [OverageStore.write_done hrefused]
        exact (hfits.1 enabled hallows).symm
    | setOverage enabled =>
        refine Or.inr ?_
        show (s.store.write input.fate _).1.account.overageEnabled =
          (s.store.write input.fate _).1.provider
        rw [OverageStore.write_done hrefused]
        exact (hfits.1 enabled hallows).symm
    | disableOverage =>
        simp only [permits, hrefused, decide_false, Bool.false_or, Bool.not_eq_true'] at hpermits
        refine Or.inr ?_
        show (s.store.write input.fate _).1.account.overageEnabled =
          (s.store.write input.fate _).1.provider
        rw [OverageStore.write_done hrefused]
        exact hpermits.symm
    | _ =>
        obtain ⟨hprovider, henabled, _⟩ := huntouched rfl
        exact hkeep hallows henabled hprovider

/-- What is known of the runs at any time. -/
structure Inv (s : OverageRuns) : Prop where
  sound : Concurrent.Sound overageProtocol (fun _ => True) OverageStore.Fits s
  ends : Concurrent.Ends overageProtocol OverageKnown.Settled s
  accounted : s.Accounted

theorem inv_begin (account : BillingAccount) : (begin account).Inv where
  sound := Concurrent.sound_of_none_running trivial
  ends _ hr := absurd hr List.not_mem_nil
  accounted := Or.inr rfl

/-- A further run begins with nothing known. -/
theorem Inv.start (h : s.Inv) {p : OverageProgram OverageResult} (hobeys : OverageObeys p) :
    Inv (Concurrent.start s .begin p) where
  sound := h.sound.start ⟨fun _ howes => (by cases howes), fun hupdated => (by cases hupdated)⟩
    (hobeys.weaken (fun _ _ _ => trivial))
  ends := h.ends.start hobeys
  accounted := by
    cases h.accounted with
    | inl howing =>
        obtain ⟨r, hr, howes⟩ := howing
        exact Or.inl ⟨r, List.mem_append_left _ hr, howes⟩
    | inr hagrees => exact Or.inr hagrees

theorem Inv.issue {i : Nat} (h : s.Inv)
    (hpermits : Concurrent.nextMeets (fun _ stmt => s.permits input stmt) s i = true)
    (hissue : Concurrent.issue overageProtocol s i input = some next) : next.Inv := by
  obtain ⟨r, stmt, rest, hr, hprogram, hnext⟩ := Concurrent.issue_spec hissue
  have hmem : r ∈ s.running := List.mem_of_getElem? hr
  have hpermitted := Concurrent.nextMeets_spec hpermits hr hprogram
  have hallows : r.known.allows stmt := by
    have hobeys := h.sound.obeys r hmem
    rw [hprogram] at hobeys
    exact hobeys.1
  refine ⟨?_, h.ends.issue trivial hissue,
    h.accounted.issue hr hpermitted hallows (h.sound.fits r hmem) hnext⟩
  refine h.sound.issue_mem trivial (fun r' stmt' rest' hr' hprogram' _ hfits' => ?_) hissue
  have hpermitted' := Concurrent.nextMeets_spec hpermits hr' hprogram'
  exact ⟨trivial, fits_next hpermitted' (List.mem_of_getElem? hr') hfits',
    fits_others hpermitted'⟩

theorem Inv.stop {i : Nat} (h : s.Inv)
    (howes : s.running[i]?.all (fun r => r.known.owes = none) = true)
    (hstop : Concurrent.stop s i .finished = some next) : next.Inv := by
  obtain ⟨r, hr, _, hnext⟩ := Concurrent.stop_spec hstop
  rw [hr, Option.all_some, decide_eq_true_eq] at howes
  refine ⟨h.sound.stop hstop, h.ends.stop (fun r' hr' => ?_) hstop, ?_⟩
  · rw [hr, Option.some.injEq] at hr'
    rw [← hr']
    exact ⟨howes, fun h => by cases h⟩
  · rw [hnext]
    cases h.accounted with
    | inl howing => exact Or.inl (owing_kept hr howes howing)
    | inr hagrees => exact Or.inr hagrees

theorem Inv.step {action : OverageAction} (h : s.Inv) (horderly : s.orderly action = true)
    (hstep : s.step action = some next) : next.Inv := by
  cases action with
  | provisionSubscriber c =>
      cases hstep
      exact h.start (obeys_provisionSubscriber c)
  | provisionNewSubscriber c =>
      cases hstep
      exact h.start (obeys_provisionNewSubscriber c)
  | getOverageStatus c =>
      cases hstep
      exact h.start (obeys_getOverageStatus c)
  | updateOverage c request =>
      cases hstep
      exact h.start (obeys_updateOverage c request)
  | paymentWebhook paid =>
      cases hstep
      exact h.start (obeys_paymentWebhook paid)
  | issue i input => exact h.issue horderly hstep
  | stop i => exact h.stop horderly hstep

/-- Where nothing is in progress, nothing is left to write. -/
theorem Inv.agrees (h : s.Inv) (hquiet : s.Quiet) : s.Agrees := by
  cases h.accounted with
  | inr hagrees => exact hagrees
  | inl howing =>
      obtain ⟨r, hr, howes⟩ := howing
      have hdone := hquiet r hr
      cases hprogram : r.program with
      | done result => exact absurd (h.ends.done hr hprogram).1 howes
      | issue stmt rest =>
          rw [hprogram] at hdone
          cases hdone

/-- After a successful request the marker of the migration is set. -/
theorem Inv.marked (h : s.Inv) (hchosen : s.Chosen) :
    s.store.account.legacyOveragePreferenceMigrated = true := by
  obtain ⟨r, hr, hupdated⟩ := hchosen
  cases hprogram : r.program with
  | done result =>
      rw [hprogram] at hupdated
      cases result with
      | finished => cases hupdated
      | updated => exact (h.sound.fits r hr).2 ((h.ends.done hr hprogram).2 rfl)
  | issue stmt rest =>
      rw [hprogram] at hupdated
      cases hupdated

/-- From then on no permitted step of a migration changes the flag. -/
theorem Inv.flag_kept {action : OverageAction} (h : s.Inv) (hchosen : s.Chosen)
    (horderly : s.orderly action = true) (hmigrates : s.Migrates action)
    (hstep : s.step action = some next) :
    next.store.account.overageEnabled = s.store.account.overageEnabled := by
  cases action with
  | issue i input =>
      obtain ⟨r, stmt, rest, hr, hprogram, hnext⟩ := Concurrent.issue_spec hstep
      have hmeets : Concurrent.nextMeets (fun _ stmt => s.permits input stmt) s i = true := horderly
      have hmigrating : Concurrent.nextMeets (fun _ stmt => stmt.ofMigration) s i = true := hmigrates
      have hpermitted := Concurrent.nextMeets_spec hmeets hr hprogram
      have hmigration := Concurrent.nextMeets_spec hmigrating hr hprogram
      rw [hnext]
      have huntouched := OverageStore.exec_untouched stmt input s.store
      by_cases hrefused : input.fate = .refused
      · rw [OverageStore.exec_refused hrefused]
      · cases stmt with
        | keepOverageOff =>
            show (s.store.apply input.fate false).1.account.overageEnabled = _
            rw [OverageStore.apply_done hrefused]
        | applyOverage enabled =>
            show (s.store.apply input.fate enabled).1.account.overageEnabled = _
            rw [OverageStore.apply_done hrefused]
        | completeMigration enabled =>
            have hmarked := h.marked hchosen
            simp only [permits, hmarked, Bool.not_true, Bool.false_or, Bool.and_eq_true,
              decide_eq_true_eq] at hpermitted
            show (s.store.write input.fate _).1.account.overageEnabled = _
            rw [OverageStore.write_done hrefused]
            exact hpermitted.2.symm
        | setOverage enabled => cases hmigration
        | disableOverage => cases hmigration
        | _ => exact (huntouched rfl).2.1
  | _ => exact hmigrates.elim

end OverageRuns

/-- In every run whose statements are permitted, the flag is what the provider has whenever
nothing is in progress, and after a successful request of the user no step of a migration changes
it. -/
theorem overage_choice_kept {account : BillingAccount} {actions : List OverageAction}
    {s : OverageRuns}
    (hrun : Transition.run OverageRuns.step (OverageRuns.begin account) actions = some s)
    (horderly : Transition.Meets OverageRuns.step (fun s a => s.orderly a = true)
      (OverageRuns.begin account) actions) :
    (s.Quiet → s.Agrees) ∧
      ∀ action next, s.Chosen → s.orderly action = true → s.Migrates action →
        s.step action = some next →
          next.store.account.overageEnabled = s.store.account.overageEnabled := by
  have hinv : s.Inv := Transition.run_invariant
    (fun _ _ _ h horderly hstep => h.step horderly hstep) (OverageRuns.inv_begin account)
    horderly hrun
  exact ⟨hinv.agrees, fun action next => hinv.flag_kept⟩

/-! ## A migration that is late -/

namespace OverageExample

/-- A provisioned account with a payment method. -/
def account : BillingAccount where
  provisioningStatus := "provisioned"
  metronomeCustomerId := some "customer"
  metronomeContractId := some "contract"
  paymentReady := true
  usageEntitled := true
  legacyCreditMigrated := true
  overageEnabled := false
  overageConsentVersion := none
  legacyOveragePreferenceMigrated := false

/-- The next statements of a run, which all succeed. -/
def go (i count : Nat) : List OverageAction :=
  List.replicate count (.issue i ⟨.done, true, ("customer", "contract")⟩)

/-- The user turns overage off, after the migration. -/
def inOrder : List OverageAction :=
  .provisionSubscriber true :: go 0 5 ++ .updateOverage true ⟨false, none⟩ :: go 1 5

/-- The user turns overage off while the migration has applied the old preference. -/
def late : List OverageAction :=
  .provisionSubscriber true :: go 0 3 ++ .updateOverage true ⟨false, none⟩ :: go 1 8

def reached (actions : List OverageAction) : OverageRuns :=
  Transition.final OverageRuns.step (OverageRuns.begin account) actions

instance (s : OverageRuns) : Decidable s.Quiet := by
  unfold OverageRuns.Quiet
  infer_instance

instance (s : OverageRuns) : Decidable s.Agrees := by
  unfold OverageRuns.Agrees
  infer_instance

instance (s : OverageRuns) : Decidable s.Chosen := by
  unfold OverageRuns.Chosen
  infer_instance

end OverageExample

open OverageExample in
theorem overage_choice_kept_in_order :
    ((reached inOrder).Quiet → (reached inOrder).Agrees) ∧
      ∀ action next, (reached inOrder).Chosen → (reached inOrder).orderly action = true →
        (reached inOrder).Migrates action → (reached inOrder).step action = some next →
          next.store.account.overageEnabled = (reached inOrder).store.account.overageEnabled :=
  overage_choice_kept (Transition.run_eq_final (by decide +kernel)) (by decide +kernel)

open OverageExample in
theorem not_overage_choice_kept_late :
    (¬ ∀ (account : BillingAccount) (actions : List OverageAction) (s : OverageRuns),
      Transition.run OverageRuns.step (OverageRuns.begin account) actions = some s →
        s.Quiet → s.Agrees) ∧
    ¬ ∀ (account : BillingAccount) (actions : List OverageAction) (s next : OverageRuns)
      (action : OverageAction),
      Transition.run OverageRuns.step (OverageRuns.begin account) actions = some s →
        s.Chosen → s.Migrates action → s.step action = some next →
          next.store.account.overageEnabled = s.store.account.overageEnabled := by
  constructor
  · intro hlaw
    have hagrees := hlaw account (late ++ go 0 2) _ (Transition.run_eq_final (by decide +kernel))
      (show (reached (late ++ go 0 2)).Quiet by decide +kernel)
    exact absurd (show (reached (late ++ go 0 2)).Agrees from hagrees) (by decide +kernel)
  · intro hlaw
    have hmigrates : (reached late).Migrates (.issue 0 ⟨.done, true, ("customer", "contract")⟩) :=
      show Concurrent.nextMeets (fun _ stmt => OverageStatement.ofMigration stmt) (reached late) 0 =
        true by decide +kernel
    have hflag : ((reached late).step (.issue 0 ⟨.done, true, ("customer", "contract")⟩)).map
        (·.store.account.overageEnabled) = some true := by
      decide +kernel
    obtain ⟨next, hstep, htrue⟩ := Option.map_eq_some_iff.mp hflag
    have hkept := hlaw account late (reached late) next _
      (Transition.run_eq_final (by decide +kernel)) (by decide +kernel) hmigrates hstep
    rw [htrue] at hkept
    exact absurd hkept (by decide +kernel)

end Lightfriend.Billing
