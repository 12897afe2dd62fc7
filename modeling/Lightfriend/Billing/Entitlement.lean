import Lightfriend.Core.Transition

/-! # The plan of a subscriber

A subscription event that gives access grants the plan of its own snapshot; one
that ends access looks at the first twenty subscriptions of the customer. Events
come in any order and any number of times, while the subscriptions change.
-/

namespace Lightfriend.Billing

/-! ## Decisions -/

inductive PlanType
  | assistant
  | autopilot
deriving DecidableEq, Repr

def PlanType.asStr : PlanType → String
  | assistant => "assistant"
  | autopilot => "autopilot"

inductive ProductKind
  | assistant
  | autopilot
  | creditsAddOn
  | unknown
deriving DecidableEq, Repr

inductive SubscriptionAge
  | preLegacyCutoff
  | atOrAfterLegacyCutoff
  | missing
deriving DecidableEq, Repr

def planTypeForProduct (productKind : ProductKind) (subscriptionAge : SubscriptionAge) :
    Option PlanType :=
  match productKind with
  | .assistant => some .autopilot
  | .autopilot => some .autopilot
  | .creditsAddOn => none
  | .unknown => if subscriptionAge = .preLegacyCutoff then some .autopilot else none

def highestPlan : PlanType → PlanType → PlanType
  | .autopilot, _ => .autopilot
  | _, .autopilot => .autopilot
  | .assistant, .assistant => .assistant

inductive SubscriptionStatus
  | active
  | trialing
  | canceled
  | incomplete
  | incompleteExpired
  | pastDue
  | paused
  | unpaid
deriving DecidableEq, Repr

def subscriptionAllowsAccess (status : SubscriptionStatus) : Bool :=
  status = .active || status = .trialing

inductive SubscriptionUpsertEvent
  | created
  | updated
deriving DecidableEq, Repr

inductive SubscriptionUpsertDecision
  | applySubscription
  | ignoreInactiveSubscription
  | revokeInactiveSubscription
  | ignorePlanChangeUpdate
  | ignoreCancelAtPeriodEndUpdate
deriving DecidableEq, Repr

def decideSubscriptionUpsert (event : SubscriptionUpsertEvent) (status : SubscriptionStatus)
    (isPlanChange cancelAtPeriodEnd : Bool) : SubscriptionUpsertDecision :=
  match event with
  | .created =>
      if subscriptionAllowsAccess status then .applySubscription else .ignoreInactiveSubscription
  | .updated =>
      if isPlanChange then .ignorePlanChangeUpdate
      else if !subscriptionAllowsAccess status then .revokeInactiveSubscription
      else if cancelAtPeriodEnd then .ignoreCancelAtPeriodEndUpdate
      else .applySubscription

structure ActiveSubscriptionSnapshot where
  isDeletedSubscription : Bool
  productKind : ProductKind
  subscriptionAge : SubscriptionAge
deriving DecidableEq, Repr

inductive SubscriptionDeletedDecision
  | ignorePlanChangeDelete
  | clearSubscription
  | keepPlan (plan : PlanType)
deriving DecidableEq, Repr

/-- `reduce(highest_plan)`. -/
def highestOf : List PlanType → Option PlanType
  | [] => none
  | plan :: plans => some (plans.foldl highestPlan plan)

def decideSubscriptionDelete (isPlanChange : Bool)
    (activeSubscriptions : List ActiveSubscriptionSnapshot) : SubscriptionDeletedDecision :=
  if isPlanChange then .ignorePlanChangeDelete
  else
    match highestOf ((activeSubscriptions.filter (!·.isDeletedSubscription)).filterMap
      (fun s => planTypeForProduct s.productKind s.subscriptionAge)) with
    | some plan => .keepPlan plan
    | none => .clearSubscription

/-! ## Subscriptions -/

structure Subscription where
  id : String
  status : SubscriptionStatus
  /-- The price of the first item, and its product. -/
  price : Option (Option String)
  created : Int
  /-- The metadata `plan_change` is "true". -/
  planChange : Bool
  cancelAtPeriodEnd : Bool
deriving DecidableEq, Repr

/-- What the environment says about products. -/
structure StripeConfig where
  productKind : String → ProductKind
  legacyCutoff : Int

section Handler

variable (config : StripeConfig)

def subscriptionAgeForLegacyCutoff (created : Int) : SubscriptionAge :=
  if created < config.legacyCutoff then .preLegacyCutoff else .atOrAfterLegacyCutoff

def planTypeFromProduct (productId : String) (created : Int) : Option PlanType :=
  planTypeForProduct (config.productKind productId) (subscriptionAgeForLegacyCutoff config created)

def productKindFromSubscription (sub : Subscription) : ProductKind :=
  match sub.price with
  | some (some product) => config.productKind product
  | _ => .unknown

def subscriptionSnapshot (sub : Subscription) (isDeletedSubscription : Bool) :
    ActiveSubscriptionSnapshot :=
  ⟨isDeletedSubscription, productKindFromSubscription config sub,
    subscriptionAgeForLegacyCutoff config sub.created⟩

/-- The snapshots of the first twenty subscriptions, newest first, that give access. -/
def activeSnapshots (subs : List Subscription) (isDeleted : Subscription → Bool) :
    List ActiveSubscriptionSnapshot :=
  ((subs.take 20).filter (fun sub => subscriptionAllowsAccess sub.status)).map
    (fun sub => subscriptionSnapshot config sub (isDeleted sub))

/-! ## The webhook -/

structure Subscriber where
  subTier : Option String
  planType : Option String
deriving DecidableEq, Repr

/-- `clear_subscription_entitlement`, or `keep_subscription_plan`. -/
def Subscriber.settle (user : Subscriber) : SubscriptionDeletedDecision → Subscriber
  | .ignorePlanChangeDelete => user
  | .clearSubscription => ⟨none, none⟩
  | .keepPlan plan => ⟨some "tier 2", some plan.asStr⟩

/-- The user after `setup_user_subscription`, and the status of the response. -/
def setupUserSubscription (user : Subscriber) (productId : String) (created : Int) :
    Nat × Subscriber :=
  match planTypeFromProduct config productId created with
  | none => (500, user)
  | some plan => (200, ⟨some "tier 2", some plan.asStr⟩)

/-- A user that a subscription is applied to; a new one is made for a new subscription. -/
def subscriberFor (event : SubscriptionUpsertEvent) (user : Option Subscriber) :
    Option Subscriber :=
  match user with
  | some user => some user
  | none => if event = .created then some ⟨none, none⟩ else none

/-- `customer.subscription.created` and `customer.subscription.updated`. -/
def handleUpsert (event : SubscriptionUpsertEvent) (sub : Subscription)
    (subs : List Subscription) (user : Option Subscriber) : Nat × Option Subscriber :=
  match sub.price with
  | none => (500, user)
  | some product =>
      match decideSubscriptionUpsert event sub.status sub.planChange sub.cancelAtPeriodEnd with
      | .applySubscription =>
          match subscriberFor event user with
          | none => (200, none)
          | some user =>
              let (status, user) :=
                setupUserSubscription config user (product.getD "") sub.created
              (status, some user)
      | .revokeInactiveSubscription =>
          (200, user.map (·.settle (decideSubscriptionDelete false
            (activeSnapshots config subs (fun _ => false)))))
      | _ => (200, user)

/-- `customer.subscription.deleted`. -/
def handleDeleted (sub : Subscription) (subs : List Subscription) (user : Option Subscriber) :
    Nat × Option Subscriber :=
  (200, user.map (·.settle (decideSubscriptionDelete sub.planChange
    (activeSnapshots config subs (fun other => other.id = sub.id)))))

end Handler

/-! ## Customers and their events -/

inductive SubscriptionEvent
  | upsert (event : SubscriptionUpsertEvent) (sub : Subscription)
  | deleted (sub : Subscription)
deriving DecidableEq, Repr

def handleEvent (config : StripeConfig) (subs : List Subscription) (user : Option Subscriber) :
    SubscriptionEvent → Nat × Option Subscriber
  | .upsert event sub => handleUpsert config event sub subs user
  | .deleted sub => handleDeleted config sub subs user

inductive CustomerAction
  | create (sub : Subscription)
  | update (sub : Subscription)
  | delete (id : String)
  | deliver (i : Nat)
deriving DecidableEq, Repr

structure Customer where
  /-- Newest first. -/
  subs : List Subscription
  events : List SubscriptionEvent
  delivered : List Nat
  user : Option Subscriber
deriving DecidableEq, Repr

namespace Customer

/-- A customer without subscriptions, who may have an account. -/
def start (registered : Bool) : Customer :=
  ⟨[], [], [], if registered then some ⟨none, none⟩ else none⟩

def replace (subs : List Subscription) (sub : Subscription) : List Subscription :=
  subs.map (fun old => if old.id = sub.id then sub else old)

/-- Every change of a subscription has its event. A cancelled subscription stays cancelled, and
becomes so by its deletion. -/
def step (config : StripeConfig) (c : Customer) : CustomerAction → Option Customer
  | .create sub =>
      if c.subs.all (·.id ≠ sub.id) then
        some { c with
          subs := sub :: c.subs
          events := c.events ++ [.upsert .created sub] }
      else none
  | .update sub =>
      match c.subs.find? (·.id = sub.id) with
      | some old =>
          if (old.status = .canceled) = (sub.status = .canceled) ∧ old.created = sub.created then
            some { c with
              subs := replace c.subs sub
              events := c.events ++ [.upsert .updated sub] }
          else none
      | none => none
  | .delete id =>
      match c.subs.find? (·.id = id) with
      | some old =>
          some { c with
            subs := replace c.subs { old with status := .canceled }
            events := c.events ++ [.deleted { old with status := .canceled }] }
      | none => none
  | .deliver i =>
      match c.events[i]? with
      | some e =>
          some { c with
            user := (handleEvent config c.subs c.user e).2
            delivered := i :: c.delivered }
      | none => none

end Customer

/-! ## The plan that is due -/

section Plan

variable (config : StripeConfig)

/-- The plan of an active or trialing subscription, by its product. -/
def planOf (sub : Subscription) : Option PlanType :=
  if subscriptionAllowsAccess sub.status then
    planTypeForProduct (productKindFromSubscription config sub)
      (subscriptionAgeForLegacyCutoff config sub.created)
  else none

/-- The highest plan of any subscription. -/
def duePlan (subs : List Subscription) : Option PlanType := highestOf (subs.filterMap (planOf config))

/-- The event grants the plan of its own snapshot. -/
def SubscriptionEvent.grants : SubscriptionEvent → Bool
  | .upsert event sub =>
      match sub.price with
      | none => false
      | some product =>
          decideSubscriptionUpsert event sub.status sub.planChange sub.cancelAtPeriodEnd =
              .applySubscription &&
            (planTypeFromProduct config (product.getD "") sub.created).isSome
  | .deleted _ => false

/-- The event looks at the subscriptions of the customer. -/
def SubscriptionEvent.consults : SubscriptionEvent → Bool
  | .upsert event sub =>
      sub.price.isSome &&
        decideSubscriptionUpsert event sub.status sub.planChange sub.cancelAtPeriodEnd =
          .revokeInactiveSubscription
  | .deleted sub => !sub.planChange

/-- The event makes a user. -/
def SubscriptionEvent.isCreated : SubscriptionEvent → Bool
  | .upsert .created _ => true
  | _ => false

/-- The handling of the event gives the plan that is due. -/
def SubscriptionEvent.settles (e : SubscriptionEvent) (due : Option PlanType) : Bool :=
  e.consults || e.grants config && due.isSome

end Plan

namespace Customer

variable (config : StripeConfig)

/-- The plan of the user is the given one. -/
def HasPlan (user : Option Subscriber) (plan : Option PlanType) : Prop :=
  user.bind (·.planType) = plan.map PlanType.asStr ∧
    user.bind (·.subTier) = plan.map (fun _ => "tier 2")

/-- Every event was delivered. -/
def AllDelivered (c : Customer) : Prop := ∀ i < c.events.length, i ∈ c.delivered

/-- A change of the plan that is due has an event that settles it. -/
def announces (c : Customer) (action : CustomerAction) : Bool :=
  match c.step config action with
  | none => true
  | some next =>
      duePlan config next.subs = duePlan config c.subs ||
        (next.events.getLast?).any (·.settles config (duePlan config next.subs))

/-- An event that grants a plan is delivered while one is due, to a user or for a new subscription.
One that looks at the subscriptions finds the plan that is due among the first twenty, and the user
who has it. -/
def timely (c : Customer) (e : SubscriptionEvent) : Bool :=
  (!e.grants config || (duePlan config c.subs).isSome && (c.user.isSome || e.isCreated)) &&
    (!e.consults || duePlan config (c.subs.take 20) = duePlan config c.subs &&
      (c.user.isSome || (duePlan config c.subs).isNone))

/-- The condition on an action. -/
def orderly (c : Customer) (action : CustomerAction) : Bool :=
  match action with
  | .deliver i => c.events[i]?.all (c.timely config)
  | _ => c.announces config action

end Customer

/-! ## What an event does -/

theorem planTypeForProduct_eq {productKind : ProductKind} {subscriptionAge : SubscriptionAge}
    {plan : PlanType} (h : planTypeForProduct productKind subscriptionAge = some plan) :
    plan = .autopilot := by
  cases productKind with
  | assistant => cases h; rfl
  | autopilot => cases h; rfl
  | creditsAddOn => cases h
  | unknown =>
      unfold planTypeForProduct at h
      dsimp only at h
      split at h
      · cases h
        rfl
      · cases h

section Events

variable {config : StripeConfig} {subs : List Subscription} {user : Option Subscriber}

/-- Autopilot is the only plan that is ever due. -/
theorem duePlan_eq {plan : PlanType} (h : duePlan config subs = some plan) : plan = .autopilot := by
  have hall : ∀ p ∈ subs.filterMap (planOf config), p = PlanType.autopilot := by
    intro p hp
    obtain ⟨sub, _, hplan⟩ := List.mem_filterMap.mp hp
    unfold planOf at hplan
    split at hplan
    · exact planTypeForProduct_eq hplan
    · cases hplan
  have hfold : ∀ plans : List PlanType, plans.foldl highestPlan .autopilot = .autopilot := by
    intro plans
    induction plans with
    | nil => rfl
    | cons p plans ih => exact ih
  unfold duePlan at h
  cases hplans : subs.filterMap (planOf config) with
  | nil =>
      rw [hplans] at h
      cases h
  | cons p plans =>
      rw [hplans] at h hall
      have hp := hall p List.mem_cons_self
      rw [hp] at h
      have hsome : some (plans.foldl highestPlan .autopilot) = some plan := h
      rw [hfold plans, Option.some.injEq] at hsome
      exact hsome.symm

/-- The plans of the snapshots are those of the subscriptions, where nothing that gives access is
marked as deleted. -/
theorem snapshot_plans (config : StripeConfig) {isDeleted : Subscription → Bool}
    (hdeleted : ∀ sub ∈ subs, isDeleted sub = true → subscriptionAllowsAccess sub.status = false) :
    ((((subs.filter (fun sub => subscriptionAllowsAccess sub.status)).map
      (fun sub => subscriptionSnapshot config sub (isDeleted sub))).filter
        (!·.isDeletedSubscription)).filterMap
          (fun s => planTypeForProduct s.productKind s.subscriptionAge)) =
      subs.filterMap (planOf config) := by
  induction subs with
  | nil => rfl
  | cons sub subs ih =>
      have ih' := ih (fun other hother => hdeleted other (List.mem_cons_of_mem _ hother))
      have hsub := hdeleted sub List.mem_cons_self
      by_cases haccess : subscriptionAllowsAccess sub.status = true
      · have hkept : isDeleted sub = false := by
          by_contra hne
          rw [hsub (by simpa using hne)] at haccess
          cases haccess
        have hplan : planOf config sub = planTypeForProduct
            (productKindFromSubscription config sub)
            (subscriptionAgeForLegacyCutoff config sub.created) := by
          unfold planOf
          rw [if_pos haccess]
        simp only [List.filter_cons, haccess, if_true, List.map_cons, subscriptionSnapshot, hkept,
          Bool.not_false, List.filterMap_cons, hplan]
        rw [← ih']
        rfl
      · have hplan : planOf config sub = none := by
          unfold planOf
          rw [if_neg haccess]
        simp only [List.filter_cons, haccess, Bool.false_eq_true, if_false, List.filterMap_cons,
          hplan]
        exact ih'

/-- The decision on the snapshots of the list is the plan that is due from it. -/
theorem decideSubscriptionDelete_eq {isDeleted : Subscription → Bool}
    (hdeleted : ∀ sub ∈ subs, isDeleted sub = true → subscriptionAllowsAccess sub.status = false) :
    decideSubscriptionDelete false (activeSnapshots config subs isDeleted) =
      match duePlan config (subs.take 20) with
      | some plan => .keepPlan plan
      | none => .clearSubscription := by
  have hplans := snapshot_plans config
    (fun sub hsub => hdeleted sub (List.mem_of_mem_take (i := 20) hsub))
  unfold decideSubscriptionDelete activeSnapshots
  rw [if_neg (by decide), hplans]
  rfl

namespace Customer

/-- What is settled is the plan that is due. -/
theorem hasPlan_settle (hfound : duePlan config (subs.take 20) = duePlan config subs)
    (huser : user.isSome = true ∨ duePlan config subs = none) {isDeleted : Subscription → Bool}
    (hdeleted : ∀ sub ∈ subs, isDeleted sub = true →
      subscriptionAllowsAccess sub.status = false) :
    HasPlan (user.map (·.settle (decideSubscriptionDelete false
      (activeSnapshots config subs isDeleted)))) (duePlan config subs) := by
  rw [decideSubscriptionDelete_eq hdeleted, hfound]
  cases user with
  | none =>
      have hnone := huser.resolve_left (by simp)
      rw [hnone]
      exact ⟨rfl, rfl⟩
  | some user =>
      cases duePlan config subs with
      | none => exact ⟨rfl, rfl⟩
      | some plan => exact ⟨rfl, rfl⟩

/-- No subscription whose deletion is reported gives access. -/
def DeletedIsOver (subs : List Subscription) (e : SubscriptionEvent) : Prop :=
  match e with
  | .deleted sub => (∃ other ∈ subs, other.id = sub.id) ∧
      ∀ other ∈ subs, other.id = sub.id → other.status = .canceled
  | .upsert _ _ => True

theorem deletedIsOver_access {sub : Subscription} (h : DeletedIsOver subs (.deleted sub)) :
    ∀ other ∈ subs, decide (other.id = sub.id) = true →
      subscriptionAllowsAccess other.status = false := by
  intro other hother hid
  rw [h.2 other hother (of_decide_eq_true hid)]
  rfl

variable {c : Customer} {e : SubscriptionEvent}

/-- A timely event that settles the plan gives the one that is due. -/
theorem hasPlan_of_settles (hdeleted : DeletedIsOver c.subs e) (htimely : c.timely config e = true)
    (hsettles : e.settles config (duePlan config c.subs) = true) :
    HasPlan (handleEvent config c.subs c.user e).2 (duePlan config c.subs) := by
  unfold timely at htimely
  unfold SubscriptionEvent.settles at hsettles
  simp only [Bool.and_eq_true, Bool.or_eq_true, Bool.not_eq_true', decide_eq_true_eq,
    Option.isNone_iff_eq_none] at htimely hsettles
  obtain ⟨hgrants, hconsults⟩ := htimely
  cases e with
  | deleted sub =>
      have hconsult : SubscriptionEvent.consults (.deleted sub) = true := by
        cases hsettles with
        | inl hconsult => exact hconsult
        | inr hgrant => cases hgrant.1
      obtain ⟨hfound, huser⟩ := hconsults.resolve_left (by rw [hconsult]; decide)
      have hchange : sub.planChange = false := by simpa [SubscriptionEvent.consults] using hconsult
      show HasPlan (c.user.map _) _
      rw [hchange]
      exact hasPlan_settle hfound huser (deletedIsOver_access hdeleted)
  | upsert event sub =>
      cases hprice : sub.price with
      | none =>
          simp [SubscriptionEvent.consults, SubscriptionEvent.grants, hprice] at hsettles
      | some product =>
          cases hsettles with
          | inl hconsult =>
              obtain ⟨hfound, huser⟩ := hconsults.resolve_left (by rw [hconsult]; decide)
              have hdecision : decideSubscriptionUpsert event sub.status sub.planChange
                  sub.cancelAtPeriodEnd = .revokeInactiveSubscription := by
                simpa [SubscriptionEvent.consults, hprice] using hconsult
              simp only [handleEvent, handleUpsert, hprice, hdecision]
              exact hasPlan_settle hfound huser (fun _ _ h => by cases h)
          | inr hgrant =>
              obtain ⟨hgrant, hdue⟩ := hgrant
              obtain ⟨_, huser⟩ := hgrants.resolve_left (by rw [hgrant]; decide)
              simp only [SubscriptionEvent.grants, hprice, Bool.and_eq_true,
                decide_eq_true_eq] at hgrant
              obtain ⟨hdecision, hplan⟩ := hgrant
              obtain ⟨plan, hplan⟩ := Option.isSome_iff_exists.mp hplan
              obtain ⟨due, hdue⟩ := Option.isSome_iff_exists.mp hdue
              have hsame : plan = due :=
                (planTypeForProduct_eq hplan).trans (duePlan_eq hdue).symm
              have hsubscriber : ∃ user, subscriberFor event c.user = some user := by
                cases hu : c.user with
                | some user => exact ⟨user, rfl⟩
                | none =>
                    rw [hu] at huser
                    have hcreated := huser.resolve_left (by decide)
                    cases event with
                    | created => exact ⟨_, rfl⟩
                    | updated => cases hcreated
              obtain ⟨user, hsubscriber⟩ := hsubscriber
              simp only [handleEvent, handleUpsert, hprice, hdecision, hsubscriber,
                setupUserSubscription, hplan, hdue, hsame]
              exact ⟨rfl, rfl⟩

/-- Another timely event leaves the plan. -/
theorem hasPlan_of_not_settles (htimely : c.timely config e = true)
    (hsettles : e.settles config (duePlan config c.subs) = false)
    (h : HasPlan c.user (duePlan config c.subs)) :
    HasPlan (handleEvent config c.subs c.user e).2 (duePlan config c.subs) := by
  unfold timely at htimely
  unfold SubscriptionEvent.settles at hsettles
  simp only [Bool.and_eq_true, Bool.or_eq_true, Bool.not_eq_true', Bool.or_eq_false_iff,
    Bool.and_eq_false_iff] at htimely hsettles
  obtain ⟨hconsult, hgrant⟩ := hsettles
  have hgrants : e.grants config = false := by
    cases hg : e.grants config with
    | false => rfl
    | true =>
        have hdue := (htimely.1.resolve_left (by rw [hg]; decide)).1
        cases hgrant with
        | inl hno => rw [hg] at hno; exact hno
        | inr hno => rw [hdue] at hno; cases hno
  cases e with
  | deleted sub =>
      have hchange : sub.planChange = true := by simpa [SubscriptionEvent.consults] using hconsult
      show HasPlan (c.user.map _) _
      rw [hchange]
      cases hu : c.user with
      | none => rwa [hu] at h
      | some user => rwa [hu] at h
  | upsert event sub =>
      cases hprice : sub.price with
      | none =>
          simp only [handleEvent, handleUpsert, hprice]
          exact h
      | some product =>
          cases hdecision : decideSubscriptionUpsert event sub.status sub.planChange
              sub.cancelAtPeriodEnd with
          | revokeInactiveSubscription =>
              simp [SubscriptionEvent.consults, hprice, hdecision] at hconsult
          | applySubscription =>
              have hplan : planTypeFromProduct config (product.getD "") sub.created = none := by
                simpa [SubscriptionEvent.grants, hprice, hdecision] using hgrants
              cases hu : c.user with
              | some user =>
                  rw [hu] at h
                  simp only [handleEvent, handleUpsert, hprice, hdecision, subscriberFor,
                    setupUserSubscription, hplan]
                  exact h
              | none =>
                  rw [hu] at h
                  cases event with
                  | created =>
                      simp only [handleEvent, handleUpsert, hprice, hdecision, subscriberFor,
                        setupUserSubscription, hplan, if_true]
                      exact h
                  | updated =>
                      simp only [handleEvent, handleUpsert, hprice, hdecision, subscriberFor]
                      exact h
          | ignoreInactiveSubscription =>
              simp only [handleEvent, handleUpsert, hprice, hdecision]
              exact h
          | ignorePlanChangeUpdate =>
              simp only [handleEvent, handleUpsert, hprice, hdecision]
              exact h
          | ignoreCancelAtPeriodEndUpdate =>
              simp only [handleEvent, handleUpsert, hprice, hdecision]
              exact h

theorem mem_replace {sub other : Subscription} (h : other ∈ replace subs sub) :
    other = sub ∨ other ∈ subs ∧ other.id ≠ sub.id := by
  obtain ⟨old, hold, heq⟩ := List.mem_map.mp h
  by_cases hid : old.id = sub.id
  · rw [if_pos hid] at heq
    exact Or.inl heq.symm
  · rw [if_neg hid] at heq
    rw [← heq]
    exact Or.inr ⟨hold, hid⟩

theorem exists_replace {sub : Subscription} {id : String}
    (h : ∃ other ∈ subs, other.id = id) : ∃ other ∈ replace subs sub, other.id = id := by
  obtain ⟨other, hother, hid⟩ := h
  refine ⟨_, List.mem_map_of_mem hother, ?_⟩
  by_cases hsub : other.id = sub.id
  · rw [if_pos hsub, ← hsub]
    exact hid
  · rw [if_neg hsub]
    exact hid

/-- A subscription that was deleted stays over when another version replaces one. -/
theorem DeletedIsOver.replace {sub : Subscription} (h : DeletedIsOver subs e)
    (hover : (∀ old ∈ subs, old.id = sub.id → old.status = .canceled) →
      sub.status = .canceled) :
    DeletedIsOver (replace subs sub) e := by
  cases e with
  | upsert event other => trivial
  | deleted gone =>
      obtain ⟨hexists, hall⟩ := h
      refine ⟨exists_replace hexists, fun other hother hid => ?_⟩
      cases mem_replace hother with
      | inr hold => exact hall other hold.1 hid
      | inl heq =>
          rw [heq] at hid ⊢
          exact hover (fun old hold hsame => hall old hold (hsame.trans hid))

/-- The user has the plan that is due, or an event is to come that gives it. -/
structure Inv (config : StripeConfig) (c : Customer) : Prop where
  agree : HasPlan c.user (duePlan config c.subs) ∨
    ∃ i e, c.events[i]? = some e ∧ i ∉ c.delivered ∧ e.settles config (duePlan config c.subs) = true
  ended : ∀ e ∈ c.events, DeletedIsOver c.subs e
  bounded : ∀ i ∈ c.delivered, i < c.events.length

theorem inv_start (config : StripeConfig) (registered : Bool) : (start registered).Inv config := by
  refine ⟨Or.inl ?_, fun e he => (List.not_mem_nil he).elim, fun i hi => (List.not_mem_nil hi).elim⟩
  cases registered with
  | false => exact ⟨rfl, rfl⟩
  | true => exact ⟨rfl, rfl⟩

/-- A change of the subscriptions that is announced, if it is one of the plan that is due. -/
theorem Inv.change {subs' : List Subscription} (h : c.Inv config)
    (hdue : duePlan config subs' = duePlan config c.subs ∨
      e.settles config (duePlan config subs') = true)
    (hover : ∀ e' ∈ c.events ++ [e], DeletedIsOver subs' e') :
    Inv config { c with subs := subs', events := c.events ++ [e] } := by
  refine ⟨?_, hover, fun i hi => ?_⟩
  · cases hdue with
    | inr hsettles =>
        refine Or.inr ⟨c.events.length, e, List.getElem?_concat_length, fun hmem => ?_, hsettles⟩
        exact Nat.lt_irrefl _ (h.bounded _ hmem)
    | inl hsame =>
        cases h.agree with
        | inl hplan =>
            refine Or.inl ?_
            show HasPlan c.user (duePlan config subs')
            rw [hsame]
            exact hplan
        | inr hcoming =>
            obtain ⟨i, e', he, hnot, hsettles⟩ := hcoming
            have hlt : i < c.events.length := (List.getElem?_eq_some_iff.mp he).1
            refine Or.inr ⟨i, e', ?_, hnot, ?_⟩
            · show (c.events ++ [e])[i]? = some e'
              rw [List.getElem?_append_left hlt]
              exact he
            · show e'.settles config (duePlan config subs') = true
              rw [hsame]
              exact hsettles
  · have hlt := h.bounded i hi
    show i < (c.events ++ [e]).length
    rw [List.length_append]
    omega

theorem Inv.deliver {i : Nat} (h : c.Inv config) (he : c.events[i]? = some e)
    (htimely : c.timely config e = true) :
    Inv config { c with
      user := (handleEvent config c.subs c.user e).2
      delivered := i :: c.delivered } := by
  have hover := h.ended e (List.mem_of_getElem? he)
  refine ⟨?_, h.ended, fun j hj => ?_⟩
  · cases hsettles : e.settles config (duePlan config c.subs) with
    | true => exact Or.inl (hasPlan_of_settles hover htimely hsettles)
    | false =>
        cases h.agree with
        | inl hplan => exact Or.inl (hasPlan_of_not_settles htimely hsettles hplan)
        | inr hcoming =>
            obtain ⟨j, e', he', hnot, hsettles'⟩ := hcoming
            refine Or.inr ⟨j, e', he', fun hmem => ?_, hsettles'⟩
            cases List.mem_cons.mp hmem with
            | inr hmem => exact hnot hmem
            | inl heq =>
                rw [heq, he, Option.some.injEq] at he'
                rw [he', hsettles'] at hsettles
                cases hsettles
  · cases List.mem_cons.mp hj with
    | inl heq =>
        rw [heq]
        exact (List.getElem?_eq_some_iff.mp he).1
    | inr hj => exact h.bounded j hj

/-- A change announces itself by the last event. -/
theorem announces_spec {subs' : List Subscription} {action : CustomerAction}
    (hstep : c.step config action = some { c with subs := subs', events := c.events ++ [e] })
    (h : c.announces config action = true) :
    duePlan config subs' = duePlan config c.subs ∨
      e.settles config (duePlan config subs') = true := by
  unfold announces at h
  rw [hstep] at h
  simpa only [List.getLast?_concat, Option.any_some, Bool.or_eq_true, decide_eq_true_eq] using h

theorem Inv.step {next : Customer} {action : CustomerAction} (h : c.Inv config)
    (horderly : c.orderly config action = true) (hstep : c.step config action = some next) :
    next.Inv config := by
  cases action with
  | deliver i =>
      cases he : c.events[i]? with
      | none => simp [Customer.step, he] at hstep
      | some e =>
          simp only [Customer.step, he, Option.some.injEq] at hstep
          rw [← hstep]
          exact h.deliver he (by simpa [orderly, he] using horderly)
  | create sub =>
      have hstep' := hstep
      simp only [Customer.step, Option.ite_none_right_eq_some, Option.some.injEq] at hstep'
      obtain ⟨hfresh, hnext⟩ := hstep'
      rw [← hnext] at hstep ⊢
      refine h.change (announces_spec hstep horderly) (fun e' he' => ?_)
      cases List.mem_append.mp he' with
      | inr hnew =>
          rw [List.mem_singleton.mp hnew]
          trivial
      | inl hold =>
          have hover := h.ended e' hold
          cases e' with
          | upsert event other => trivial
          | deleted gone =>
              obtain ⟨⟨old, hmem, hid⟩, hall⟩ := hover
              refine ⟨⟨old, List.mem_cons_of_mem _ hmem, hid⟩, fun other hother hother' => ?_⟩
              cases List.mem_cons.mp hother with
              | inr hother => exact hall other hother hother'
              | inl heq =>
                  have hne := of_decide_eq_true (List.all_eq_true.mp hfresh old hmem)
                  rw [heq] at hother'
                  exact absurd (hid.trans hother'.symm) hne
  | update sub =>
      have hstep' := hstep
      cases hfind : c.subs.find? (·.id = sub.id) with
      | none => simp [Customer.step, hfind] at hstep'
      | some old =>
          simp only [Customer.step, hfind, Option.ite_none_right_eq_some,
            Option.some.injEq] at hstep'
          obtain ⟨⟨hstatus, _⟩, hnext⟩ := hstep'
          rw [← hnext] at hstep ⊢
          refine h.change (announces_spec hstep horderly) (fun e' he' => ?_)
          cases List.mem_append.mp he' with
          | inr hnew =>
              rw [List.mem_singleton.mp hnew]
              trivial
          | inl hold =>
              have hid : old.id = sub.id := by
                have hpred := List.find?_some hfind
                simpa using hpred
              exact (h.ended e' hold).replace (fun hall =>
                (iff_of_eq hstatus).mp (hall old (List.mem_of_find?_eq_some hfind) hid))
  | delete id =>
      have hstep' := hstep
      cases hfind : c.subs.find? (·.id = id) with
      | none => simp [Customer.step, hfind] at hstep'
      | some old =>
          simp only [Customer.step, hfind, Option.some.injEq] at hstep'
          rw [← hstep'] at hstep ⊢
          refine h.change (announces_spec hstep horderly) (fun e' he' => ?_)
          have hmem := List.mem_of_find?_eq_some hfind
          cases List.mem_append.mp he' with
          | inl hold => exact (h.ended e' hold).replace (fun _ => rfl)
          | inr hnew =>
              rw [List.mem_singleton.mp hnew]
              refine ⟨exists_replace ⟨old, hmem, rfl⟩, fun other hother hid => ?_⟩
              cases mem_replace hother with
              | inl heq => rw [heq]
              | inr hother => exact absurd hid hother.2

end Customer

end Events

/-- Where every change of the plan that is due has an event that settles it and events are
delivered while they are right, the user has the plan that is due once all are delivered. -/
theorem subscription_entitlement_converges {config : StripeConfig} {registered : Bool}
    {actions : List CustomerAction} {c : Customer}
    (hrun : Transition.run (Customer.step config) (Customer.start registered) actions = some c)
    (horderly : Transition.Meets (Customer.step config)
      (fun c action => c.orderly config action = true) (Customer.start registered) actions)
    (hdelivered : c.AllDelivered) : Customer.HasPlan c.user (duePlan config c.subs) := by
  have hinv : c.Inv config := Transition.run_invariant
    (fun _ _ _ h horderly hstep => h.step horderly hstep) (Customer.inv_start config registered)
    horderly hrun
  cases hinv.agree with
  | inl hplan => exact hplan
  | inr hcoming =>
      obtain ⟨i, e, he, hnot, _⟩ := hcoming
      exact absurd (hdelivered i (List.getElem?_eq_some_iff.mp he).1) hnot

/-! ## A subscription that begins and ends -/

namespace EntitlementExample

def config : StripeConfig where
  productKind product := if product = "prod_autopilot" then .autopilot else .unknown
  legacyCutoff := 0

def sub : Subscription where
  id := "sub_1"
  status := .active
  price := some (some "prod_autopilot")
  created := 1790000000
  planChange := false
  cancelAtPeriodEnd := false

def inOrder : List CustomerAction := [.create sub, .deliver 0, .delete "sub_1", .deliver 1]

/-- The event of its creation is delivered after that of its deletion. -/
def reordered : List CustomerAction := [.create sub, .delete "sub_1", .deliver 1, .deliver 0]

def reached (actions : List CustomerAction) : Customer :=
  Transition.final (Customer.step config) (Customer.start true) actions

instance (c : Customer) : Decidable c.AllDelivered := by
  unfold Customer.AllDelivered
  infer_instance

end EntitlementExample

open EntitlementExample in
theorem subscription_entitlement_converges_in_order :
    Customer.HasPlan (reached inOrder).user (duePlan config (reached inOrder).subs) :=
  subscription_entitlement_converges
    (show Transition.run (Customer.step config) (Customer.start true) inOrder =
      some (reached inOrder) from Transition.run_eq_final (by decide +kernel))
    (by decide +kernel) (by decide +kernel)

open EntitlementExample in
theorem not_subscription_entitlement_converges_reordered :
    ¬ ∀ (config : StripeConfig) (registered : Bool) (actions : List CustomerAction) (c : Customer),
      Transition.run (Customer.step config) (Customer.start registered) actions = some c →
        c.AllDelivered → Customer.HasPlan c.user (duePlan config c.subs) := by
  intro hlaw
  have hplan := hlaw config true reordered (reached reordered)
    (Transition.run_eq_final (by decide +kernel)) (by decide +kernel)
  have hnone : duePlan config (reached reordered).subs = none := by decide +kernel
  have hgranted : (reached reordered).user.bind (·.planType) = some "autopilot" := by
    decide +kernel
  have hfirst := hplan.1
  rw [hnone, hgranted] at hfirst
  cases hfirst

end Lightfriend.Billing
