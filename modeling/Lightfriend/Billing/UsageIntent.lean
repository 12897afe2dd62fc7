import Lightfriend.Billing.UsageOutbox
import Lightfriend.Core.Concurrent
import Lightfriend.Core.Transition

/-! # Usage intents

An intent is recorded before a billable action begins. It is finalized at most
once, in a transaction that also inserts its usage event, or abandoned. The row
lock of the transaction makes its reading and its writes one statement; the
insertion and the check of `begin_usage_intent` are two.
-/

namespace Lightfriend.Billing

/-! ## The rows -/

inductive IntentStatus
  | «open»
  | finalized
  | abandoned
deriving DecidableEq, Repr

structure BillingUsageIntent where
  transactionId : String
  userId : Int
  eventType : String
  status : IntentStatus
  createdAt : Int
  finalizedAt : Option Int
  lastError : Option String
deriving DecidableEq, Repr

abbrev IntentTable : Type := Table BillingUsageIntent String BillingUsageIntent.transactionId

namespace BillingUsageIntent

def begun (transactionId : String) (userId : Int) (eventType : String) (now : Int) :
    BillingUsageIntent where
  transactionId := transactionId
  userId := userId
  eventType := eventType
  status := .open
  createdAt := now
  finalizedAt := none
  lastError := none

def finalize (now : Int) (r : BillingUsageIntent) : BillingUsageIntent :=
  { r with status := .finalized, finalizedAt := some now, lastError := none }

def abandon (now : Int) (r : BillingUsageIntent) : BillingUsageIntent :=
  { r with status := .abandoned, finalizedAt := some now }

theorem finalize_transactionId (now : Int) (r : BillingUsageIntent) :
    (r.finalize now).transactionId = r.transactionId := rfl

theorem abandon_transactionId (now : Int) (r : BillingUsageIntent) :
    (r.abandon now).transactionId = r.transactionId := rfl

end BillingUsageIntent

/-! ## The calls -/

structure IntentStore where
  intents : IntentTable
  events : UsageTable
  /-- The finalizing transactions that did not roll back, the oldest first. No code reads it. -/
  finalizes : List (String × Int)

inductive IntentStatement
  | insertIntent (transactionId : String) (userId : Int) (eventType : String)
  | findIntent (transactionId : String)
  | finalize (transactionId : String) (costMicrousd occurredAt : Int)
  | abandon (transactionId : String)
deriving DecidableEq, Repr

abbrev IntentAnswer : IntentStatement → Type
  | .insertIntent _ _ _ => Bool
  | .findIntent _ => Option (Option BillingUsageIntent)
  | .finalize _ _ _ => Bool
  | .abandon _ => Bool

structure IntentInput where
  fate : StatementFate
  now : Int
deriving DecidableEq, Repr

namespace IntentStore

/-- The transaction of `finalize_usage_intent`; `none` rolls back. The table of the events takes
positive costs only. -/
def finalize (t : IntentStore) (transactionId : String) (costMicrousd occurredAt now : Int) :
    Option IntentStore :=
  match t.intents.find? transactionId with
  | none => none
  | some intent =>
      match intent.status with
      | .finalized => some { t with finalizes := t.finalizes ++ [(transactionId, costMicrousd)] }
      | .abandoned => none
      | .open =>
          if 0 < costMicrousd then
            some
              { intents := t.intents.updateWhere (fun r => r.transactionId = transactionId)
                  (BillingUsageIntent.finalize now) (BillingUsageIntent.finalize_transactionId now)
                events := t.events.insertOrIgnore (.enqueued transactionId intent.userId
                  intent.eventType costMicrousd occurredAt now)
                finalizes := t.finalizes ++ [(transactionId, costMicrousd)] }
          else none

def abandon (t : IntentStore) (transactionId : String) (now : Int) : IntentStore :=
  { t with
    intents := t.intents.updateWhere
      (fun r => r.transactionId = transactionId && r.status = .open)
      (BillingUsageIntent.abandon now) (BillingUsageIntent.abandon_transactionId now) }

def write (t : IntentStore) (now : Int) : IntentStatement → IntentStore
  | .insertIntent transactionId userId eventType =>
      { t with intents := t.intents.insertOrIgnore (.begun transactionId userId eventType now) }
  | .findIntent _ => t
  | .finalize transactionId costMicrousd occurredAt =>
      (t.finalize transactionId costMicrousd occurredAt now).getD t
  | .abandon transactionId => t.abandon transactionId now

def answer (t : IntentStore) (input : IntentInput) : (s : IntentStatement) → IntentAnswer s
  | .insertIntent _ _ _ => (input.fate.answer ()).isSome
  | .findIntent transactionId => input.fate.answer (t.intents.find? transactionId)
  | .finalize transactionId costMicrousd occurredAt =>
      (t.finalize transactionId costMicrousd occurredAt input.now).isSome &&
        (input.fate.answer ()).isSome
  | .abandon _ => (input.fate.answer ()).isSome

def exec : Exec IntentStatement IntentAnswer IntentInput IntentStore := fun s input t =>
  (input.fate.after t (t.write input.now s), t.answer input s)

end IntentStore

abbrev IntentProgram (ρ : Type) : Type := Program IntentStatement IntentAnswer ρ

def insertIntent (transactionId : String) (userId : Int) (eventType : String) :
    IntentProgram Bool :=
  .issue (.insertIntent transactionId userId eventType) .done

def findIntent (transactionId : String) : IntentProgram (Option (Option BillingUsageIntent)) :=
  .issue (.findIntent transactionId) .done

/-- The check that the stored intent is the caller's. -/
def checkIntent (userId : Int) (eventType : String) (intent : BillingUsageIntent) :
    Except String Unit :=
  if intent.userId ≠ userId ∨ intent.eventType ≠ eventType then .error "RollbackTransaction"
  else .ok ()

def beginUsageIntent (userId : Int) (eventType transactionId : String) :
    IntentProgram (Except String Unit) := do
  if ← insertIntent transactionId userId eventType then
    match ← findIntent transactionId with
    | some (some intent) => return checkIntent userId eventType intent
    | some none => return .error "NotFound"
    | none => return .error "DatabaseError"
  else return .error "DatabaseError"

def answered (ok : Bool) : Except String Unit := if ok then .ok () else .error "DatabaseError"

def finalizeUsageIntent (transactionId : String) (costMicrousd occurredAt : Int) :
    IntentProgram (Except String Unit) :=
  .issue (.finalize transactionId costMicrousd occurredAt) (fun ok => .done (answered ok))

def abandonUsageIntent (transactionId : String) : IntentProgram (Except String Unit) :=
  .issue (.abandon transactionId) (fun ok => .done (answered ok))

inductive IntentCall
  | begin (userId : Int) (eventType transactionId : String)
  | finalize (transactionId : String) (costMicrousd occurredAt : Int)
  | abandon (transactionId : String)
deriving DecidableEq, Repr

def IntentCall.program : IntentCall → IntentProgram (Except String Unit)
  | .begin userId eventType transactionId => beginUsageIntent userId eventType transactionId
  | .finalize transactionId costMicrousd occurredAt =>
      finalizeUsageIntent transactionId costMicrousd occurredAt
  | .abandon transactionId => abandonUsageIntent transactionId

/-! ## Intents and events agree -/

namespace IntentStore

variable {t : IntentStore} {transactionId : String}

/-- The cost of the first finalizing transaction that did not roll back. -/
def firstCost (t : IntentStore) (transactionId : String) : Option Int :=
  (t.finalizes.find? (fun f => f.1 = transactionId)).map Prod.snd

/-- An event is billed for a finalized intent, with its user, type and first cost, and for no
other. -/
structure IntentLaw (t : IntentStore) (transactionId : String) : Prop where
  billed : ∀ intent ∈ t.intents, intent.transactionId = transactionId →
    intent.status = .finalized → ∃ e ∈ t.events, e.transactionId = transactionId ∧
      (∀ e' ∈ t.events, e'.transactionId = transactionId → e' = e) ∧
        e.userId = intent.userId ∧ e.eventType = intent.eventType ∧
          t.firstCost transactionId = some e.costMicrousd
  unbilled : (∀ intent ∈ t.intents, intent.transactionId = transactionId →
    intent.status ≠ .finalized) → ∀ e ∈ t.events, e.transactionId ≠ transactionId

/-- What the law needs of the rows found under one transaction id. -/
def Agree (intent : Option BillingUsageIntent) (event : Option BillingUsageEvent)
    (cost : Option Int) : Prop :=
  match intent with
  | none => event = none ∧ cost = none
  | some i =>
      if i.status = .finalized then
        ∃ e, event = some e ∧ e.userId = i.userId ∧ e.eventType = i.eventType ∧
          cost = some e.costMicrousd
      else event = none ∧ cost = none

def Agrees (t : IntentStore) (transactionId : String) : Prop :=
  Agree (t.intents.find? transactionId) (t.events.find? transactionId) (t.firstCost transactionId)

theorem Agrees.law (h : t.Agrees transactionId) : t.IntentLaw transactionId := by
  have hfound : ∀ i ∈ t.intents, i.transactionId = transactionId →
      t.intents.find? transactionId = some i :=
    fun i hi hid => Table.find?_eq_some_iff.mpr ⟨hi, hid⟩
  constructor
  · intro i hi hid hstatus
    unfold Agrees at h
    rw [hfound i hi hid] at h
    simp only [Agree, hstatus, if_true] at h
    obtain ⟨e, hevent, huser, htype, hcost⟩ := h
    obtain ⟨he, heid⟩ := Table.find?_eq_some_iff.mp hevent
    refine ⟨e, he, heid, ?_, huser, htype, hcost⟩
    exact fun e' he' heid' => Table.eq_of_key_eq he' he (heid'.trans heid.symm)
  · intro hnone e he heid
    have hevent : t.events.find? transactionId = some e :=
      Table.find?_eq_some_iff.mpr ⟨he, heid⟩
    unfold Agrees at h
    rw [hevent] at h
    cases hintent : t.intents.find? transactionId with
    | none =>
        rw [hintent] at h
        cases h.1
    | some i =>
        have hi := Table.find?_eq_some_iff.mp hintent
        rw [hintent] at h
        simp only [Agree, if_neg (hnone i hi.1 hi.2)] at h
        cases h.1

theorem firstCost_append (transactionId : String) {t' : IntentStore} {id : String} {cost : Int}
    (h : t'.finalizes = t.finalizes ++ [(id, cost)]) :
    t'.firstCost transactionId = (t.firstCost transactionId).or
      (if id = transactionId then some cost else none) := by
  unfold firstCost
  rw [h, List.find?_append]
  cases t.finalizes.find? (fun f => f.1 = transactionId) with
  | some f => rfl
  | none =>
      by_cases heq : id = transactionId
      · simp [heq]
      · simp [heq]

theorem Agrees.insertIntent (h : t.Agrees transactionId) (row : BillingUsageIntent)
    (hopen : row.status = .open) :
    ({ t with intents := t.intents.insertOrIgnore row } : IntentStore).Agrees transactionId := by
  have hnew : row.status ≠ .finalized := by rw [hopen]; decide
  unfold Agrees at h ⊢
  simp only
  rw [Table.find?_insertOrIgnore]
  split
  · cases hintent : t.intents.find? transactionId with
    | none =>
        rw [hintent] at h
        simp only [Option.getD_none, Agree, if_neg hnew]
        exact h
    | some i =>
        rw [hintent] at h
        exact h
  · exact h

theorem Agrees.abandon (h : t.Agrees transactionId) (id : String) (now : Int) :
    (t.abandon id now).Agrees transactionId := by
  unfold Agrees at h ⊢
  simp only [IntentStore.abandon]
  rw [Table.find?_updateWhere]
  cases hintent : t.intents.find? transactionId with
  | none =>
      rw [hintent] at h
      exact h
  | some i =>
      rw [hintent] at h
      rw [Option.map_some]
      split
      next hmatch =>
        have hopen : i.status = .open := by simpa using (Bool.and_eq_true_iff.mp hmatch).2
        have hnone : i.status ≠ .finalized := by rw [hopen]; decide
        simp only [Agree, if_neg hnone] at h
        exact h
      next => exact h

/-- What a finalizing transaction leaves when it does not roll back. -/
theorem finalize_cases {id : String} {cost occurredAt now : Int} {t' : IntentStore}
    (h : t.finalize id cost occurredAt now = some t') :
    ∃ i, t.intents.find? id = some i ∧
      (i.status = .finalized ∧ t' = { t with finalizes := t.finalizes ++ [(id, cost)] } ∨
        i.status = .open ∧ t' =
          { intents := t.intents.updateWhere (fun r => r.transactionId = id)
              (BillingUsageIntent.finalize now) (BillingUsageIntent.finalize_transactionId now)
            events := t.events.insertOrIgnore
              (.enqueued id i.userId i.eventType cost occurredAt now)
            finalizes := t.finalizes ++ [(id, cost)] }) := by
  unfold IntentStore.finalize at h
  cases hintent : t.intents.find? id with
  | none =>
      rw [hintent] at h
      cases h
  | some i =>
      rw [hintent] at h
      refine ⟨i, rfl, ?_⟩
      cases hstatus : i.status with
      | finalized =>
          simp only [hstatus, Option.some.injEq] at h
          exact Or.inl ⟨rfl, h.symm⟩
      | abandoned =>
          simp only [hstatus] at h
          cases h
      | «open» =>
          simp only [hstatus, Option.ite_none_right_eq_some, Option.some.injEq] at h
          exact Or.inr ⟨rfl, h.2.symm⟩

theorem Agrees.finalize (h : t.Agrees transactionId) {id : String} {cost occurredAt now : Int}
    {t' : IntentStore} (hfinalize : t.finalize id cost occurredAt now = some t') :
    t'.Agrees transactionId := by
  obtain ⟨i, hintent, hcases⟩ := finalize_cases hfinalize
  have hfinalizes : t'.finalizes = t.finalizes ++ [(id, cost)] := by
    rcases hcases with ⟨_, rfl⟩ | ⟨_, rfl⟩ <;> rfl
  have hcost := firstCost_append transactionId hfinalizes
  unfold Agrees at h ⊢
  rw [hcost]
  by_cases heq : id = transactionId
  · subst heq
    rw [hintent] at h
    rw [if_pos rfl]
    rcases hcases with ⟨hstatus, rfl⟩ | ⟨hstatus, rfl⟩
    · simp only [Agree, hstatus, if_true] at h
      obtain ⟨e, hevent, huser, htype, hfirst⟩ := h
      simp only [hintent, Agree, hstatus, if_true]
      rw [hfirst]
      exact ⟨e, hevent, huser, htype, rfl⟩
    · have hopen : i.status ≠ .finalized := by rw [hstatus]; decide
      simp only [Agree, if_neg hopen] at h
      obtain ⟨hevent, hfirst⟩ := h
      simp only
      rw [Table.find?_updateWhere, hintent, Table.find?_insertOrIgnore, hevent, hfirst]
      have hid : i.transactionId = id := (Table.find?_eq_some_iff.mp hintent).2
      simp only [Option.map_some, hid, decide_true, if_true, Agree, BillingUsageIntent.finalize,
        BillingUsageEvent.enqueued, Option.getD_none, Option.none_or]
      exact ⟨_, rfl, rfl, rfl, rfl⟩
  · rw [if_neg heq, Option.or_none]
    rcases hcases with ⟨_, rfl⟩ | ⟨_, rfl⟩
    · exact h
    · have hintents : (t.intents.updateWhere (fun r => r.transactionId = id)
          (BillingUsageIntent.finalize now)
          (BillingUsageIntent.finalize_transactionId now)).find? transactionId =
            t.intents.find? transactionId := by
        rw [Table.find?_updateWhere]
        cases hother : t.intents.find? transactionId with
        | none => rfl
        | some other =>
            have hid := (Table.find?_eq_some_iff.mp hother).2
            have hne : other.transactionId ≠ id := fun h' => heq (h'.symm.trans hid)
            simp [hne]
      have hevents : (t.events.insertOrIgnore (.enqueued id i.userId i.eventType cost occurredAt
          now)).find? transactionId = t.events.find? transactionId := by
        rw [Table.find?_insertOrIgnore, BillingUsageEvent.enqueued, if_neg heq]
      simp only
      rw [hintents, hevents]
      exact h

theorem Agrees.write (h : t.Agrees transactionId) (now : Int) (s : IntentStatement) :
    (t.write now s).Agrees transactionId := by
  cases s with
  | insertIntent id userId eventType => exact h.insertIntent (.begun id userId eventType now) rfl
  | findIntent id => exact h
  | abandon id => exact h.abandon id now
  | finalize id cost occurredAt =>
      simp only [IntentStore.write]
      cases hfinalize : t.finalize id cost occurredAt now with
      | none => exact h
      | some t' => exact h.finalize hfinalize

/-- The intent is abandoned. -/
def IsAbandoned (t : IntentStore) (transactionId : String) : Prop :=
  ∃ i, t.intents.find? transactionId = some i ∧ i.status = .abandoned

theorem IsAbandoned.write (h : t.IsAbandoned transactionId) (now : Int) (s : IntentStatement) :
    (t.write now s).IsAbandoned transactionId := by
  obtain ⟨i, hintent, hstatus⟩ := h
  cases s with
  | insertIntent id userId eventType =>
      refine ⟨i, ?_, hstatus⟩
      simp only [IntentStore.write]
      rw [Table.find?_insertOrIgnore, hintent]
      split <;> rfl
  | findIntent id => exact ⟨i, hintent, hstatus⟩
  | abandon id =>
      refine ⟨i, ?_, hstatus⟩
      simp only [IntentStore.write, IntentStore.abandon]
      rw [Table.find?_updateWhere, hintent]
      simp [hstatus]
  | finalize id cost occurredAt =>
      simp only [IntentStore.write]
      cases hfinalize : t.finalize id cost occurredAt now with
      | none => exact ⟨i, hintent, hstatus⟩
      | some t' =>
          obtain ⟨other, hother, hcases⟩ := finalize_cases hfinalize
          rcases hcases with ⟨_, rfl⟩ | ⟨hopen, rfl⟩
          · exact ⟨i, hintent, hstatus⟩
          · have hne : i.transactionId ≠ id := by
              intro hid
              rw [← hid, (Table.find?_eq_some_iff.mp hintent).2, hintent] at hother
              cases hother
              rw [hopen] at hstatus
              cases hstatus
            refine ⟨i, ?_, hstatus⟩
            simp only [Option.getD_some]
            rw [Table.find?_updateWhere, hintent]
            simp [hne]

end IntentStore

/-! ## The rest of the outbox -/

/-- What else is written to the table of the events. -/
inductive OutboxUpdate
  | enqueue (event : BillingUsageEvent)
  | claim (transactionId : String) (now : Int)
  | markSent (transactionId : String) (now : Int)
  | markFailed (transactionId : String) (now previousAttempts : Int) (error : String)
deriving DecidableEq, Repr

namespace OutboxUpdate

def apply (events : UsageTable) : OutboxUpdate → UsageTable
  | enqueue event => events.insertOrIgnore event
  | claim transactionId now => events.claimUsage transactionId now
  | markSent transactionId now => events.markUsageSent transactionId now
  | markFailed transactionId now previousAttempts error =>
      events.markUsageFailed transactionId now previousAttempts error

def enqueues (transactionId : String) : OutboxUpdate → Bool
  | enqueue event => event.transactionId = transactionId
  | _ => false

/-- The columns that an intent has set. -/
def SameCharge (e e' : BillingUsageEvent) : Prop :=
  e'.userId = e.userId ∧ e'.eventType = e.eventType ∧ e'.costMicrousd = e.costMicrousd

theorem find?_updateWhere_same {events : UsageTable} {p : BillingUsageEvent → Bool}
    (set : BillingUsageEvent → BillingUsageEvent)
    (hkey : ∀ r, (set r).transactionId = r.transactionId) (hset : ∀ r, SameCharge r (set r)) (transactionId : String) :
    ∃ f : BillingUsageEvent → BillingUsageEvent, (∀ e, SameCharge e (f e)) ∧
      (events.updateWhere p set hkey).find? transactionId =
        (events.find? transactionId).map f := by
  refine ⟨fun r => if p r then set r else r, fun e => ?_, Table.find?_updateWhere⟩
  simp only
  split
  · exact hset e
  · exact ⟨rfl, rfl, rfl⟩

/-- Under an id that it does not enqueue, an update keeps the charge. -/
theorem find?_apply {u : OutboxUpdate} {transactionId : String}
    (h : u.enqueues transactionId = false) (events : UsageTable) :
    ∃ f : BillingUsageEvent → BillingUsageEvent, (∀ e, SameCharge e (f e)) ∧
      (u.apply events).find? transactionId = (events.find? transactionId).map f := by
  cases u with
  | enqueue event =>
      have hne : event.transactionId ≠ transactionId := of_decide_eq_false h
      refine ⟨id, fun _ => ⟨rfl, rfl, rfl⟩, ?_⟩
      rw [Option.map_id_fun, OutboxUpdate.apply, Table.find?_insertOrIgnore, if_neg hne]
      rfl
  | claim id now =>
      exact find?_updateWhere_same (BillingUsageEvent.claim now)
        (BillingUsageEvent.claim_transactionId now) (fun _ => ⟨rfl, rfl, rfl⟩) _
  | markSent id now =>
      exact find?_updateWhere_same (BillingUsageEvent.markSent now)
        (BillingUsageEvent.markSent_transactionId now) (fun _ => ⟨rfl, rfl, rfl⟩) _
  | markFailed id now previousAttempts error =>
      exact find?_updateWhere_same (BillingUsageEvent.markFailed now previousAttempts error)
        (BillingUsageEvent.markFailed_transactionId now previousAttempts error)
        (fun _ => ⟨rfl, rfl, rfl⟩) _

end OutboxUpdate

theorem IntentStore.Agrees.outbox {t : IntentStore} {transactionId : String} {u : OutboxUpdate}
    (h : t.Agrees transactionId) (hfree : u.enqueues transactionId = false) :
    ({ t with events := u.apply t.events } : IntentStore).Agrees transactionId := by
  obtain ⟨f, hsame, hfind⟩ := u.find?_apply hfree t.events
  unfold IntentStore.Agrees at h ⊢
  simp only
  rw [hfind]
  cases hintent : t.intents.find? transactionId with
  | none =>
      rw [hintent] at h
      exact ⟨by rw [h.1]; rfl, h.2⟩
  | some i =>
      rw [hintent] at h
      by_cases hstatus : i.status = .finalized
      · simp only [Agree, if_pos hstatus] at h ⊢
        obtain ⟨e, hevent, huser, htype, hcost⟩ := h
        obtain ⟨huser', htype', hcost'⟩ := hsame e
        refine ⟨f e, by rw [hevent]; rfl, huser'.trans huser, htype'.trans htype, ?_⟩
        rw [hcost', ← hcost]
        rfl
      · simp only [Agree, if_neg hstatus] at h ⊢
        exact ⟨by rw [h.1]; rfl, h.2⟩

/-! ## Every run -/

abbrev IntentState : Type :=
  Concurrent IntentStatement IntentAnswer IntentStore Unit (Except String Unit)

inductive IntentAction
  | call (c : IntentCall)
  | issue (i : Nat) (input : IntentInput)
  | outbox (u : OutboxUpdate)
deriving DecidableEq, Repr

namespace IntentState

def start : IntentState := ⟨⟨Table.empty, Table.empty, []⟩, []⟩

/-- Only intents use the transaction id. -/
def step (transactionId : String) (s : IntentState) : IntentAction → Option IntentState
  | .call c => some (Concurrent.start s () c.program)
  | .issue i input => Concurrent.issue (.free IntentStore.exec) s i input
  | .outbox u =>
      if u.enqueues transactionId then none
      else some { s with store := { s.store with events := u.apply s.store.events } }

variable {s next : IntentState} {a : IntentAction} {transactionId : String}

theorem agrees_step (h : s.store.Agrees transactionId)
    (hstep : s.step transactionId a = some next) : next.store.Agrees transactionId := by
  cases a with
  | call c =>
      cases hstep
      exact h
  | issue i input =>
      refine Concurrent.issue_store (IntentStore.Agrees · transactionId) hstep (fun stmt h => ?_) h
      exact input.fate.after_keeps (IntentStore.Agrees · transactionId) h (h.write input.now stmt)
  | outbox u =>
      simp only [IntentState.step, Option.ite_none_left_eq_some, Option.some.injEq] at hstep
      obtain ⟨hfree, rfl⟩ := hstep
      exact h.outbox (Bool.eq_false_iff.mpr hfree)

theorem abandoned_step (h : s.store.IsAbandoned transactionId)
    (hstep : s.step transactionId a = some next) : next.store.IsAbandoned transactionId := by
  cases a with
  | call c =>
      cases hstep
      exact h
  | issue i input =>
      refine Concurrent.issue_store (IntentStore.IsAbandoned · transactionId) hstep
        (fun stmt h => ?_) h
      exact input.fate.after_keeps (IntentStore.IsAbandoned · transactionId) h
        (h.write input.now stmt)
  | outbox u =>
      simp only [IntentState.step, Option.ite_none_left_eq_some, Option.some.injEq] at hstep
      obtain ⟨_, rfl⟩ := hstep
      exact h

end IntentState

namespace IntentExample

def done : IntentInput := ⟨.done, 100⟩

/-- Two finalizations of one intent, the first of which loses its answer. -/
def finalizedTwice : List IntentAction :=
  [.call (.begin 1 "voice" "t1"), .issue 0 done, .issue 0 done, .call (.finalize "t1" 500 90),
    .call (.finalize "t1" 700 91), .issue 1 ⟨.lost, 100⟩, .issue 2 done]

/-- It is abandoned after that. -/
def abandonedLater : List IntentAction := [.call (.abandon "t1"), .issue 3 done]

def reached (s : IntentState) (actions : List IntentAction) : IntentState :=
  Transition.final (IntentState.step "t1") s actions

end IntentExample

end Lightfriend.Billing
