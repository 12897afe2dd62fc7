import Lightfriend.Core.Concurrent
import Lightfriend.Core.Database
import Lightfriend.Core.Machine
import Lightfriend.Core.Transition

/-! # Rules that fire once

An evaluation of a one-shot rule claims it by completing it, and then may still
be refused. The scheduler starts evaluations of due rules, messages start those
of rules they match, and the end of a tick expires old rules beside the tasks
it has spawned.
-/

namespace Lightfriend.Proactive

/-! ## The rule -/

structure TriggerConfig where
  schedule : Option String
  pattern : Option String
  fireOnce : Bool
deriving DecidableEq, Repr

/-- The columns that no evaluation writes. -/
structure OntRule where
  userId : Int
  triggerType : String
  /-- `trigger_config`, when it can be read. -/
  triggerConfig : Option TriggerConfig
  logicType : String
  expiresAt : Option Int
  flowConfig : Option String
deriving DecidableEq, Repr

namespace OntRule

def trigger (rule : OntRule) : TriggerConfig := rule.triggerConfig.getD ⟨none, none, false⟩

def isOneShot (rule : OntRule) : Bool :=
  rule.trigger.schedule = some "once" || rule.trigger.fireOnce

def isAlwaysShow (rule : OntRule) : Bool := rule.logicType = "always_show"

/-- `now > expires`. -/
def expired (rule : OntRule) (now : Int) : Bool := rule.expiresAt.any (· < now)

end OntRule

structure RuleStore where
  status : String
  nextFireAt : Option Int
  lastTriggeredAt : Option Int
  clock : Int
  /-- How often the flow was evaluated, and whether a claim has neither evaluated it nor given the
  rule another status. No code reads these. -/
  evaluations : Nat
  owed : Bool
deriving DecidableEq, Repr

/-! ## The statements -/

inductive RuleStatement
  | getDue (now : Int)
  | getActive
  | updateNextFireAt (at' : Int)
  | checkMessageSeen
  | tryClaim
  | readClock
  | updateStatus (status : String)
  | tokensUsed
  | updateLastTriggered
  | evaluateFlow
  | expireOld (now : Int)
deriving DecidableEq, Repr

abbrev RuleAnswer : RuleStatement → Type
  | .tryClaim => Option Bool
  | .readClock => Int
  | .tokensUsed => Option Int
  | .updateNextFireAt _ => Unit
  | .updateStatus _ => Unit
  | .updateLastTriggered => Unit
  | .evaluateFlow => Unit
  | .expireOld _ => Unit
  | _ => Bool

structure RuleInput where
  fate : StatementFate
  /-- Whether the message matches the trigger, and whether the user has seen it. -/
  flag : Bool
  used : Option Int
deriving DecidableEq, Repr

namespace RuleStatement

variable (rule : OntRule)

def exec : Exec RuleStatement RuleAnswer RuleInput RuleStore := fun s input t =>
  match s with
  | getDue now =>
      (t, (input.fate.answer ()).isSome && rule.triggerType = "schedule" && t.status = "active" &&
        t.nextFireAt.any (· ≤ now))
  | getActive =>
      (t, (input.fate.answer ()).isSome && rule.triggerType = "ontology_change" &&
        t.status = "active" && input.flag)
  | updateNextFireAt at' => (input.fate.after t { t with nextFireAt := some at' }, ())
  | checkMessageSeen => (t, input.flag)
  | tryClaim =>
      if t.status = "active" then
        (input.fate.after t { t with status := "completed", owed := true },
          input.fate.answer true)
      else (t, input.fate.answer false)
  | readClock => (t, t.clock)
  | updateStatus status => (input.fate.after t { t with status := status, owed := false }, ())
  | tokensUsed => (t, input.used)
  | updateLastTriggered => (input.fate.after t { t with lastTriggeredAt := some t.clock }, ())
  | evaluateFlow => ({ t with evaluations := t.evaluations + 1, owed := false }, ())
  | expireOld now =>
      (if t.status = "active" && rule.expiresAt.any (· ≤ now) then
        input.fate.after t { t with status := "expired" } else t, ())

/-- The evaluation of a claimed rule is refused, and the rule stays completed. -/
def spoils (t : RuleStore) (input : RuleInput) : RuleStatement → Bool
  | tryClaim => t.status = "active" && input.fate = .lost
  | updateStatus _ => input.fate = .refused
  | tokensUsed => !rule.isAlwaysShow && 166000 ≤ input.used.getD 0
  | _ => false

end RuleStatement

/-! ## The evaluation -/

abbrev RuleProgram (ρ : Type) : Type := Program RuleStatement RuleAnswer ρ

section Evaluation

variable (rule : OntRule) (parses : String → Bool)

/-- `flow_config` is there and is a flow. -/
def OntRule.hasFlow : Bool := rule.flowConfig.any parses

def runFlow : RuleProgram Unit :=
  .issue .updateLastTriggered (fun _ =>
    if rule.hasFlow parses then .issue .evaluateFlow .done else .done ())

def checkBudget : RuleProgram Unit :=
  .issue .tokensUsed (fun used =>
    if !rule.isAlwaysShow && 166000 ≤ used.getD 0 then .done () else runFlow rule parses)

def checkExpiry : RuleProgram Unit :=
  .issue .readClock (fun now =>
    if rule.expired now then .issue (.updateStatus "expired") .done else checkBudget rule parses)

def evaluateAndExecute : RuleProgram Unit :=
  if rule.isOneShot then
    .issue .tryClaim (fun claimed =>
      match claimed with
      | some true => checkExpiry rule parses
      | some false => .done ()
      | none => .done ())
  else checkExpiry rule parses

/-- A one-shot rule is not due again. -/
def fireOnce : RuleProgram Unit :=
  if rule.isOneShot then
    .issue (.updateNextFireAt i32Max) (fun _ => evaluateAndExecute rule parses)
  else evaluateAndExecute rule parses

/-- The time of the next occurrence, where `compute_next_fire_at` finds `next`. -/
def OntRule.reschedule (next : Option Int) : Option Int :=
  if rule.trigger.schedule = some "recurring" then rule.trigger.pattern.bind (fun _ => next)
  else none

/-- What the scheduler does with the rule when it is due. -/
def fireDue (now : Int) (next : Option Int) : RuleProgram Unit :=
  .issue (.getDue now) (fun due =>
    if due then
      match rule.reschedule next with
      | some at' => .issue (.updateNextFireAt at') (fun _ => fireOnce rule parses)
      | none => fireOnce rule parses
    else .done ())

/-- A message that matches the rule, after the delay, unless the user has seen it. -/
def onMessage (isMessage : Bool) : RuleProgram Unit :=
  .issue .getActive (fun matched =>
    if matched then
      if isMessage && !rule.isAlwaysShow then
        .issue .checkMessageSeen (fun seen =>
          if seen then .done () else evaluateAndExecute rule parses)
      else evaluateAndExecute rule parses
    else .done ())

def expireOldRules (now : Int) : RuleProgram Unit := .issue (.expireOld now) .done

end Evaluation

/-! ## What an evaluation knows -/

inductive RuleKnown
  | idle
  /-- It has claimed the rule, and neither evaluated nor refused it. -/
  | claimed
  /-- Its evaluation was refused, and the rule stays as it was claimed. -/
  | refused
deriving DecidableEq, Repr

namespace RuleKnown

variable (rule : OntRule)

def next (k : RuleKnown) (s : RuleStatement) (input : RuleInput) (t : RuleStore) : RuleKnown :=
  if s.spoils rule t input then refused
  else
    match s with
    | .tryClaim => if (RuleStatement.exec rule .tryClaim input t).2 = some true then claimed else k
    | .updateStatus _ => idle
    | .evaluateFlow => idle
    | _ => k

/-- Only a claimant evaluates the flow or gives the rule a status. -/
def allows (k : RuleKnown) : RuleStatement → Prop
  | .tryClaim => k = idle
  | .updateStatus status => k = claimed ∧ status ≠ "active" ∧ status ≠ "completed"
  | .evaluateFlow => k = claimed
  | _ => True

def Apart (k k' : RuleKnown) : Prop := k = claimed → k' ≠ claimed

theorem Apart.symm {k k' : RuleKnown} (h : Apart k k') : Apart k' k := fun hk' hk => h hk hk'

end RuleKnown

def ruleProtocol (rule : OntRule) : Protocol (RuleStatement.exec rule) RuleKnown where
  allows := RuleKnown.allows
  admits _ := True
  next := RuleKnown.next rule

/-- Where the flow can be read, no claim is left behind. -/
def RuleKnown.Settled (rule : OntRule) (parses : String → Bool) (k : RuleKnown) (_ : Unit) : Prop :=
  rule.hasFlow parses = true → k ≠ .claimed

section Obeys

variable {rule : OntRule} {parses : String → Bool}

abbrev RuleObeys (rule : OntRule) (parses : String → Bool) (k : RuleKnown) (p : RuleProgram Unit) :
    Prop := (ruleProtocol rule).Obeys (RuleKnown.Settled rule parses) k p

theorem obeys_runFlow : RuleObeys rule parses .claimed (runFlow rule parses) := by
  refine ⟨trivial, fun input t _ => ?_⟩
  change RuleObeys rule parses .claimed
    (if rule.hasFlow parses then .issue .evaluateFlow .done else .done ())
  split
  · exact ⟨rfl, fun _ _ _ _ hk => by cases hk⟩
  next hflow => exact fun h => absurd h hflow

theorem obeys_checkBudget : RuleObeys rule parses .claimed (checkBudget rule parses) := by
  refine ⟨trivial, fun input t _ => ?_⟩
  change RuleObeys rule parses
    (if (!rule.isAlwaysShow && 166000 ≤ input.used.getD 0) then .refused else .claimed)
    (if !rule.isAlwaysShow && 166000 ≤ input.used.getD 0 then .done () else runFlow rule parses)
  split
  · exact fun _ hk => by cases hk
  · exact obeys_runFlow

theorem obeys_checkExpiry : RuleObeys rule parses .claimed (checkExpiry rule parses) := by
  refine ⟨trivial, fun input t _ => ?_⟩
  change RuleObeys rule parses .claimed
    (if rule.expired t.clock then .issue (.updateStatus "expired") .done
      else checkBudget rule parses)
  split
  · refine ⟨⟨rfl, by decide, by decide⟩, fun input t _ _ => ?_⟩
    change (if RuleStatement.spoils rule t input (.updateStatus "expired") then
      RuleKnown.refused else .idle) ≠ .claimed
    split
    · exact fun hk => by cases hk
    · exact fun hk => by cases hk
  · exact obeys_checkBudget

theorem tryClaim_spec {input : RuleInput} {t : RuleStore}
    (h : (RuleStatement.exec rule .tryClaim input t).2 = some true) :
    t.status = "active" ∧ input.fate = .done := by
  simp only [RuleStatement.exec] at h
  split at h
  next hactive => exact ⟨hactive, (StatementFate.answer_eq_some h).1⟩
  next => cases (StatementFate.answer_eq_some h).2

/-- Only the winner of the claim knows it. -/
theorem next_tryClaim (rule : OntRule) (input : RuleInput) (t : RuleStore) :
    RuleKnown.next rule .idle .tryClaim input t = .claimed ↔
      (RuleStatement.exec rule .tryClaim input t).2 = some true := by
  constructor
  · intro h
    by_contra hanswer
    simp only [RuleKnown.next, if_neg hanswer] at h
    split at h
    · cases h
    · cases h
  · intro h
    have hkept : RuleStatement.spoils rule t input .tryClaim = false := by
      simp [RuleStatement.spoils, (tryClaim_spec h).2]
    rw [RuleKnown.next, hkept]
    exact if_pos h

theorem obeys_evaluateAndExecute (hshot : rule.isOneShot = true) :
    RuleObeys rule parses .idle (evaluateAndExecute rule parses) := by
  rw [evaluateAndExecute, if_pos hshot]
  refine ⟨rfl, fun input t _ => ?_⟩
  have hiff := next_tryClaim rule input t
  change RuleObeys rule parses (RuleKnown.next rule .idle .tryClaim input t)
    (match (RuleStatement.exec rule .tryClaim input t).2 with
      | some true => checkExpiry rule parses
      | some false => .done ()
      | none => .done ())
  cases hanswer : (RuleStatement.exec rule .tryClaim input t).2 with
  | none => exact fun _ hk => by cases (hiff.mp hk).symm.trans hanswer
  | some claimed =>
      cases claimed with
      | false => exact fun _ hk => by cases (hiff.mp hk).symm.trans hanswer
      | true =>
          rw [hiff.mpr hanswer]
          exact obeys_checkExpiry

theorem obeys_fireOnce (hshot : rule.isOneShot = true) :
    RuleObeys rule parses .idle (fireOnce rule parses) := by
  rw [fireOnce, if_pos hshot]
  exact ⟨trivial, fun _ _ _ => obeys_evaluateAndExecute hshot⟩

theorem obeys_fireDue (hshot : rule.isOneShot = true) (now : Int) (next : Option Int) :
    RuleObeys rule parses .idle (fireDue rule parses now next) := by
  refine ⟨trivial, fun input t _ => ?_⟩
  change RuleObeys rule parses .idle
    (if (RuleStatement.exec rule (.getDue now) input t).2 then
      match rule.reschedule next with
      | some at' => .issue (.updateNextFireAt at') (fun _ => fireOnce rule parses)
      | none => fireOnce rule parses
    else .done ())
  split
  · split
    · exact ⟨trivial, fun _ _ _ => obeys_fireOnce hshot⟩
    · exact obeys_fireOnce hshot
  · exact fun _ hk => by cases hk

theorem obeys_onMessage (hshot : rule.isOneShot = true) (isMessage : Bool) :
    RuleObeys rule parses .idle (onMessage rule parses isMessage) := by
  refine ⟨trivial, fun input t _ => ?_⟩
  change RuleObeys rule parses .idle
    (if (RuleStatement.exec rule .getActive input t).2 then
      if isMessage && !rule.isAlwaysShow then
        .issue .checkMessageSeen (fun seen =>
          if seen then .done () else evaluateAndExecute rule parses)
      else evaluateAndExecute rule parses
    else .done ())
  split
  · split
    · refine ⟨trivial, fun input t _ => ?_⟩
      change RuleObeys rule parses .idle
        (if input.flag then .done () else evaluateAndExecute rule parses)
      split
      · exact fun _ hk => by cases hk
      · exact obeys_evaluateAndExecute hshot
    · exact obeys_evaluateAndExecute hshot
  · exact fun _ hk => by cases hk

theorem obeys_expireOldRules (now : Int) :
    RuleObeys rule parses .idle (expireOldRules now) :=
  ⟨trivial, fun _ _ _ _ hk => by cases hk⟩

end Obeys

/-! ## What the rule keeps -/

namespace RuleStore

variable {rule : OntRule} {t : RuleStore} {k k' : RuleKnown} {stmt : RuleStatement}
  {input : RuleInput}

structure Kept (t : RuleStore) : Prop where
  once : t.evaluations ≤ 1
  active : t.status = "active" → t.evaluations = 0 ∧ t.owed = false
  owed : t.owed = true → t.evaluations = 0

/-- A completed rule was evaluated, or a claim owes it. -/
def Accounted (t : RuleStore) : Prop :=
  t.status = "completed" → t.evaluations = 1 ∨ t.owed = true

def Fits (k : RuleKnown) (t : RuleStore) : Prop := k = .claimed → t.owed = true

/-- A claim that is owed keeps the rule from being active. -/
theorem Kept.not_active (h : t.Kept) (howed : t.owed = true) : t.status ≠ "active" := by
  intro hactive
  rw [(h.active hactive).2] at howed
  cases howed

theorem Kept.exec (h : t.Kept) (hallows : k.allows stmt) (hfits : Fits k t) :
    (RuleStatement.exec rule stmt input t).1.Kept := by
  have hafter : ∀ written : RuleStore, written.Kept → (input.fate.after t written).Kept :=
    fun _ hwritten => input.fate.after_keeps RuleStore.Kept h hwritten
  cases stmt with
  | tryClaim =>
      simp only [RuleStatement.exec]
      split
      next hactive =>
        obtain ⟨hzero, _⟩ := h.active hactive
        refine hafter _ ⟨h.once, fun hstatus => ?_, fun _ => hzero⟩
        exact absurd hstatus (show "completed" ≠ "active" by decide)
      next => exact h
  | updateStatus status =>
      obtain ⟨_, hstatus, _⟩ := hallows
      exact hafter _ ⟨h.once, fun heq => absurd heq hstatus, fun howed => by cases howed⟩
  | evaluateFlow =>
      have howed := hfits hallows
      have hzero := h.owed howed
      refine ⟨?_, fun hactive => absurd hactive (h.not_active howed), fun howed => by cases howed⟩
      change t.evaluations + 1 ≤ 1
      omega
  | expireOld now =>
      simp only [RuleStatement.exec]
      split
      next hmatch =>
        have hactive : t.status = "active" := of_decide_eq_true (Bool.and_eq_true_iff.mp hmatch).1
        obtain ⟨hzero, _⟩ := h.active hactive
        refine hafter _ ⟨h.once, fun heq => ?_, fun _ => hzero⟩
        exact absurd heq (show "expired" ≠ "active" by decide)
      next => exact h
  | updateNextFireAt at' => exact hafter _ ⟨h.once, h.active, h.owed⟩
  | updateLastTriggered => exact hafter _ ⟨h.once, h.active, h.owed⟩
  | getDue now => exact h
  | getActive => exact h
  | checkMessageSeen => exact h
  | readClock => exact h
  | tokensUsed => exact h

/-- A rule is left completed by a claim or an evaluation alone. -/
theorem Accounted.exec (h : t.Accounted) (hkept : t.Kept) (hallows : k.allows stmt)
    (hfits : Fits k t) : (RuleStatement.exec rule stmt input t).1.Accounted := by
  have hafter : ∀ written : RuleStore, written.Accounted →
      (input.fate.after t written).Accounted :=
    fun _ hwritten => input.fate.after_keeps RuleStore.Accounted h hwritten
  cases stmt with
  | tryClaim =>
      simp only [RuleStatement.exec]
      split
      · exact hafter _ (fun _ => Or.inr rfl)
      · exact h
  | updateStatus status =>
      obtain ⟨_, _, hstatus⟩ := hallows
      exact hafter _ (fun heq => absurd heq hstatus)
  | evaluateFlow =>
      have hzero := hkept.owed (hfits hallows)
      refine fun _ => Or.inl ?_
      change t.evaluations + 1 = 1
      omega
  | expireOld now =>
      simp only [RuleStatement.exec]
      split
      · exact hafter _ (fun heq => absurd heq (show "expired" ≠ "completed" by decide))
      · exact h
  | updateNextFireAt at' => exact hafter _ h
  | updateLastTriggered => exact hafter _ h
  | getDue now => exact h
  | getActive => exact h
  | checkMessageSeen => exact h
  | readClock => exact h
  | tokensUsed => exact h

/-- Only its claimant settles what is owed. -/
theorem owed_exec (hallows : k.allows stmt) (hk : k ≠ .claimed) (howed : t.owed = true) :
    (RuleStatement.exec rule stmt input t).1.owed = true := by
  have hafter : ∀ written : RuleStore, written.owed = true →
      (input.fate.after t written).owed = true :=
    fun _ hwritten => input.fate.after_keeps (fun u : RuleStore => u.owed = true) howed hwritten
  cases stmt with
  | tryClaim =>
      simp only [RuleStatement.exec]
      split
      · exact hafter _ rfl
      · exact howed
  | updateStatus status => exact absurd hallows.1 hk
  | evaluateFlow => exact absurd hallows hk
  | expireOld now =>
      simp only [RuleStatement.exec]
      split
      · exact hafter _ howed
      · exact howed
  | updateNextFireAt at' => exact hafter _ howed
  | updateLastTriggered => exact hafter _ howed
  | getDue now => exact howed
  | getActive => exact howed
  | checkMessageSeen => exact howed
  | readClock => exact howed
  | tokensUsed => exact howed

/-- A statement after which the issuer has a claim was its claim, or leaves the claim it had. -/
theorem next_claimed (h : RuleKnown.next rule k stmt input t = .claimed) :
    (stmt = .tryClaim ∧ (RuleStatement.exec rule .tryClaim input t).2 = some true) ∨
      (k = .claimed ∧ stmt ≠ .evaluateFlow ∧ ∀ status, stmt ≠ .updateStatus status) := by
  unfold RuleKnown.next at h
  split at h
  · cases h
  · cases stmt with
    | tryClaim =>
        by_cases hanswer : (RuleStatement.exec rule .tryClaim input t).2 = some true
        · exact Or.inl ⟨rfl, hanswer⟩
        · simp only [if_neg hanswer] at h
          exact Or.inr ⟨h, by simp, by simp⟩
    | updateStatus status => cases h
    | evaluateFlow => cases h
    | _ => exact Or.inr ⟨h, by simp, by simp⟩

/-- The writes that a claimant makes without settling its claim leave it owed. -/
theorem owed_exec_of_ne (howed : t.owed = true) (hflow : stmt ≠ .evaluateFlow)
    (hstatus : ∀ status, stmt ≠ .updateStatus status) :
    (RuleStatement.exec rule stmt input t).1.owed = true := by
  refine owed_exec (k := .idle) ?_ (by simp) howed
  cases stmt with
  | updateStatus status => exact absurd rfl (hstatus status)
  | evaluateFlow => exact absurd rfl hflow
  | tryClaim => rfl
  | _ => trivial

theorem Fits.next (h : Fits k t) :
    Fits (RuleKnown.next rule k stmt input t) (RuleStatement.exec rule stmt input t).1 := by
  intro hnext
  rcases next_claimed hnext with ⟨rfl, hanswer⟩ | ⟨hk, hflow, hstatus⟩
  · obtain ⟨hactive, hdone⟩ := tryClaim_spec hanswer
    simp [RuleStatement.exec, hactive, hdone, StatementFate.after]
  · exact owed_exec_of_ne (h hk) hflow hstatus

theorem Fits.exec (h : Fits k' t) (hallows : k.allows stmt) (hapart : RuleKnown.Apart k k') :
    Fits k' (RuleStatement.exec rule stmt input t).1 := by
  intro hk'
  exact owed_exec hallows (fun hk => hapart hk hk') (h hk')

theorem Kept.apart_next (hkept : t.Kept) (hapart : RuleKnown.Apart k k') (h : Fits k' t) :
    RuleKnown.Apart (RuleKnown.next rule k stmt input t) k' := by
  intro hnext hk'
  rcases next_claimed hnext with ⟨rfl, hanswer⟩ | ⟨hk, _⟩
  · exact hkept.not_active (h hk') (tryClaim_spec hanswer).1
  · exact hapart hk hk'

/-! ### Claims that are kept -/

theorem owed_before (h : (RuleStatement.exec rule stmt input t).1.owed = true) :
    t.owed = true ∨ (stmt = .tryClaim ∧ t.status = "active" ∧ input.fate ≠ .refused) := by
  have hafter : ∀ written : RuleStore, (input.fate.after t written).owed = true →
      t.owed = true ∨ (written.owed = true ∧ input.fate ≠ .refused) := by
    intro written hwritten
    cases hfate : input.fate with
    | refused =>
        rw [hfate] at hwritten
        exact Or.inl hwritten
    | done =>
        rw [hfate] at hwritten
        exact Or.inr ⟨hwritten, by simp⟩
    | lost =>
        rw [hfate] at hwritten
        exact Or.inr ⟨hwritten, by simp⟩
  cases stmt with
  | tryClaim =>
      simp only [RuleStatement.exec] at h
      split at h
      next hactive =>
        rcases hafter _ h with howed | ⟨_, hfate⟩
        · exact Or.inl howed
        · exact Or.inr ⟨rfl, hactive, hfate⟩
      next => exact Or.inl h
  | updateStatus status =>
      rcases hafter _ h with howed | ⟨howed, _⟩
      · exact Or.inl howed
      · cases howed
  | evaluateFlow => cases h
  | expireOld now =>
      simp only [RuleStatement.exec] at h
      split at h
      · rcases hafter _ h with howed | ⟨howed, _⟩
        · exact Or.inl howed
        · exact Or.inl howed
      · exact Or.inl h
  | updateNextFireAt at' =>
      rcases hafter _ h with howed | ⟨howed, _⟩
      · exact Or.inl howed
      · exact Or.inl howed
  | updateLastTriggered =>
      rcases hafter _ h with howed | ⟨howed, _⟩
      · exact Or.inl howed
      · exact Or.inl howed
  | getDue now => exact Or.inl h
  | getActive => exact Or.inl h
  | checkMessageSeen => exact Or.inl h
  | readClock => exact Or.inl h
  | tokensUsed => exact Or.inl h

/-- What is owed after a statement that spoils nothing, its issuer owes if nobody else does. -/
theorem next_of_owed (hspoils : stmt.spoils rule t input = false)
    (howed : (RuleStatement.exec rule stmt input t).1.owed = true)
    (hk : t.owed = true → k = .claimed) : RuleKnown.next rule k stmt input t = .claimed := by
  unfold RuleKnown.next
  rw [if_neg (by rw [hspoils]; exact Bool.false_ne_true)]
  rcases owed_before howed with hbefore | ⟨rfl, hactive, hfate⟩
  · rw [hk hbefore]
    cases stmt with
    | tryClaim => exact ite_self RuleKnown.claimed
    | updateStatus status =>
        cases hfate : input.fate with
        | refused => simp [RuleStatement.spoils, hfate] at hspoils
        | done => simp [RuleStatement.exec, hfate, StatementFate.after] at howed
        | lost => simp [RuleStatement.exec, hfate, StatementFate.after] at howed
    | evaluateFlow => cases howed
    | _ => rfl
  · have hanswer : (RuleStatement.exec rule .tryClaim input t).2 = some true := by
      cases hfate' : input.fate with
      | refused => exact absurd hfate' hfate
      | lost => simp [RuleStatement.spoils, hactive, hfate'] at hspoils
      | done => simp [RuleStatement.exec, hactive, hfate', StatementFate.answer]
    exact if_pos hanswer

end RuleStore

/-! ## Every run -/

abbrev RuleState : Type := Concurrent RuleStatement RuleAnswer RuleStore RuleKnown Unit

inductive RuleAction
  | wait (seconds : Nat)
  /-- A tick of the scheduler looks at the rule. -/
  | fireDue (next : Option Int)
  /-- A message of the user, or another change, is looked at. -/
  | onMessage (isMessage : Bool)
  /-- The end of the tick that began at `now`. -/
  | expireOld (now : Int)
  | issue (i : Nat) (input : RuleInput)
deriving DecidableEq, Repr

namespace RuleState

variable (rule : OntRule) (parses : String → Bool)

def start (nextFireAt : Option Int) (clock : Int) : RuleState where
  store :=
    { status := "active"
      nextFireAt := nextFireAt
      lastTriggeredAt := none
      clock := clock
      evaluations := 0
      owed := false }
  running := []

def step (s : RuleState) : RuleAction → Option RuleState
  | .wait seconds => some { s with store := { s.store with clock := s.store.clock + seconds } }
  | .fireDue next => some (Concurrent.start s .idle (fireDue rule parses s.store.clock next))
  | .onMessage isMessage => some (Concurrent.start s .idle (onMessage rule parses isMessage))
  | .expireOld now =>
      if now ≤ s.store.clock then some (Concurrent.start s .idle (expireOldRules now)) else none
  | .issue i input => Concurrent.issue (ruleProtocol rule) s i input

/-- No evaluation that has claimed the rule is refused without another status. -/
def spoilsNothing (s : RuleState) : RuleAction → Bool
  | .issue i input => s.nextMeets (fun _ stmt => !stmt.spoils rule s.store input) i
  | _ => true

structure Inv (s : RuleState) : Prop where
  sound : s.Sound (ruleProtocol rule) RuleStore.Kept RuleStore.Fits
  apart : s.Apart RuleKnown.Apart
  ends : s.Ends (ruleProtocol rule) (RuleKnown.Settled rule parses)
  accounted : s.store.Accounted

/-- What is owed, somebody has claimed. -/
def Owed (s : RuleState) : Prop :=
  s.store.owed = true → ∃ r ∈ s.running, r.known = .claimed

variable {rule : OntRule} {parses : String → Bool} {s next : RuleState} {a : RuleAction}

theorem Inv.begin (h : s.Inv rule parses) {program : RuleProgram Unit}
    (hobeys : RuleObeys rule parses .idle program) :
    Inv rule parses (Concurrent.start s .idle program) := by
  refine ⟨h.sound.start (fun hk => by cases hk) (hobeys.weaken (fun _ _ _ => trivial)),
    h.apart.start (fun _ _ hapart => hapart.symm) (fun _ _ hk => by cases hk),
    h.ends.start hobeys, h.accounted⟩

theorem Owed.begin (h : s.Owed) (program : RuleProgram Unit) :
    Owed (Concurrent.start s .idle program) := by
  intro howed
  obtain ⟨r, hr, hclaimed⟩ := h howed
  exact ⟨r, List.mem_append_left _ hr, hclaimed⟩

theorem Inv.step (h : s.Inv rule parses) (hshot : rule.isOneShot = true)
    (hstep : s.step rule parses a = some next) : next.Inv rule parses := by
  have hkept := h.sound.store
  cases a with
  | wait seconds =>
      cases hstep
      exact ⟨⟨⟨hkept.once, hkept.active, hkept.owed⟩, h.sound.fits, h.sound.obeys⟩, h.apart,
        h.ends, h.accounted⟩
  | fireDue next =>
      cases hstep
      exact h.begin (obeys_fireDue hshot _ next)
  | onMessage isMessage =>
      cases hstep
      exact h.begin (obeys_onMessage hshot isMessage)
  | expireOld now =>
      simp only [RuleState.step, Option.ite_none_right_eq_some, Option.some.injEq] at hstep
      obtain ⟨_, rfl⟩ := hstep
      exact h.begin (obeys_expireOldRules now)
  | issue i input =>
      have hissue : s.issue (ruleProtocol rule) i input = some next := hstep
      obtain ⟨hsound, hapart⟩ := h.sound.issue_apart h.apart (fun _ _ hapart => hapart.symm)
        trivial (Concurrent.nextMeets_true s i)
        (fun _ _ hallows _ hfits => hkept.exec hallows hfits) (fun _ _ _ _ hfits => hfits.next)
        (fun _ _ _ hallows _ hapart _ hfits' => hfits'.exec hallows hapart)
        (fun _ _ _ _ hapart _ hfits' => hkept.apart_next hapart hfits') hissue
      refine ⟨hsound, hapart, h.ends.issue trivial hissue, ?_⟩
      obtain ⟨r, stmt, rest, hr, hprogram, rfl⟩ := Concurrent.issue_spec hissue
      have hmem : r ∈ s.running := List.mem_of_getElem? hr
      have hobeys := h.sound.obeys r hmem
      rw [hprogram] at hobeys
      exact h.accounted.exec hkept hobeys.1 (h.sound.fits r hmem)

theorem Owed.step (h : s.Owed) (hspoils : s.spoilsNothing rule a = true)
    (hstep : s.step rule parses a = some next) : next.Owed := by
  cases a with
  | wait seconds =>
      cases hstep
      exact h
  | fireDue next =>
      cases hstep
      exact h.begin _
  | onMessage isMessage =>
      cases hstep
      exact h.begin _
  | expireOld now =>
      simp only [RuleState.step, Option.ite_none_right_eq_some, Option.some.injEq] at hstep
      obtain ⟨_, rfl⟩ := hstep
      exact h.begin _
  | issue i input =>
      have hmeets : s.nextMeets (fun _ stmt => !stmt.spoils rule s.store input) i = true := hspoils
      obtain ⟨r, stmt, rest, hr, hprogram, rfl⟩ := Concurrent.issue_spec hstep
      have hkeep : stmt.spoils rule s.store input = false := by
        simpa using Concurrent.nextMeets_spec hmeets hr hprogram
      have hlt : i < s.running.length := (List.getElem?_eq_some_iff.mp hr).1
      intro howed
      by_cases hother : ∃ j r', j ≠ i ∧ s.running[j]? = some r' ∧ r'.known = .claimed
      · obtain ⟨j, r', hne, hr', hclaimed⟩ := hother
        refine ⟨r', List.mem_of_getElem? (i := j) ?_, hclaimed⟩
        rw [List.getElem?_set_ne (Ne.symm hne)]
        exact hr'
      · have hself : s.store.owed = true → r.known = .claimed := by
          intro hbefore
          obtain ⟨r', hr', hclaimed⟩ := h hbefore
          obtain ⟨j, hj⟩ := List.getElem?_of_mem hr'
          by_cases hji : j = i
          · rw [hji, hr] at hj
            cases hj
            exact hclaimed
          · exact absurd ⟨j, r', hji, hj, hclaimed⟩ hother
        exact ⟨_, List.mem_set hlt _, RuleStore.next_of_owed hkeep howed hself⟩

/-- Where every task has ended, a completed rule was evaluated. -/
def LeavesEvaluated (s : RuleState) : Prop :=
  (∀ r ∈ s.running, r.program = .done ()) → s.store.status = "completed" →
    s.store.evaluations = 1

theorem inv_start (nextFireAt : Option Int) (clock : Int) :
    (start nextFireAt clock).Inv rule parses := by
  refine ⟨Concurrent.sound_of_none_running ⟨Nat.zero_le _, fun _ => ⟨rfl, rfl⟩, ?_⟩, ?_, ?_, ?_⟩
  · intro howed
    cases howed
  · intro i j r r' _ hr
    cases hr
  · intro r hr
    cases hr
  · exact fun hstatus => absurd hstatus (show "active" ≠ "completed" by decide)

theorem Inv.leavesEvaluated (h : s.Inv rule parses) (howed : s.Owed)
    (hflow : rule.hasFlow parses = true) : s.LeavesEvaluated := by
  intro hdone hstatus
  rcases h.accounted hstatus with hevaluated | hopen
  · exact hevaluated
  · obtain ⟨r, hr, hclaimed⟩ := howed hopen
    exact absurd hclaimed (h.ends.done hr (hdone r hr) hflow)

end RuleState

/-- In every run a one-shot rule is evaluated at most once. It is left completed only by an
evaluation when its flow can be read and no claimed evaluation is refused without a status. -/
theorem one_shot_rule_evaluated_once {rule : OntRule} {parses : String → Bool}
    (hshot : rule.isOneShot = true) {nextFireAt : Option Int} {clock : Int}
    {actions : List RuleAction} {s : RuleState}
    (hrun : Transition.run (RuleState.step rule parses) (RuleState.start nextFireAt clock) actions =
      some s) :
    s.store.evaluations ≤ 1 ∧ (rule.hasFlow parses = true →
      Transition.Meets (RuleState.step rule parses) (fun s a => s.spoilsNothing rule a = true)
        (RuleState.start nextFireAt clock) actions → s.LeavesEvaluated) := by
  have hkeep : ∀ (s : RuleState) (a : RuleAction) (next : RuleState), s.Inv rule parses →
      s.step rule parses a = some next → next.Inv rule parses :=
    fun _ _ _ h hstep => h.step hshot hstep
  have hinv : s.Inv rule parses :=
    Transition.run_invariant_all hkeep (RuleState.inv_start nextFireAt clock) hrun
  refine ⟨hinv.sound.store.once, fun hflow hspoils => ?_⟩
  have howed : s.Owed := Transition.run_invariant
    (fun _ _ _ h hspoils hstep => RuleState.Owed.step h hspoils hstep)
    (fun howed => by cases howed) hspoils hrun
  exact hinv.leavesEvaluated howed hflow

/-! ## A rule whose budget is used up -/

namespace RuleExample

def once : OntRule where
  userId := 1
  triggerType := "schedule"
  triggerConfig := some ⟨some "once", none, false⟩
  logicType := "custom"
  expiresAt := none
  flowConfig := some "flow"

def parses (json : String) : Bool := json = "flow"

/-- The answer of a statement, when `used` tokens were spent today. -/
def done (used : Int) : RuleInput := ⟨.done, true, some used⟩

/-- The statements of a due rule: due, rescheduled, claimed, the clock, the budget, and the flow. -/
def fired (used : Int) (statements : Nat) : List RuleAction :=
  .fireDue none :: List.replicate statements (.issue 0 (done used))

def start : RuleState := .start (some 50) 100

def reached (actions : List RuleAction) : RuleState :=
  Transition.final (RuleState.step once parses) start actions

end RuleExample

open RuleExample in
theorem one_shot_rule_evaluated_once_fired :
    (reached (fired 0 7)).store.evaluations ≤ 1 ∧ (once.hasFlow parses = true →
      Transition.Meets (RuleState.step once parses) (fun s a => s.spoilsNothing once a = true)
        start (fired 0 7) → (reached (fired 0 7)).LeavesEvaluated) :=
  one_shot_rule_evaluated_once (by decide +kernel) (Transition.run_eq_final (by decide +kernel))

open RuleExample in
theorem not_one_shot_rule_evaluated_over_budget :
    ¬ ∀ (rule : OntRule) (parses : String → Bool), rule.isOneShot = true →
      ∀ (nextFireAt : Option Int) (clock : Int) (actions : List RuleAction) (s : RuleState),
        Transition.run (RuleState.step rule parses) (RuleState.start nextFireAt clock) actions =
          some s → s.store.evaluations ≤ 1 ∧ s.LeavesEvaluated := by
  intro hlaw
  have hrun : Transition.run (RuleState.step once parses) start (fired 166000 5) =
      some (reached (fired 166000 5)) := Transition.run_eq_final (by decide +kernel)
  obtain ⟨_, hleaves⟩ := hlaw once parses (by decide +kernel) _ _ _ _ hrun
  have hended : (reached (fired 166000 5)).running.map (·.program.isDone) = [true] := by
    decide +kernel
  have hevaluated := hleaves (fun r hr => ?_) (by decide +kernel)
  · exact absurd hevaluated (by decide +kernel)
  · have hdone : r.program.isDone = true := by
      have hmem := List.mem_map_of_mem (f := fun r => r.program.isDone) hr
      rw [hended] at hmem
      exact List.mem_singleton.mp hmem
    cases hprogram : r.program with
    | done result => rfl
    | issue stmt rest =>
        rw [hprogram] at hdone
        cases hdone

end Lightfriend.Proactive
