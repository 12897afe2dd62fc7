import Lightfriend.Core.Database
import Lightfriend.Core.Log
import Lightfriend.Core.Table
import Lightfriend.Core.Transition

/-! # Replies to commitment prompts

A reply finds the latest open prompt of its user, claims it in a statement of its own
and goes on to track an event, to set a rule for the sender, or to remember the message
as an example. A rule is set by deactivating the old ones and inserting a new one.
-/

namespace Lightfriend.Proactive.CommitmentReply

structure SenderKey where
  userId : Int
  platform : String
  senderKey : String
deriving DecidableEq, Repr

structure CommitmentPrompt where
  id : Nat
  key : SenderKey
  ontMessageId : Int
  commitmentDescription : String
  dueAt : Option Int
  remindAt : Option Int
  sentAt : Int
  userLabel : Option String
  labeledAt : Option Int
  resultingEventId : Option Nat
  resolvedAt : Option Int
deriving DecidableEq, Repr

inductive RuleType
  | mute
  | alwaysTrack
deriving DecidableEq, Repr

structure CommitmentSenderRule where
  id : Nat
  key : SenderKey
  ruleType : RuleType
  source : String
  active : Bool
  createdAt : Int
  deactivatedAt : Option Int
deriving DecidableEq, Repr

structure NewOntEvent where
  userId : Int
  description : String
  remindAt : Option Int
  dueAt : Option Int
  status : String
  createdAt : Int
deriving DecidableEq, Repr

/-- The embedding itself is left out. -/
structure NewCommitmentLabelEmbedding where
  userId : Int
  labelType : String
  sourceMessageId : Int
  createdAt : Int
deriving DecidableEq, Repr

inductive Reply
  | track
  | always
  | mute
  | wrong
deriving DecidableEq, Repr

/-- `REPLY_TRACK`, `REPLY_ALWAYS`, `REPLY_MUTE` and `REPLY_WRONG`. -/
def Reply.text : Reply → String
  | .track => "1"
  | .always => "2"
  | .mute => "3"
  | .wrong => "4"

/-- The body of a message, trimmed. -/
def parseReply (body : String) : Option Reply :=
  if body = "1" then some .track
  else if body = "2" then some .always
  else if body = "3" then some .mute
  else if body = "4" then some .wrong
  else none

/-- `RULE_SOURCE_SMS`. -/
def RULE_SOURCE_SMS : String := "sms_reply"

def LABEL_TRACK : String := "track"

def LABEL_WRONG : String := "wrong"

/-- An hour. -/
def REPLY_MATCH_WINDOW_SECS : Int := 60 * 60

/-- The next statement of a request. `always` tells the reply that sets a rule as well. -/
inductive Stage
  | claim (reply : Reply)
  | createEvent (always : Bool)
  | createLink (always : Bool) (eventId : Nat)
  | setEventId (always : Bool) (eventId : Nat)
  | deactivate (rule : RuleType)
  | createRule (rule : RuleType)
  | seed (label : String)
  | ended
deriving DecidableEq, Repr

/-- A reply that has found its prompt. -/
structure Request where
  number : Nat
  prompt : CommitmentPrompt
  now : Int
  stage : Stage
deriving DecidableEq, Repr

/-- What a prompt may bring about. -/
inductive Effect
  | event
  | link
  | rule
  | embedding
deriving DecidableEq, Repr

inductive Entry
  | event (promptId : Nat) (row : NewOntEvent)
  | link (promptId : Nat) (userId : Int) (eventId : Nat) (messageId : Int)
  | rule (promptId : Nat) (key : SenderKey)
  | embedding (promptId : Nat) (row : NewCommitmentLabelEmbedding)
  /-- The statement of a request that deactivates the old rules, whether it is carried out or not. -/
  | deactivating (number : Nat)
deriving DecidableEq, Repr

namespace CommitmentPrompt

def claimed (label : String) (now : Int) (p : CommitmentPrompt) : CommitmentPrompt :=
  { p with userLabel := some label, labeledAt := some now, resolvedAt := some now }

def expired (now : Int) (p : CommitmentPrompt) : CommitmentPrompt := { p with resolvedAt := some now }

def withEvent (eventId : Nat) (p : CommitmentPrompt) : CommitmentPrompt :=
  { p with resultingEventId := some eventId }

theorem claimed_id (label : String) (now : Int) (p : CommitmentPrompt) :
    (p.claimed label now).id = p.id := rfl

theorem expired_id (now : Int) (p : CommitmentPrompt) : (p.expired now).id = p.id := rfl

theorem withEvent_id (eventId : Nat) (p : CommitmentPrompt) : (p.withEvent eventId).id = p.id := rfl

/-- `id = promptId AND resolved_at IS NULL`. -/
def openAs (promptId : Nat) (p : CommitmentPrompt) : Bool :=
  decide (p.id = promptId) && p.resolvedAt.isNone

end CommitmentPrompt

namespace CommitmentSenderRule

def deactivated (now : Int) (r : CommitmentSenderRule) : CommitmentSenderRule :=
  { r with active := false, deactivatedAt := some now }

theorem deactivated_id (now : Int) (r : CommitmentSenderRule) : (r.deactivated now).id = r.id := rfl

def activeFor (key : SenderKey) (r : CommitmentSenderRule) : Bool := r.active && decide (r.key = key)

end CommitmentSenderRule

def Request.at_ (stage : Stage) (r : Request) : Request := { r with stage := stage }

theorem Request.at_number (stage : Stage) (r : Request) : (r.at_ stage).number = r.number := rfl

structure State where
  prompts : Table CommitmentPrompt Nat CommitmentPrompt.id
  nextPrompt : Nat
  rules : Table CommitmentSenderRule Nat CommitmentSenderRule.id
  nextRule : Nat
  nextEvent : Nat
  requests : Table Request Nat Request.number
  nextNumber : Nat
  log : List Entry

def init : State := ⟨Table.empty, 0, Table.empty, 0, 0, Table.empty, 0, []⟩

inductive Action
  | createPrompt (key : SenderKey) (ontMessageId : Int) (description : String)
      (dueAt remindAt : Option Int) (sentAt : Int)
  | expirePrompt (promptId : Nat) (now : Int)
  /-- The prompt is the one that the lookup returns. -/
  | reply (userId : Int) (body : String) (now : Int) (promptId : Nat)
  | advance (number : Nat) (now : Int) (fate : StatementFate)
  /-- Also a message that is not found, or an embedding that is not made. -/
  | abandon (number : Nat)
  /-- The dashboard deactivates a rule. -/
  | deactivateRule (userId : Int) (ruleId : Nat) (now : Int)
deriving DecidableEq, Repr

namespace Stage

/-- The first statement behind a claim that succeeded. -/
def first : Reply → Stage
  | .track => .createEvent false
  | .always => .createEvent true
  | .mute => .deactivate .mute
  | .wrong => .seed LABEL_WRONG

/-- What follows a statement. `apply_always` goes on whatever becomes of its statements. -/
def next (eventId : Nat) : Stage → StatementFate → Stage
  | .claim _, _ => .ended
  | .createEvent always, .done => .createLink always eventId
  | .createEvent true, _ => .deactivate .alwaysTrack
  | .createEvent false, _ => .ended
  | .createLink always id, _ => .setEventId always id
  | .setEventId true _, _ => .deactivate .alwaysTrack
  | .setEventId false _, _ => .seed LABEL_TRACK
  | .deactivate .mute, .done => .createRule .mute
  | .deactivate .mute, _ => .ended
  | .deactivate .alwaysTrack, _ => .createRule .alwaysTrack
  | .createRule .mute, _ => .ended
  | .createRule .alwaysTrack, _ => .seed LABEL_TRACK
  | .seed _, _ => .ended
  | .ended, _ => .ended

def isDeactivate : Stage → Bool
  | .deactivate _ => true
  | _ => false

def isCreateRule : Stage → Bool
  | .createRule _ => true
  | _ => false

end Stage

/-- `as i32`. -/
def asI32 (n : Int) : Int := Int.bmod n (2 ^ 32)

namespace State

/-- `user_id = .. AND resolved_at IS NULL AND sent_at >= ..`. -/
def answerable (userId now : Int) (p : CommitmentPrompt) : Bool :=
  decide (p.key.userId = userId) && p.resolvedAt.isNone &&
    decide (now - REPLY_MATCH_WINDOW_SECS ≤ p.sentAt)

/-- `find_latest_unresolved_for_user`; prompts sent at one time come in any order. -/
def mayFind (s : State) (userId now : Int) (p : CommitmentPrompt) : Bool :=
  answerable userId now p &&
    s.prompts.rows.all (fun other => !answerable userId now other || decide (other.sentAt ≤ p.sentAt))

def proceed (s : State) (r : Request) (stage : Stage) : State :=
  { s with
    requests := s.requests.updateWhere (fun other => decide (other.number = r.number))
      (Request.at_ stage) (Request.at_number stage) }

def start (s : State) (p : CommitmentPrompt) (now : Int) (reply : Reply) : State :=
  { s with
    requests := s.requests.insertOrIgnore ⟨s.nextNumber, p, now, .claim reply⟩
    nextNumber := s.nextNumber + 1 }

/-- A partial index keeps the open prompts of a sender apart. -/
def createPrompt (s : State) (p : CommitmentPrompt) : State :=
  if s.prompts.rows.any (fun other => decide (other.key = p.key) && other.resolvedAt.isNone) then s
  else { s with prompts := s.prompts.insertOrIgnore p, nextPrompt := s.nextPrompt + 1 }

/-- `claim_prompt`. -/
def claimPrompt (s : State) (promptId : Nat) (label : String) (now : Int) : State :=
  { s with
    prompts := s.prompts.updateWhere (CommitmentPrompt.openAs promptId)
      (CommitmentPrompt.claimed label now) (CommitmentPrompt.claimed_id label now) }

/-- The claim succeeds when its update has changed one row. -/
def claim (s : State) (r : Request) (reply : Reply) (now : Int) (fate : StatementFate) : State :=
  (fate.after s (s.claimPrompt r.prompt.id reply.text now)).proceed r
    (if fate = .done ∧ s.prompts.countWhere (CommitmentPrompt.openAs r.prompt.id) = 1 then
      Stage.first reply
    else .ended)

def deactivateExistingRules (s : State) (key : SenderKey) (now : Int) : State :=
  { s with
    rules := s.rules.updateWhere (CommitmentSenderRule.activeFor key)
      (CommitmentSenderRule.deactivated now) (CommitmentSenderRule.deactivated_id now) }

/-- What the statement of a request behind its claim leaves in the store. -/
def written (s : State) (r : Request) (now : Int) : Stage → State
  | .createEvent _ =>
      { s with
        nextEvent := s.nextEvent + 1
        log := .event r.prompt.id ⟨r.prompt.key.userId, r.prompt.commitmentDescription,
          r.prompt.remindAt, r.prompt.dueAt, "active", r.now⟩ :: s.log }
  | .createLink _ eventId =>
      { s with
        log := .link r.prompt.id r.prompt.key.userId eventId (asI32 r.prompt.ontMessageId) :: s.log }
  | .setEventId _ eventId =>
      { s with
        prompts := s.prompts.updateWhere (fun p => decide (p.id = r.prompt.id))
          (CommitmentPrompt.withEvent eventId) (CommitmentPrompt.withEvent_id eventId) }
  | .deactivate _ => s.deactivateExistingRules r.prompt.key now
  | .createRule rule =>
      { s with
        rules := s.rules.insertOrIgnore
          ⟨s.nextRule, r.prompt.key, rule, RULE_SOURCE_SMS, true, now, none⟩
        nextRule := s.nextRule + 1
        log := .rule r.prompt.id r.prompt.key :: s.log }
  | .seed label =>
      { s with
        log := .embedding r.prompt.id ⟨r.prompt.key.userId, label, r.prompt.ontMessageId, r.now⟩ ::
          s.log }
  | .claim _ => s
  | .ended => s

/-- The attempt to deactivate is noted. -/
def attempt (s : State) (r : Request) : State :=
  if r.stage.isDeactivate then { s with log := .deactivating r.number :: s.log } else s

def advance (s : State) (r : Request) (now : Int) (fate : StatementFate) : State :=
  (fate.after (s.attempt r) ((s.attempt r).written r now r.stage)).proceed r
    (r.stage.next s.nextEvent fate)

end State

def step (s : State) : Action → Option State
  | .createPrompt key ontMessageId description dueAt remindAt sentAt =>
      some (s.createPrompt
        ⟨s.nextPrompt, key, ontMessageId, description, dueAt, remindAt, sentAt, none, none, none,
          none⟩)
  | .expirePrompt promptId now =>
      some
        { s with
          prompts := s.prompts.updateWhere (fun p => decide (p.id = promptId))
            (CommitmentPrompt.expired now) (CommitmentPrompt.expired_id now) }
  | .reply userId body now promptId =>
      (parseReply body).bind (fun reply =>
        (s.prompts.find? promptId).bind (fun p =>
          if s.mayFind userId now p then some (s.start p now reply) else none))
  | .advance number now fate =>
      (s.requests.find? number).bind (fun r =>
        match r.stage with
        | .ended => none
        | .claim reply => some (s.claim r reply now fate)
        | _ => some (s.advance r now fate))
  | .abandon number => (s.requests.find? number).map (fun r => s.proceed r .ended)
  | .deactivateRule userId ruleId now =>
      some
        { s with
          rules := s.rules.updateWhere
            (fun r => decide (r.id = ruleId) && decide (r.key.userId = userId) && r.active)
            (CommitmentSenderRule.deactivated now) (CommitmentSenderRule.deactivated_id now) }

/-! ## What replies promise -/

namespace Entry

/-- Is it such an effect of the prompt? -/
def isOf (effect : Effect) (promptId : Nat) : Entry → Bool
  | .event id _ => decide (effect = .event ∧ id = promptId)
  | .link id _ _ _ => decide (effect = .link ∧ id = promptId)
  | .rule id _ => decide (effect = .rule ∧ id = promptId)
  | .embedding id _ => decide (effect = .embedding ∧ id = promptId)
  | .deactivating _ => false

def isRuleFor (key : SenderKey) : Entry → Bool
  | .rule _ k => decide (k = key)
  | _ => false

end Entry

/-- Each effect of a prompt is applied at most once. -/
def EffectsOnce (log : List Entry) : Prop :=
  ∀ effect promptId, log.countP (Entry.isOf effect promptId) ≤ 1

/-- A sender has at most one active rule. -/
def OneActiveRule (s : State) : Prop :=
  ∀ a ∈ s.rules, ∀ b ∈ s.rules, a.active = true → b.active = true → a.key = b.key → a = b

/-- No rule is inserted for a sender between another request's deactivation and its insertion, and
where a request goes on although its deactivation fails there is nothing to deactivate. -/
def InTurn (s : State) : Action → Prop
  | .advance number _ fate =>
      ∀ r ∈ s.requests.find? number,
        (r.stage = .deactivate .alwaysTrack → fate = .refused →
          ∀ x ∈ s.rules.rows, x.activeFor r.prompt.key = false) ∧
        (r.stage.isCreateRule = true → fate ≠ .refused →
          (Log.since (.deactivating number) s.log).any (Entry.isRuleFor r.prompt.key) = false)
  | _ => True

instance (s : State) (a : Action) : Decidable (InTurn s a) := by
  cases a <;> unfold InTurn <;> infer_instance

/-! ## What may still be applied -/

namespace Stage

def may (effect : Effect) : Stage → Bool
  | .claim _ => false
  | .createEvent always => effect ≠ .rule || always
  | .createLink always _ => effect ≠ .event && (effect ≠ .rule || always)
  | .setEventId always _ => decide (effect = .embedding) || (effect = .rule && always)
  | .deactivate rule => decide (effect = .rule) || (effect = .embedding && rule = .alwaysTrack)
  | .createRule rule => decide (effect = .rule) || (effect = .embedding && rule = .alwaysTrack)
  | .seed _ => decide (effect = .embedding)
  | .ended => false

/-- The effect of the next statement. -/
def emits : Stage → Option Effect
  | .createEvent _ => some .event
  | .createLink _ _ => some .link
  | .createRule _ => some .rule
  | .seed _ => some .embedding
  | _ => none

variable {stage : Stage} {effect : Effect} {eventId : Nat} {fate : StatementFate}

/-- What may be applied behind a statement may be applied before it, and is not its effect. -/
theorem may_of_next (h : (stage.next eventId fate).may effect = true) :
    stage.may effect = true ∧ stage.emits ≠ some effect := by
  cases stage with
  | claim => cases h
  | createEvent always => cases always <;> cases fate <;> cases effect <;> simp_all [next, may, emits]
  | createLink always => cases always <;> cases effect <;> simp_all [next, may, emits]
  | setEventId always => cases always <;> cases effect <;> simp_all [next, may, emits]
  | deactivate rule => cases rule <;> cases fate <;> cases effect <;> simp_all [next, may, emits]
  | createRule rule => cases rule <;> cases effect <;> simp_all [next, may, emits]
  | seed => cases h
  | ended => cases h

theorem may_of_emits (h : stage.emits = some effect) : stage.may effect = true := by
  cases stage <;> cases h <;> simp [may]

end Stage

/-- A request that may still apply an effect of the prompt. -/
def Request.mayApply (effect : Effect) (promptId : Nat) (r : Request) : Bool :=
  decide (r.prompt.id = promptId) && r.stage.may effect

/-- The applications of an effect: made, under way, and still to be had by claiming or by creating
the prompt. -/
def State.spent (s : State) (effect : Effect) (promptId : Nat) : Nat :=
  s.log.countP (Entry.isOf effect promptId) + s.requests.countWhere (Request.mayApply effect promptId) +
    s.prompts.countWhere (CommitmentPrompt.openAs promptId) + if s.nextPrompt ≤ promptId then 1 else 0

def Budget (s : State) : Prop := ∀ effect promptId, s.spent effect promptId ≤ 1

variable {s t : State} {r : Request}

theorem budget_init : Budget init := by
  intro effect promptId
  show 0 + 0 + 0 + (if 0 ≤ promptId then 1 else 0) ≤ 1
  split <;> omega

theorem Budget.effectsOnce (h : Budget s) : EffectsOnce s.log := by
  intro effect promptId
  have hspent := h effect promptId
  unfold State.spent at hspent
  omega

theorem Budget.of_le (h : Budget s)
    (hle : ∀ effect promptId, t.spent effect promptId ≤ s.spent effect promptId) : Budget t :=
  fun effect promptId => (hle effect promptId).trans (h effect promptId)

/-- A request that goes on to a stage with no more to apply, less what it has applied. -/
theorem pending_proceed (hr : r ∈ s.requests) (stage : Stage) (effect : Effect) (promptId : Nat)
    (applied : Bool)
    (hstage : stage.may effect = true → r.stage.may effect = true ∧ applied = false)
    (happlied : applied = true → r.prompt.id = promptId ∧ r.stage.may effect = true) :
    (s.proceed r stage).requests.countWhere (Request.mayApply effect promptId) +
      (if applied = true then 1 else 0) ≤
        s.requests.countWhere (Request.mayApply effect promptId) := by
  have hrow : ∀ other ∈ s.requests, decide (other.number = r.number) = true → other = r :=
    fun other hother hnumber => Table.eq_of_key_eq hother hr (of_decide_eq_true hnumber)
  have hmono : ∀ other ∈ s.requests, decide (other.number = r.number) = true →
      (other.at_ stage).mayApply effect promptId = true →
        other.mayApply effect promptId = true := by
    intro other hother hnumber hmay
    rw [hrow other hother hnumber] at hmay ⊢
    simp only [Request.mayApply, Request.at_, Bool.and_eq_true] at hmay ⊢
    exact ⟨hmay.1, (hstage hmay.2).1⟩
  cases applied with
  | false =>
      rw [if_neg (by simp)]
      exact Table.countWhere_updateWhere_le (Request.at_number stage) hmono
  | true =>
      rw [if_pos rfl]
      obtain ⟨hprompt, hmay⟩ := happlied rfl
      refine Table.countWhere_updateWhere_lt (Request.at_number stage) hmono hr (by simp) ?_ ?_
      · simp [Request.mayApply, hprompt, hmay]
      · by_contra hne
        simp only [Bool.not_eq_false, Request.mayApply, Request.at_, Bool.and_eq_true] at hne
        cases (hstage hne.2).2

/-- The prompts that are open for a claim are not made more by an update. -/
theorem open_updateWhere {p : CommitmentPrompt → Bool} {set : CommitmentPrompt → CommitmentPrompt}
    (hid : ∀ x, (set x).id = x.id)
    (hset : ∀ x, (set x).resolvedAt.isNone = true → x.resolvedAt.isNone = true) (promptId : Nat) :
    (s.prompts.updateWhere p set hid).countWhere (CommitmentPrompt.openAs promptId) ≤
      s.prompts.countWhere (CommitmentPrompt.openAs promptId) := by
  apply Table.countWhere_updateWhere_le hid
  intro x _ _ hopen
  simp only [CommitmentPrompt.openAs, hid, Bool.and_eq_true] at hopen ⊢
  exact ⟨hopen.1, hset x hopen.2⟩

/-- A store that has so many more effects, and no more open prompts. -/
structure Spends (s t : State) (effect : Effect) (promptId count : Nat) : Prop where
  log : t.log.countP (Entry.isOf effect promptId) ≤ s.log.countP (Entry.isOf effect promptId) + count
  prompts : t.prompts.countWhere (CommitmentPrompt.openAs promptId) ≤
    s.prompts.countWhere (CommitmentPrompt.openAs promptId)
  requests : t.requests = s.requests
  nextPrompt : t.nextPrompt = s.nextPrompt

theorem spends_self (s : State) (effect : Effect) (promptId count : Nat) :
    Spends s s effect promptId count :=
  ⟨Nat.le_add_right _ _, le_rfl, rfl, rfl⟩

theorem spends_cons (x : Entry) {effect : Effect} {promptId count : Nat} {rules nextRule nextEvent}
    (hx : x.isOf effect promptId = true → 1 ≤ count) :
    Spends s { s with rules := rules, nextRule := nextRule, nextEvent := nextEvent, log := x :: s.log }
      effect promptId count := by
  refine ⟨?_, le_rfl, rfl, rfl⟩
  show (x :: s.log).countP (Entry.isOf effect promptId) ≤ _
  rw [List.countP_cons]
  split
  next hof =>
    have hcount := hx hof
    omega
  next => omega

/-- Is it the effect of the request's next statement? -/
def Request.emits (effect : Effect) (promptId : Nat) (r : Request) : Bool :=
  decide (r.stage.emits = some effect) && decide (r.prompt.id = promptId)

theorem spends_attempt (s : State) (r : Request) (effect : Effect) (promptId count : Nat) :
    Spends s (s.attempt r) effect promptId count := by
  unfold State.attempt
  split
  · exact spends_cons _ (fun hof => by cases hof)
  · exact spends_self s effect promptId count

/-- A statement behind the claim adds its effect to the log. -/
theorem spends_written (s : State) (r : Request) (now : Int) (effect : Effect) (promptId : Nat) :
    Spends s (s.written r now r.stage) effect promptId
      (if r.emits effect promptId = true then 1 else 0) := by
  have hone : ∀ emitted : Effect, r.stage.emits = some emitted → effect = emitted ∧
      r.prompt.id = promptId → 1 ≤ if r.emits effect promptId = true then 1 else 0 := by
    rintro emitted hemits ⟨rfl, hprompt⟩
    rw [if_pos (by simp [Request.emits, hemits, hprompt])]
  cases hstage : r.stage with
  | createEvent =>
      exact spends_cons _ (fun hof => hone .event (by rw [hstage]; rfl) (of_decide_eq_true hof))
  | createLink =>
      exact spends_cons _ (fun hof => hone .link (by rw [hstage]; rfl) (of_decide_eq_true hof))
  | createRule =>
      exact spends_cons _ (fun hof => hone .rule (by rw [hstage]; rfl) (of_decide_eq_true hof))
  | seed =>
      exact spends_cons _ (fun hof => hone .embedding (by rw [hstage]; rfl) (of_decide_eq_true hof))
  | setEventId always eventId =>
      refine ⟨Nat.le_add_right _ _, ?_, rfl, rfl⟩
      exact open_updateWhere (CommitmentPrompt.withEvent_id eventId) (fun _ hnone => hnone) promptId
  | deactivate => exact ⟨Nat.le_add_right _ _, le_rfl, rfl, rfl⟩
  | claim => exact spends_self s effect promptId _
  | ended => exact spends_self s effect promptId _

theorem Spends.trans {u : State} {effect : Effect} {promptId count more : Nat}
    (h : Spends s t effect promptId count) (h' : Spends t u effect promptId more) :
    Spends s u effect promptId (count + more) where
  log := by
    have hfirst := h.log
    have hsecond := h'.log
    omega
  prompts := h'.prompts.trans h.prompts
  requests := h'.requests.trans h.requests
  nextPrompt := h'.nextPrompt.trans h.nextPrompt

/-! ## Each effect once -/

/-- What a store spends, and what the request may still apply. -/
theorem Spends.proceed {effect : Effect} {promptId : Nat}
    (h : Spends s t effect promptId (if r.emits effect promptId = true then 1 else 0))
    (hr : r ∈ s.requests) {stage : Stage}
    (hstage : stage.may effect = true → r.stage.may effect = true ∧ r.emits effect promptId = false) :
    (t.proceed r stage).spent effect promptId ≤ s.spent effect promptId := by
  have hlog := h.log
  have hprompts := h.prompts
  have hpending := pending_proceed (s := t) (h.requests ▸ hr) stage effect promptId
    (r.emits effect promptId) hstage (by
      intro hemits
      simp only [Request.emits, Bool.and_eq_true, decide_eq_true_eq] at hemits
      exact ⟨hemits.2, Stage.may_of_emits hemits.1⟩)
  rw [h.requests] at hpending
  show t.log.countP _ + (t.proceed r stage).requests.countWhere _ + t.prompts.countWhere _ +
    (if t.nextPrompt ≤ promptId then 1 else 0) ≤ _
  rw [h.nextPrompt]
  unfold State.spent
  omega

/-- A statement spends the effect that its request may apply. -/
theorem Budget.advance (h : Budget s) (hr : r ∈ s.requests) (now : Int) (fate : StatementFate) :
    Budget (s.advance r now fate) := by
  apply h.of_le
  intro effect promptId
  have hwritten := fate.after_keeps
    (fun u => Spends (s.attempt r) u effect promptId
      (if r.emits effect promptId = true then 1 else 0))
    (spends_self _ effect promptId _) (spends_written (s.attempt r) r now effect promptId)
  have hspends := (spends_attempt s r effect promptId 0).trans hwritten
  rw [Nat.zero_add] at hspends
  apply hspends.proceed hr
  intro hmay
  have hnext := Stage.may_of_next hmay
  exact ⟨hnext.1, by simp [Request.emits, hnext.2]⟩

/-- A request that ends has nothing more to apply. -/
theorem Budget.finish (h : Budget s) (hr : r ∈ s.requests) : Budget (s.proceed r .ended) := by
  apply h.of_le
  intro effect promptId
  have hpending := pending_proceed hr .ended effect promptId false (fun hmay => by cases hmay)
    (fun hfalse => by cases hfalse)
  rw [if_neg (by simp)] at hpending
  unfold State.spent
  show s.log.countP _ + (s.proceed r .ended).requests.countWhere _ + s.prompts.countWhere _ + _ ≤ _
  exact Nat.add_le_add_right (Nat.add_le_add_right (Nat.add_le_add_left (by omega) _) _) _

theorem spent_withPrompts (s : State) {p : CommitmentPrompt → Bool}
    {set : CommitmentPrompt → CommitmentPrompt} (hid : ∀ x, (set x).id = x.id)
    (hset : ∀ x, (set x).resolvedAt.isNone = true → x.resolvedAt.isNone = true)
    (effect : Effect) (promptId : Nat) :
    ({ s with prompts := s.prompts.updateWhere p set hid } : State).spent effect promptId ≤
      s.spent effect promptId :=
  Nat.add_le_add_right (Nat.add_le_add_left (open_updateWhere hid hset promptId) _) _

theorem spent_claimPrompt (s : State) (claimed : Nat) (label : String) (now : Int)
    (effect : Effect) (promptId : Nat) :
    (s.claimPrompt claimed label now).spent effect promptId ≤ s.spent effect promptId := by
  apply spent_withPrompts
  intro x hnone
  simp [CommitmentPrompt.claimed] at hnone

/-- A claim that succeeds trades the open prompt for what its request may apply. -/
theorem spent_claim (hr : r ∈ s.requests) (label : String) (now : Int) (stage : Stage)
    (hcount : s.prompts.countWhere (CommitmentPrompt.openAs r.prompt.id) = 1) (effect : Effect)
    (promptId : Nat) :
    ((s.claimPrompt r.prompt.id label now).proceed r stage).spent effect promptId ≤
      s.spent effect promptId := by
  have hrow : ∀ other ∈ s.requests, decide (other.number = r.number) = true → other = r :=
    fun other hother hnumber => Table.eq_of_key_eq hother hr (of_decide_eq_true hnumber)
  have hnone : ∀ x, (CommitmentPrompt.claimed label now x).resolvedAt.isNone = true →
      x.resolvedAt.isNone = true := by
    intro x hnone
    simp [CommitmentPrompt.claimed] at hnone
  have hopen := open_updateWhere (s := s) (p := CommitmentPrompt.openAs r.prompt.id)
    (CommitmentPrompt.claimed_id label now) hnone promptId
  unfold State.spent
  show s.log.countP _ + (s.requests.updateWhere _ _ (Request.at_number stage)).countWhere _ +
    (s.prompts.updateWhere _ _ (CommitmentPrompt.claimed_id label now)).countWhere _ +
    (if s.nextPrompt ≤ promptId then 1 else 0) ≤ _
  by_cases hsame : r.prompt.id = promptId
  · have hpos : 0 < s.prompts.countWhere (CommitmentPrompt.openAs r.prompt.id) := by omega
    obtain ⟨row, hrowopen, hisopen⟩ := Table.exists_of_countWhere_pos hpos
    have hless := Table.countWhere_updateWhere_lt (t := s.prompts)
      (p := CommitmentPrompt.openAs promptId) (q := CommitmentPrompt.openAs r.prompt.id)
      (CommitmentPrompt.claimed_id label now)
      (fun x _ hx _ => by rw [← hsame]; exact hx) hrowopen hisopen (hsame ▸ hisopen)
      (by simp [CommitmentPrompt.openAs, CommitmentPrompt.claimed])
    have hpending := Table.countWhere_updateWhere_le_succ (t := s.requests)
      (p := Request.mayApply effect promptId) (q := fun other => decide (other.number = r.number))
      (Request.at_number stage) r.number (fun other hother hnumber => by
        rw [hrow other hother hnumber])
    omega
  · have hpending := Table.countWhere_updateWhere_le (t := s.requests)
      (p := Request.mayApply effect promptId) (q := fun other => decide (other.number = r.number))
      (Request.at_number stage) (fun other hother hnumber hmay => by
        rw [hrow other hother hnumber] at hmay
        simp [Request.mayApply, Request.at_, hsame] at hmay)
    omega

theorem Budget.claim (h : Budget s) (hr : r ∈ s.requests) (reply : Reply) (now : Int)
    (fate : StatementFate) : Budget (s.claim r reply now fate) := by
  unfold State.claim
  split
  next hwon =>
    obtain ⟨rfl, hcount⟩ := hwon
    exact h.of_le (spent_claim hr reply.text now (Stage.first reply) hcount)
  next =>
    have hclaimed := h.of_le (spent_claimPrompt s r.prompt.id reply.text now)
    cases fate with
    | done => exact hclaimed.finish hr
    | refused => exact h.finish hr
    | lost => exact hclaimed.finish hr

/-- A request that has claimed nothing yet. -/
theorem Budget.start (h : Budget s) (p : CommitmentPrompt) (now : Int) (reply : Reply) :
    Budget (s.start p now reply) := by
  apply h.of_le
  intro effect promptId
  have hpending : (s.start p now reply).requests.countWhere (Request.mayApply effect promptId) ≤
      s.requests.countWhere (Request.mayApply effect promptId) + 0 := by
    apply Table.countWhere_le []
    intro other hother hmay
    rcases Table.mem_insertOrIgnore.mp hother with hold | ⟨-, rfl⟩
    · exact Or.inr ⟨other, hold, hmay, rfl⟩
    · simp [Request.mayApply, Stage.may] at hmay
  show s.log.countP _ + (s.start p now reply).requests.countWhere _ + s.prompts.countWhere _ +
    (if s.nextPrompt ≤ promptId then 1 else 0) ≤ _
  unfold State.spent
  omega

/-- A prompt that is created. -/
theorem Budget.createPrompt (h : Budget s) {p : CommitmentPrompt} (hid : p.id = s.nextPrompt) :
    Budget (s.createPrompt p) := by
  unfold State.createPrompt
  split
  next => exact h
  next =>
    apply h.of_le
    intro effect promptId
    have hopen : (s.prompts.insertOrIgnore p).countWhere (CommitmentPrompt.openAs promptId) ≤
        s.prompts.countWhere (CommitmentPrompt.openAs promptId) +
          (if p.id = promptId then [promptId] else []).length := by
      apply Table.countWhere_le
      intro x hx hisopen
      rcases Table.mem_insertOrIgnore.mp hx with hold | ⟨-, rfl⟩
      · exact Or.inr ⟨x, hold, hisopen, rfl⟩
      · simp only [CommitmentPrompt.openAs, Bool.and_eq_true, decide_eq_true_eq] at hisopen
        rw [if_pos hisopen.1, hisopen.1]
        exact Or.inl List.mem_cons_self
    unfold State.spent
    show s.log.countP _ + s.requests.countWhere _ + (s.prompts.insertOrIgnore p).countWhere _ +
      (if s.nextPrompt + 1 ≤ promptId then 1 else 0) ≤ _
    rw [hid] at hopen
    split at hopen
    · rw [List.length_singleton] at hopen
      split <;> split <;> omega
    · rw [List.length_nil] at hopen
      split <;> split <;> omega

/-! ## One active rule -/

structure RuleInv (s : State) : Prop where
  single : OneActiveRule s
  /-- A rule that is active beside a request that is about to insert one was inserted since the
  request deactivated. -/
  waiting : ∀ r ∈ s.requests, r.stage.isCreateRule = true →
    ∀ x ∈ s.rules, x.activeFor r.prompt.key = true →
      (Log.since (.deactivating r.number) s.log).any (Entry.isRuleFor r.prompt.key) = true

theorem ruleInv_init : RuleInv init where
  single := fun a ha => absurd ha (Table.not_mem_empty a)
  waiting := fun r hr => absurd hr (Table.not_mem_empty r)

theorem mem_proceed {stage : Stage} {other : Request}
    (h : other ∈ (s.proceed r stage).requests) :
    (∃ old ∈ s.requests, old.number = r.number ∧ other = old.at_ stage) ∨
      (other ∈ s.requests ∧ other.number ≠ r.number) := by
  obtain ⟨old, hold, rfl⟩ := (Table.mem_updateWhere (Request.at_number stage)).mp h
  split
  next hnumber => exact Or.inl ⟨old, hold, of_decide_eq_true hnumber, rfl⟩
  next hnumber => exact Or.inr ⟨hold, by simpa using hnumber⟩

theorem RuleInv.proceed (h : RuleInv s) (r : Request) {stage : Stage}
    (hstage : stage.isCreateRule = false) : RuleInv (s.proceed r stage) where
  single := h.single
  waiting := by
    intro other hother hcreates
    rcases mem_proceed hother with ⟨old, -, -, rfl⟩ | ⟨hold, -⟩
    · rw [Request.at_, hstage] at hcreates
      cases hcreates
    · exact h.waiting other hold hcreates

/-- A store with no new active rule, and an entry that is no deactivation. -/
theorem RuleInv.keep (h : RuleInv s) (hrules : ∀ x ∈ t.rules, x.active = true → x ∈ s.rules)
    (hrequests : t.requests = s.requests)
    (hlog : t.log = s.log ∨ ∃ x, (∀ number, x ≠ .deactivating number) ∧ t.log = x :: s.log) :
    RuleInv t where
  single := fun a ha b hb hactive hactive' =>
    h.single a (hrules a ha hactive) b (hrules b hb hactive') hactive hactive'
  waiting := by
    intro r hr hcreates x hx hactive
    have hrule : x.active = true := (Bool.and_eq_true .. ▸ hactive).1
    have hold := h.waiting r (hrequests ▸ hr) hcreates x (hrules x hx hrule) hactive
    rcases hlog with heq | ⟨e, he, heq⟩
    · rw [heq]
      exact hold
    · rw [heq, Log.since_cons_of_ne (he r.number), List.any_cons, hold, Bool.or_true]

theorem mem_deactivateExistingRules {key : SenderKey} {now : Int} {x : CommitmentSenderRule}
    (hx : x ∈ (s.deactivateExistingRules key now).rules) (hactive : x.active = true) :
    x ∈ s.rules ∧ x.activeFor key = false := by
  obtain ⟨old, hold, rfl⟩ :=
    (Table.mem_updateWhere (CommitmentSenderRule.deactivated_id now)).mp hx
  split at hactive
  next => cases hactive
  next hnot =>
    rw [if_neg hnot]
    exact ⟨hold, by simpa using hnot⟩

/-- A request has tried to deactivate the rules of its sender, and where it goes on none is
active. -/
theorem RuleInv.deactivate (h : RuleInv s) (hr : r ∈ s.requests)
    {rules : Table CommitmentSenderRule Nat CommitmentSenderRule.id}
    (hrules : ∀ x ∈ rules, x.active = true → x ∈ s.rules) {stage : Stage}
    (hnone : stage.isCreateRule = true → ∀ x ∈ rules, x.activeFor r.prompt.key = false) :
    RuleInv
      (State.proceed { s with rules := rules, log := .deactivating r.number :: s.log } r stage) where
  single := fun a ha b hb hactive hactive' =>
    h.single a (hrules a ha hactive) b (hrules b hb hactive') hactive hactive'
  waiting := by
    intro other hother hcreates x hx hactive
    rcases mem_proceed hother with ⟨old, hold, hnumber, rfl⟩ | ⟨hold, hnumber⟩
    · rw [Table.eq_of_key_eq hold hr hnumber] at hactive
      have hfalse := hnone hcreates x hx
      rw [show x.activeFor r.prompt.key = true from hactive] at hfalse
      cases hfalse
    · have hrule : x.active = true := (Bool.and_eq_true .. ▸ hactive).1
      have hbefore := h.waiting other hold hcreates x (hrules x hx hrule) hactive
      show (Log.since _ (.deactivating r.number :: s.log)).any _ = true
      rw [Log.since_cons_of_ne (by simp only [ne_eq, Entry.deactivating.injEq]; omega),
        List.any_cons, hbefore, Bool.or_true]

/-- A rule is inserted where its sender has none. -/
theorem RuleInv.createRule (h : RuleInv s) {key : SenderKey} {row : CommitmentSenderRule}
    (hrow : row.key = key) (promptId nextRule : Nat)
    (hnone : ∀ x ∈ s.rules, x.activeFor key = false) :
    RuleInv
      { s with
        rules := s.rules.insertOrIgnore row
        nextRule := nextRule
        log := .rule promptId key :: s.log } where
  single := by
    have hold : ∀ x ∈ s.rules, x.active = true → x.key ≠ row.key := by
      intro x hx hactive heq
      have hfalse := hnone x hx
      simp [CommitmentSenderRule.activeFor, hactive, heq, hrow] at hfalse
    intro a ha b hb hactive hactive' hkey
    rcases Table.mem_insertOrIgnore.mp ha with haold | ⟨-, hanew⟩
    · rcases Table.mem_insertOrIgnore.mp hb with hbold | ⟨-, hbnew⟩
      · exact h.single a haold b hbold hactive hactive' hkey
      · exact absurd (hbnew ▸ hkey) (hold a haold hactive)
    · rcases Table.mem_insertOrIgnore.mp hb with hbold | ⟨-, hbnew⟩
      · exact absurd (hanew ▸ hkey.symm) (hold b hbold hactive')
      · rw [hanew, hbnew]
  waiting := by
    intro r hr hcreates x hx hactive
    show (Log.since _ (.rule promptId key :: s.log)).any _ = true
    rw [Log.since_cons_of_ne (by simp), List.any_cons]
    rcases Table.mem_insertOrIgnore.mp hx with hx | ⟨-, rfl⟩
    · rw [h.waiting r hr hcreates x hx hactive, Bool.or_true]
    · simp only [CommitmentSenderRule.activeFor, Bool.and_eq_true, decide_eq_true_eq] at hactive
      simp [Entry.isRuleFor, ← hrow, hactive.2]

theorem RuleInv.advance (h : RuleInv s) (hr : r ∈ s.requests) (now : Int) (fate : StatementFate)
    (hdeactivate : r.stage = .deactivate .alwaysTrack → fate = .refused →
      ∀ x ∈ s.rules.rows, x.activeFor r.prompt.key = false)
    (hcreate : r.stage.isCreateRule = true → fate ≠ .refused →
      (Log.since (.deactivating r.number) s.log).any (Entry.isRuleFor r.prompt.key) = false) :
    RuleInv (s.advance r now fate) := by
  unfold State.advance State.attempt
  cases hstage : r.stage with
  | createEvent always =>
      have hwritten : RuleInv (s.written r now (.createEvent always)) :=
        h.keep (fun _ hx _ => hx) rfl (Or.inr ⟨_, fun _ => by simp, rfl⟩)
      have hafter := fate.after_keeps RuleInv h hwritten
      exact hafter.proceed r (by cases always <;> cases fate <;> rfl)
  | createLink always eventId =>
      have hwritten : RuleInv (s.written r now (.createLink always eventId)) :=
        h.keep (fun _ hx _ => hx) rfl (Or.inr ⟨_, fun _ => by simp, rfl⟩)
      exact (fate.after_keeps RuleInv h hwritten).proceed r rfl
  | setEventId always eventId =>
      have hwritten : RuleInv (s.written r now (.setEventId always eventId)) :=
        h.keep (fun _ hx _ => hx) rfl (Or.inl rfl)
      exact (fate.after_keeps RuleInv h hwritten).proceed r (by cases always <;> rfl)
  | seed label =>
      have hwritten : RuleInv (s.written r now (.seed label)) :=
        h.keep (fun _ hx _ => hx) rfl (Or.inr ⟨_, fun _ => by simp, rfl⟩)
      exact (fate.after_keeps RuleInv h hwritten).proceed r rfl
  | claim reply =>
      exact (fate.after_keeps RuleInv h h).proceed r rfl
  | ended => exact (fate.after_keeps RuleInv h h).proceed r rfl
  | createRule rule =>
      have hnext : ((Stage.createRule rule).next s.nextEvent fate).isCreateRule = false := by
        cases rule <;> rfl
      have hwritten : fate ≠ .refused → RuleInv (s.written r now (.createRule rule)) := by
        intro hne
        apply h.createRule rfl
        intro x hx
        by_contra hactive
        have hcreates : r.stage.isCreateRule = true := by rw [hstage]; rfl
        have hsince := h.waiting r hr hcreates x hx (by simpa using hactive)
        rw [hcreate hcreates hne] at hsince
        cases hsince
      cases fate with
      | done => exact (hwritten (by simp)).proceed r hnext
      | refused => exact h.proceed r hnext
      | lost => exact (hwritten (by simp)).proceed r hnext
  | deactivate rule =>
      have hmarked : ∀ x ∈ (s.deactivateExistingRules r.prompt.key now).rules, x.active = true →
          x ∈ s.rules := fun x hx hactive => (mem_deactivateExistingRules hx hactive).1
      have hnone : ∀ x ∈ (s.deactivateExistingRules r.prompt.key now).rules,
          x.activeFor r.prompt.key = false := by
        intro x hx
        by_contra htrue
        have hactive : x.activeFor r.prompt.key = true := by simpa using htrue
        have hnot := mem_deactivateExistingRules hx (Bool.and_eq_true .. ▸ hactive).1
        exact htrue hnot.2
      cases fate with
      | done => exact h.deactivate hr hmarked (fun _ => hnone)
      | lost => exact h.deactivate hr hmarked (fun _ => hnone)
      | refused =>
          cases rule with
          | mute => exact h.deactivate hr (fun _ hx _ => hx) (fun hfalse => by cases hfalse)
          | alwaysTrack =>
              exact h.deactivate hr (fun _ hx _ => hx) (fun _ => hdeactivate hstage rfl)

theorem RuleInv.claim (h : RuleInv s) (r : Request) (reply : Reply) (now : Int)
    (fate : StatementFate) : RuleInv (s.claim r reply now fate) := by
  have hclaimed : RuleInv (s.claimPrompt r.prompt.id reply.text now) :=
    h.keep (fun _ hx _ => hx) rfl (Or.inl rfl)
  have hafter := fate.after_keeps RuleInv h hclaimed
  unfold State.claim
  split
  · exact hafter.proceed r (by cases reply <;> rfl)
  · exact hafter.proceed r rfl

theorem RuleInv.start (h : RuleInv s) (p : CommitmentPrompt) (now : Int) (reply : Reply) :
    RuleInv (s.start p now reply) where
  single := h.single
  waiting := by
    intro r hr hcreates
    rcases Table.mem_insertOrIgnore.mp hr with hold | ⟨-, rfl⟩
    · exact h.waiting r hold hcreates
    · cases hcreates

theorem RuleInv.createPrompt (h : RuleInv s) (p : CommitmentPrompt) :
    RuleInv (s.createPrompt p) := by
  unfold State.createPrompt
  split
  · exact h
  · exact h.keep (fun _ hx _ => hx) rfl (Or.inl rfl)

/-! ## Runs -/

theorem find_spec {number : Nat} (h : s.requests.find? number = some r) :
    r ∈ s.requests ∧ r.number = number :=
  Table.find?_eq_some_iff.mp h

theorem step_advance {number : Nat} {now : Int} {fate : StatementFate}
    (h : step s (.advance number now fate) = some t) :
    ∃ r, s.requests.find? number = some r ∧
      ((∃ reply, t = s.claim r reply now fate) ∨ t = s.advance r now fate) := by
  obtain ⟨r, hfind, hr⟩ := Option.bind_eq_some_iff.mp h
  refine ⟨r, hfind, ?_⟩
  split at hr
  next => cases hr
  next reply _ => exact Or.inl ⟨reply, (Option.some.inj hr).symm⟩
  next => exact Or.inr (Option.some.inj hr).symm

theorem step_reply {userId now : Int} {body : String} {promptId : Nat}
    (h : step s (.reply userId body now promptId) = some t) :
    ∃ p reply, t = s.start p now reply := by
  obtain ⟨reply, -, hreply⟩ := Option.bind_eq_some_iff.mp h
  obtain ⟨p, -, hp⟩ := Option.bind_eq_some_iff.mp hreply
  split at hp
  next => exact ⟨p, reply, (Option.some.inj hp).symm⟩
  next => cases hp

/-- Every statement of every request, of the prompts and of the dashboard stays in the budget. -/
theorem budget_step {a : Action} (h : Budget s) (hstep : step s a = some t) : Budget t := by
  cases a with
  | createPrompt =>
      rw [← Option.some.inj hstep]
      exact h.createPrompt rfl
  | expirePrompt promptId now =>
      rw [← Option.some.inj hstep]
      apply h.of_le
      apply spent_withPrompts
      intro x hnone
      simp [CommitmentPrompt.expired] at hnone
  | reply =>
      obtain ⟨p, reply, rfl⟩ := step_reply hstep
      exact h.start p _ reply
  | advance number now fate =>
      obtain ⟨r, hfind, ⟨reply, rfl⟩ | rfl⟩ := step_advance hstep
      · exact h.claim (find_spec hfind).1 reply now fate
      · exact h.advance (find_spec hfind).1 now fate
  | abandon number =>
      obtain ⟨r, hfind, rfl⟩ := Option.map_eq_some_iff.mp hstep
      exact h.finish (find_spec hfind).1
  | deactivateRule =>
      rw [← Option.some.inj hstep]
      exact h

theorem ruleInv_step {a : Action} (h : RuleInv s) (hok : InTurn s a) (hstep : step s a = some t) :
    RuleInv t := by
  cases a with
  | createPrompt =>
      rw [← Option.some.inj hstep]
      exact h.createPrompt _
  | expirePrompt =>
      rw [← Option.some.inj hstep]
      exact h.keep (fun _ hx _ => hx) rfl (Or.inl rfl)
  | reply =>
      obtain ⟨p, reply, rfl⟩ := step_reply hstep
      exact h.start p _ reply
  | advance number now fate =>
      obtain ⟨r, hfind, ⟨reply, rfl⟩ | rfl⟩ := step_advance hstep
      · exact h.claim r reply now fate
      · obtain ⟨hr, hnumber⟩ := find_spec hfind
        have hturn := hok r hfind
        rw [← hnumber] at hturn
        exact h.advance hr now fate hturn.1 hturn.2
  | abandon number =>
      obtain ⟨r, -, rfl⟩ := Option.map_eq_some_iff.mp hstep
      exact h.proceed r rfl
  | deactivateRule userId ruleId now =>
      rw [← Option.some.inj hstep]
      refine h.keep (fun x hx hactive => ?_) rfl (Or.inl rfl)
      obtain ⟨old, hold, rfl⟩ :=
        (Table.mem_updateWhere (CommitmentSenderRule.deactivated_id now)).mp hx
      split at hactive
      next => cases hactive
      next hnot =>
        rw [if_neg hnot]
        exact hold

/-- In every run an effect of a prompt is applied at most once; where rules are inserted in turn, a
sender has at most one active rule. -/
theorem prompts_take_effect_once {actions : List Action}
    (hrun : Transition.run step init actions = some s) :
    EffectsOnce s.log ∧ (Transition.Meets step InTurn init actions → OneActiveRule s) := by
  constructor
  · have hbudget : Budget s :=
      Transition.run_invariant_all (fun _ _ _ h hstep => budget_step h hstep) budget_init hrun
    exact hbudget.effectsOnce
  · intro hmeets
    have hrules : RuleInv s :=
      Transition.run_invariant (fun _ _ _ h hok hstep => ruleInv_step h hok hstep) ruleInv_init
        hmeets hrun
    exact hrules.single

/-! ## Replies in turn and at once -/

def mother : SenderKey := ⟨7, "whatsapp", "mother"⟩

/-- The sender of a first prompt is always tracked, that of a second one, the same, is muted; each
reply comes twice. -/
def inTurn : List Action :=
  [.createPrompt mother 11 "call back" none none 100, .reply 7 "2" 110 0, .reply 7 "2" 110 0,
    .advance 0 111 .done, .advance 1 111 .done, .advance 0 112 .done, .advance 0 112 .done,
    .advance 0 113 .done, .advance 0 114 .done, .advance 0 115 .done, .advance 0 116 .done,
    .createPrompt mother 12 "buy milk" none none 200, .reply 7 "3" 210 1, .advance 2 211 .done,
    .advance 2 212 .done, .advance 2 213 .done]

theorem prompts_take_effect_once_in_turn :
    EffectsOnce (Transition.final step init inTurn).log ∧
      OneActiveRule (Transition.final step init inTurn) :=
  (prompts_take_effect_once
    (Transition.run_eq_final (show (Transition.run step init inTurn).isSome = true by
      decide +kernel))).imp_right
    (fun hrules => hrules (show Transition.Meets step InTurn init inTurn by decide +kernel))

/-- Two requests deactivate the rules of the sender before either of them inserts its own. -/
def atOnce : List Action :=
  [.createPrompt mother 11 "call back" none none 100, .reply 7 "3" 110 0, .advance 0 111 .done,
    .createPrompt mother 12 "buy milk" none none 112, .reply 7 "3" 113 1, .advance 1 114 .done,
    .advance 0 115 .done, .advance 1 115 .done, .advance 0 116 .done, .advance 1 116 .done]

theorem two_active_rules :
    ∃ s, Transition.run step init atOnce = some s ∧ ¬ OneActiveRule s := by
  refine ⟨_, Transition.run_eq_final (by decide +kernel), ?_⟩
  intro h
  have hfirst : (⟨0, mother, .mute, RULE_SOURCE_SMS, true, 116, none⟩ : CommitmentSenderRule) ∈
      (Transition.final step init atOnce).rules := by decide +kernel
  have hsecond : (⟨1, mother, .mute, RULE_SOURCE_SMS, true, 116, none⟩ : CommitmentSenderRule) ∈
      (Transition.final step init atOnce).rules := by decide +kernel
  exact absurd (h _ hfirst _ hsecond rfl rfl rfl) (by decide)

end Lightfriend.Proactive.CommitmentReply
