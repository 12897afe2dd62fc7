import Lightfriend.Core.Database
import Lightfriend.Core.Log
import Lightfriend.Core.Transition

/-! # Reply watches

A watch asks for one notification of the next reply of a conversation. Arming
replaces the watches of the conversation, a reply claims them by deleting their
rows, and a notification that fails puts the claimed row back.
-/

namespace Lightfriend.Proactive.ReplyWatch

/-- What a watch waits for: a reply in a room, or one from a sender to an account. -/
inductive Conversation
  | bridge (userId : Int) (roomId : String)
  | email (userId imapConnectionId : Int) (contactIdentifier : String)
deriving DecidableEq, Repr

def Conversation.userId : Conversation → Int
  | .bridge userId _ => userId
  | .email userId _ _ => userId

/-- The label by which the agent's cap counts watches. -/
def Conversation.group : Conversation → String
  | .bridge _ roomId => "bridge:" ++ roomId
  | .email _ _ contact => "email:" ++ contact

structure NewPendingReplyWatch where
  conversation : Conversation
  contactDisplayName : String
  createdAt : Int
  expiresAt : Int
deriving DecidableEq, Repr

structure PendingReplyWatch extends NewPendingReplyWatch where
  id : Int
deriving DecidableEq, Repr

/-- A transaction that has run its first statement: the rows its delete has found, and the watches
that it is going to insert. -/
structure Arming where
  number : Nat
  found : List Int
  watches : List NewPendingReplyWatch
  /-- The user whose row the transaction has locked. -/
  locked : Option Int
deriving DecidableEq, Repr

/-- A claimed watch whose notification is on its way. -/
structure Claim where
  number : Nat
  watch : PendingReplyWatch
deriving DecidableEq, Repr

inductive Entry
  /-- The first statement of a transaction that arms. -/
  | began (number : Nat)
  | armed (conversation : Conversation)
  | claimed (c : Claim)
  | notified (conversation : Conversation)
  | restored (c : Claim)
  /-- The user has asked for the deletion of a row. -/
  | deleted (userId id : Int)
deriving DecidableEq, Repr

structure State where
  rows : List PendingReplyWatch
  nextId : Int
  clock : Int
  armings : List Arming
  claims : List Claim
  nextNumber : Nat
  log : List Entry
deriving DecidableEq, Repr

def init : State := ⟨[], 1, 0, [], [], 0, []⟩

def defaultTtlSeconds : Int := 24 * 60 * 60

namespace State

def active (s : State) (r : PendingReplyWatch) : Bool := decide (s.clock < r.expiresAt)

/-- The rows that a claim of the conversation deletes. -/
def claimable (s : State) (conversation : Conversation) (r : PendingReplyWatch) : Bool :=
  decide (r.conversation = conversation) && s.active r

def begin (s : State) (found : List Int) (watches : List NewPendingReplyWatch)
    (locked : Option Int) : State :=
  { s with
    armings := s.armings ++ [⟨s.nextNumber, found, watches, locked⟩]
    nextNumber := s.nextNumber + 1
    log := .began s.nextNumber :: s.log }

/-- The first statement of `arm_bridge` and `arm_email`: rows are found whether they have expired
or not. -/
def arm (s : State) (conversation : Conversation) (displayName : String) (now : Int) : State :=
  s.begin ((s.rows.filter (fun r => r.conversation = conversation)).map PendingReplyWatch.id)
    [⟨conversation, displayName, now, now + defaultTtlSeconds⟩] none

/-- The labels of the user's watches that are active at a time. -/
def activeGroups (s : State) (userId now : Int) : List String :=
  ((s.rows.filter (fun r => r.conversation.userId = userId ∧ now < r.expiresAt)).map
    (fun r => r.conversation.group)).dedup

/-- `create_email_reply_watches` up to its inserts. -/
def createEmailReplyWatches (s : State) (userId : Int) (connectionIds : List Int)
    (email label : String) (now expiresAt : Int) (maxActive : Nat) : State :=
  if connectionIds.isEmpty || decide ("email:" ++ email ∈ s.activeGroups userId now) ||
      decide (maxActive ≤ (s.activeGroups userId now).length) then s
  else
    s.begin [] (connectionIds.map (fun c => ⟨.email userId c email, label, now, expiresAt⟩))
      (some userId)

def inserted (nextId : Int) : List NewPendingReplyWatch → List PendingReplyWatch
  | [] => []
  | w :: rest => ⟨w, nextId⟩ :: inserted (nextId + 1) rest

/-- The deletes and inserts of a transaction become visible; a row that is gone already is passed
over. -/
def commit (s : State) (a : Arming) : State :=
  { s with
    rows := s.rows.filter (fun r => r.id ∉ a.found) ++ inserted s.nextId a.watches
    nextId := s.nextId + a.watches.length
    armings := s.armings.erase a
    log := (a.watches.map (fun w => Entry.armed w.conversation)).reverse ++ s.log }

/-- `claim_active_bridge` and `claim_active_email`: all rows go, the last one is claimed. -/
def claim (s : State) (conversation : Conversation) : State :=
  match (s.rows.filter (s.claimable conversation)).getLast? with
  | none => s
  | some watch =>
      { s with
        rows := s.rows.filter (fun r => !s.claimable conversation r)
        claims := s.claims ++ [⟨s.nextNumber, watch⟩]
        nextNumber := s.nextNumber + 1
        log := .claimed ⟨s.nextNumber, watch⟩ :: s.log }

/-- The notification of a claim is over. -/
def finish (s : State) (c : Claim) : State := { s with claims := s.claims.erase c }

def notify (s : State) (c : Claim) : State :=
  { s.finish c with log := .notified c.watch.conversation :: s.log }

/-- The watch is put back with its own expiry, under a new id. -/
def restore (s : State) (c : Claim) : State :=
  { s.finish c with
    rows := s.rows ++ [⟨c.watch.toNewPendingReplyWatch, s.nextId⟩]
    nextId := s.nextId + 1
    log := .restored c :: s.log }

def deleteForUser (s : State) (userId id : Int) : State :=
  { s with
    rows := s.rows.filter (fun r => !decide (r.id = id ∧ r.conversation.userId = userId))
    log := .deleted userId id :: s.log }

def deleteExpired (s : State) : State :=
  { s with rows := s.rows.filter (fun r => !decide (r.expiresAt ≤ s.clock)) }

end State

inductive Action
  | tick (seconds : Nat)
  | arm (conversation : Conversation) (displayName : String) (now : Int)
  | createEmailReplyWatches (userId : Int) (connectionIds : List Int) (email label : String)
      (now expiresAt : Int) (maxActive : Nat)
  | commit (number : Nat)
  | rollback (number : Nat)
  | claim (conversation : Conversation)
  /-- Quiet mode: the watch is cleared without a notification. -/
  | suppress (number : Nat)
  | notify (number : Nat)
  /-- No user to notify, or the notification fails. -/
  | fail (number : Nat) (fate : StatementFate)
  | deleteForUser (userId id : Int)
  | deleteExpired
deriving DecidableEq, Repr

/-- The transaction of a number. -/
def State.arming? (s : State) (number : Nat) : Option Arming :=
  s.armings.find? (fun a => a.number = number)

def State.claim? (s : State) (number : Nat) : Option Claim :=
  s.claims.find? (fun c => c.number = number)

def step (s : State) : Action → Option State
  | .tick seconds => some { s with clock := s.clock + seconds }
  -- the time is read before the transaction
  | .arm conversation displayName now =>
      if now ≤ s.clock then some (s.arm conversation displayName now) else none
  -- the accounts come from a query of ids, and the row of the user is locked
  | .createEmailReplyWatches userId connectionIds email label now expiresAt maxActive =>
      if now ≤ s.clock ∧ connectionIds.Nodup ∧ ∀ a ∈ s.armings, a.locked ≠ some userId then
        some (s.createEmailReplyWatches userId connectionIds email label now expiresAt maxActive)
      else none
  | .commit number => (s.arming? number).map s.commit
  | .rollback number =>
      (s.arming? number).map (fun a => { s with armings := s.armings.erase a })
  | .claim conversation => some (s.claim conversation)
  | .suppress number => (s.claim? number).map s.finish
  | .notify number => (s.claim? number).map s.notify
  | .fail number fate => (s.claim? number).map (fun c => fate.after (s.finish c) (s.restore c))
  | .deleteForUser userId id => some (s.deleteForUser userId id)
  | .deleteExpired => some s.deleteExpired

/-! ## What the watches promise -/

/-- Does the entry insert a watch of the conversation? -/
def Entry.inserts (conversation : Conversation) : Entry → Bool
  | .armed c => decide (c = conversation)
  | .restored c => decide (c.watch.conversation = conversation)
  | _ => false

/-- No watch of the conversation was inserted since the mark. -/
def Fresh (s : State) (mark : Entry) (conversation : Conversation) : Prop :=
  ∀ e ∈ Log.since mark s.log, e.inserts conversation = false

instance (s : State) (mark : Entry) (conversation : Conversation) :
    Decidable (Fresh s mark conversation) :=
  inferInstanceAs (Decidable (∀ e ∈ Log.since mark s.log, e.inserts conversation = false))

/-- No conversation has two active watches. -/
def OneActive (s : State) : Prop :=
  ((s.rows.filter s.active).map (fun r => r.conversation)).Nodup

/-- A conversation is notified of at most as often as it was armed. -/
def NotifiedAsArmed (s : State) : Prop :=
  ∀ conversation, s.log.count (.notified conversation) ≤ s.log.count (.armed conversation)

/-- A claimed watch is put back only where its conversation was not armed, nor its row deleted by
the user, since the claim. -/
def NotBroughtBack (log : List Entry) : Prop :=
  ∀ later earlier c, log = later ++ .restored c :: earlier →
    .armed c.watch.conversation ∉ Log.since (.claimed c) earlier ∧
      .deleted c.watch.conversation.userId c.watch.id ∉ Log.since (.claimed c) earlier

/-- A transaction commits where no other insert of its conversations came between its statements,
and a notification fails where no watch was inserted, and the claimed one not deleted, since the
claim. -/
def InTurn (s : State) : Action → Prop
  | .commit number =>
      ∀ a ∈ s.arming? number, ∀ w ∈ a.watches, Fresh s (.began a.number) w.conversation
  | .fail number fate => fate ≠ .refused → ∀ c ∈ s.claim? number,
      Fresh s (.claimed c) c.watch.conversation ∧
        .deleted c.watch.conversation.userId c.watch.id ∉ Log.since (.claimed c) s.log
  | _ => True

instance (s : State) (a : Action) : Decidable (InTurn s a) := by
  cases a <;> unfold InTurn <;> infer_instance

/-! ## The invariant -/

structure Inv (s : State) : Prop where
  oneActive : OneActive s
  numbered : ∀ a ∈ s.armings, a.number < s.nextNumber
  distinct : ∀ a ∈ s.armings, (a.watches.map NewPendingReplyWatch.conversation).Nodup
  /-- The delete of a transaction has found all that is active, as long as nothing came between. -/
  found : ∀ a ∈ s.armings, ∀ w ∈ a.watches, Fresh s (.began a.number) w.conversation →
    ∀ r ∈ s.rows, s.active r = true → r.conversation = w.conversation → r.id ∈ a.found
  claimNumbered : ∀ c ∈ s.claims, c.number < s.nextNumber
  /-- A claim has left no active row, as long as nothing came after. -/
  taken : ∀ c ∈ s.claims, Fresh s (.claimed c) c.watch.conversation →
    ∀ r ∈ s.rows, s.active r = true → r.conversation ≠ c.watch.conversation
  notBack : NotBroughtBack s.log

variable {s t : State}

theorem inv_init : Inv init where
  oneActive := List.nodup_nil
  numbered := fun _ h => by cases h
  distinct := fun _ h => by cases h
  found := fun _ h => by cases h
  claimNumbered := fun _ h => by cases h
  taken := fun _ h => by cases h
  notBack := by
    intro later earlier c heq
    exact absurd (congrArg List.length heq) (by simp [init])

theorem Fresh.of_append {mark : Entry} {conversation : Conversation} (pre : List Entry)
    (hlog : t.log = pre ++ s.log) (hmark : mark ∉ pre) (h : Fresh t mark conversation) :
    Fresh s mark conversation := by
  intro e he
  apply h e
  rw [hlog, Log.since_append hmark]
  exact List.mem_append_right _ he

/-- An insert ends the freshness of its conversation. -/
theorem not_fresh {mark e : Entry} {conversation : Conversation} (pre : List Entry)
    (hlog : t.log = pre ++ s.log) (hmark : mark ∉ pre) (he : e ∈ pre)
    (hinserts : e.inserts conversation = true) : ¬ Fresh t mark conversation := by
  intro h
  have hin : e ∈ Log.since mark t.log := by
    rw [hlog, Log.since_append hmark]
    exact List.mem_append_left _ he
  have hnot := h e hin
  rw [hinserts] at hnot
  cases hnot

theorem NotBroughtBack.append {log : List Entry} (h : NotBroughtBack log) (pre : List Entry)
    (hpre : ∀ c, .restored c ∉ pre) : NotBroughtBack (pre ++ log) := by
  intro later earlier c heq
  obtain ⟨rest, -, hrest⟩ := Log.append_split (hpre c) heq
  exact h rest earlier c hrest

/-- Rows that have gone, and rows that were inserted for conversations without an active one. -/
theorem Inv.grow (h : Inv s) (t : State) {kept new : List PendingReplyWatch} (pre : List Entry)
    (hrows : t.rows = kept ++ new) (hkept : kept.Sublist s.rows) (hclock : s.clock ≤ t.clock)
    (harmings : ∀ a ∈ t.armings, a ∈ s.armings) (hclaims : ∀ c ∈ t.claims, c ∈ s.claims)
    (hnext : t.nextNumber = s.nextNumber) (hlog : t.log = pre ++ s.log)
    (hbegan : ∀ n, .began n ∉ pre) (hclaimed : ∀ c, .claimed c ∉ pre)
    (hnew : ∀ r ∈ new, ∃ e ∈ pre, e.inserts r.conversation = true)
    (hdistinct : (new.map (fun r => r.conversation)).Nodup)
    (hfree : ∀ r ∈ new, ∀ old ∈ kept, s.active old = true → old.conversation ≠ r.conversation)
    (hback : NotBroughtBack t.log) : Inv t := by
  have hactive : ∀ r, t.active r = true → s.active r = true := by
    intro r hr
    simp only [State.active, decide_eq_true_eq] at hr ⊢
    omega
  have hold : ∀ r ∈ kept, r ∈ s.rows := fun r hr => hkept.subset hr
  constructor
  · show ((t.rows.filter t.active).map (fun r => r.conversation)).Nodup
    rw [hrows, List.filter_append, List.map_append, List.nodup_append]
    refine ⟨?_, ?_, ?_⟩
    · have hsub : (kept.filter t.active).Sublist (s.rows.filter s.active) := by
        have hmono : (kept.filter t.active).Sublist (kept.filter s.active) :=
          List.monotone_filter_right kept hactive
        exact hmono.trans (hkept.filter s.active)
      exact h.oneActive.sublist (hsub.map _)
    · exact hdistinct.sublist ((List.filter_sublist).map _)
    · intro conversation hin other hother
      obtain ⟨old, hold', rfl⟩ := List.mem_map.mp hin
      obtain ⟨r, hr, rfl⟩ := List.mem_map.mp hother
      have hmem := List.mem_filter.mp hold'
      exact hfree r (List.mem_filter.mp hr).1 old hmem.1 (hactive old hmem.2)
  · intro a ha
    rw [hnext]
    exact h.numbered a (harmings a ha)
  · intro a ha
    exact h.distinct a (harmings a ha)
  · intro a ha w hw hfresh r hr hlive hconv
    rw [hrows] at hr
    rcases List.mem_append.mp hr with hr | hr
    · exact h.found a (harmings a ha) w hw (hfresh.of_append pre hlog (hbegan _)) r (hold r hr)
        (hactive r hlive) hconv
    · obtain ⟨e, he, hinserts⟩ := hnew r hr
      rw [hconv] at hinserts
      exact absurd hfresh (not_fresh pre hlog (hbegan _) he hinserts)
  · intro c hc
    rw [hnext]
    exact h.claimNumbered c (hclaims c hc)
  · intro c hc hfresh r hr hlive hconv
    rw [hrows] at hr
    rcases List.mem_append.mp hr with hr | hr
    · exact h.taken c (hclaims c hc) (hfresh.of_append pre hlog (hclaimed _)) r (hold r hr)
        (hactive r hlive) hconv
    · obtain ⟨e, he, hinserts⟩ := hnew r hr
      rw [hconv] at hinserts
      exact absurd hfresh (not_fresh pre hlog (hclaimed _) he hinserts)
  · exact hback

/-- Rows, transactions and claims that have gone. -/
theorem Inv.shrink (h : Inv s) (pre : List Entry) (hrows : t.rows.Sublist s.rows)
    (hclock : s.clock ≤ t.clock) (harmings : ∀ a ∈ t.armings, a ∈ s.armings)
    (hclaims : ∀ c ∈ t.claims, c ∈ s.claims) (hnext : t.nextNumber = s.nextNumber)
    (hlog : t.log = pre ++ s.log) (hbegan : ∀ n, .began n ∉ pre) (hclaimed : ∀ c, .claimed c ∉ pre)
    (hrestored : ∀ c, .restored c ∉ pre) : Inv t := by
  have hback : NotBroughtBack t.log := by
    rw [hlog]
    exact h.notBack.append pre hrestored
  exact h.grow t pre (List.append_nil _).symm hrows hclock harmings hclaims hnext hlog hbegan hclaimed
    (fun _ hr => by cases hr) List.nodup_nil (fun _ hr => by cases hr) hback

/-! ## The steps -/

/-- A transaction begins: its delete has found all active rows of what it is going to insert. -/
theorem Inv.begin (h : Inv s) {found : List Int} {watches : List NewPendingReplyWatch}
    (locked : Option Int) (hdistinct : (watches.map NewPendingReplyWatch.conversation).Nodup)
    (hfound : ∀ w ∈ watches, ∀ r ∈ s.rows, s.active r = true → r.conversation = w.conversation →
      r.id ∈ found) : Inv (s.begin found watches locked) := by
  have hlog : (s.begin found watches locked).log = [.began s.nextNumber] ++ s.log := rfl
  constructor
  · exact h.oneActive
  · intro a ha
    show a.number < s.nextNumber + 1
    rcases List.mem_append.mp ha with ha | ha
    · have hlt := h.numbered a ha
      omega
    · rw [List.mem_singleton.mp ha]
      exact Nat.lt_succ_self _
  · intro a ha
    rcases List.mem_append.mp ha with ha | ha
    · exact h.distinct a ha
    · rw [List.mem_singleton.mp ha]
      exact hdistinct
  · intro a ha w hw hfresh r hr hlive hconv
    rcases List.mem_append.mp ha with ha | ha
    · have hne : Entry.began a.number ∉ [Entry.began s.nextNumber] := by
        have hlt := h.numbered a ha
        simp only [List.mem_singleton, Entry.began.injEq]
        omega
      exact h.found a ha w hw (hfresh.of_append _ hlog hne) r hr hlive hconv
    · rw [List.mem_singleton.mp ha] at hw ⊢
      exact hfound w hw r hr hlive hconv
  · intro c hc
    show c.number < s.nextNumber + 1
    have hlt := h.claimNumbered c hc
    omega
  · intro c hc hfresh r hr hlive
    exact h.taken c hc (hfresh.of_append _ hlog (by simp)) r hr hlive
  · rw [hlog]
    exact h.notBack.append _ (by simp)

theorem Inv.arm (h : Inv s) (conversation : Conversation) (displayName : String) (now : Int) :
    Inv (s.arm conversation displayName now) := by
  apply h.begin
  · exact List.nodup_singleton _
  · intro w hw r hr _ hconv
    rw [List.mem_singleton.mp hw] at hconv
    exact List.mem_map_of_mem (List.mem_filter.mpr ⟨hr, decide_eq_true hconv⟩)

/-- The label of an active watch is among those that the agent's transaction reads. -/
theorem mem_activeGroups {r : PendingReplyWatch} {now : Int} (hr : r ∈ s.rows)
    (hactive : s.active r = true) (hnow : now ≤ s.clock) :
    r.conversation.group ∈ s.activeGroups r.conversation.userId now := by
  have hlive : s.clock < r.expiresAt := of_decide_eq_true hactive
  refine List.mem_dedup.mpr (List.mem_map_of_mem (List.mem_filter.mpr ⟨hr, ?_⟩))
  exact decide_eq_true ⟨rfl, by omega⟩

theorem Inv.createEmailReplyWatches (h : Inv s) {userId : Int} {connectionIds : List Int}
    {email label : String} {now expiresAt : Int} {maxActive : Nat} (hnow : now ≤ s.clock)
    (hids : connectionIds.Nodup) : Inv (s.createEmailReplyWatches userId connectionIds email label
      now expiresAt maxActive) := by
  unfold State.createEmailReplyWatches
  split
  · exact h
  next hgo =>
    have hgroup : "email:" ++ email ∉ s.activeGroups userId now := by
      intro hin
      exact hgo (by simp [hin])
    apply h.begin
    · rw [List.map_map]
      exact hids.map (fun c d heq => by
        simp only [Function.comp_apply, Conversation.email.injEq] at heq
        exact heq.2.1)
    · intro w hw r hr hactive hconv
      obtain ⟨c, -, rfl⟩ := List.mem_map.mp hw
      have hin := mem_activeGroups hr hactive hnow
      rw [hconv] at hin
      exact absurd hin hgroup

theorem inserted_conversations (nextId : Int) (watches : List NewPendingReplyWatch) :
    (State.inserted nextId watches).map (fun r => r.conversation) =
      watches.map NewPendingReplyWatch.conversation := by
  induction watches generalizing nextId with
  | nil => rfl
  | cons w rest ih => rw [State.inserted, List.map_cons, List.map_cons, ih]

theorem arming?_eq_some {number : Nat} {a : Arming} (h : s.arming? number = some a) :
    a ∈ s.armings ∧ a.number = number :=
  ⟨List.mem_of_find?_eq_some h, by simpa using List.find?_some h⟩

theorem claim?_eq_some {number : Nat} {c : Claim} (h : s.claim? number = some c) :
    c ∈ s.claims ∧ c.number = number :=
  ⟨List.mem_of_find?_eq_some h, by simpa using List.find?_some h⟩

theorem Inv.commit (h : Inv s) {a : Arming} (ha : a ∈ s.armings)
    (hfresh : ∀ w ∈ a.watches, Fresh s (.began a.number) w.conversation) : Inv (s.commit a) := by
  have hwatch : ∀ r ∈ State.inserted s.nextId a.watches,
      ∃ w ∈ a.watches, w.conversation = r.conversation := by
    intro r hr
    have hin : r.conversation ∈ a.watches.map NewPendingReplyWatch.conversation := by
      rw [← inserted_conversations s.nextId]
      exact List.mem_map_of_mem hr
    exact List.mem_map.mp hin
  apply h.grow (s.commit a) _ rfl List.filter_sublist (le_refl _) (fun b hb => List.mem_of_mem_erase hb)
    (fun c hc => hc) rfl rfl
  · intro n hn
    simp at hn
  · intro c hc
    simp at hc
  · intro r hr
    obtain ⟨w, hw, heq⟩ := hwatch r hr
    refine ⟨.armed w.conversation, List.mem_reverse.mpr (List.mem_map_of_mem hw), ?_⟩
    exact decide_eq_true heq
  · rw [inserted_conversations]
    exact h.distinct a ha
  · intro r hr old hold hactive hconv
    obtain ⟨w, hw, heq⟩ := hwatch r hr
    obtain ⟨hin, hkept⟩ := List.mem_filter.mp hold
    have hfound := h.found a ha w hw (hfresh w hw) old hin hactive (hconv.trans heq.symm)
    exact of_decide_eq_true hkept hfound
  · exact h.notBack.append _ (by simp)

theorem mem_claimable {conversation : Conversation} {r : PendingReplyWatch} :
    s.claimable conversation r = true ↔ r.conversation = conversation ∧ s.active r = true := by
  simp [State.claimable]

theorem Inv.claim (h : Inv s) (conversation : Conversation) : Inv (s.claim conversation) := by
  unfold State.claim
  split
  · exact h
  next watch hlast =>
    have hwatch := mem_claimable.1 (List.mem_filter.mp (List.mem_of_getLast? hlast)).2
    have hlog : [Entry.claimed ⟨s.nextNumber, watch⟩] ++ s.log =
        .claimed ⟨s.nextNumber, watch⟩ :: s.log := rfl
    have hkept : ∀ r ∈ s.rows.filter (fun r => !s.claimable conversation r),
        r ∈ s.rows ∧ ¬ s.claimable conversation r = true := by
      intro r hr
      simpa using List.mem_filter.mp hr
    constructor
    · exact h.oneActive.sublist ((List.filter_sublist.filter _).map _)
    · intro a ha
      show a.number < s.nextNumber + 1
      have hlt := h.numbered a ha
      omega
    · exact h.distinct
    · intro a ha w hw hfresh r hr hlive hconv
      exact h.found a ha w hw (Fresh.of_append _ hlog.symm (by simp) hfresh) r (hkept r hr).1 hlive
        hconv
    · intro c hc
      show c.number < s.nextNumber + 1
      rcases List.mem_append.mp hc with hc | hc
      · have hlt := h.claimNumbered c hc
        omega
      · rw [List.mem_singleton.mp hc]
        exact Nat.lt_succ_self _
    · intro c hc hfresh r hr hlive hconv
      rcases List.mem_append.mp hc with hc | hc
      · have hne : Entry.claimed c ∉ [Entry.claimed ⟨s.nextNumber, watch⟩] := by
          intro hin
          have hlt := h.claimNumbered c hc
          have heq : c = ⟨s.nextNumber, watch⟩ := Entry.claimed.inj (List.mem_singleton.mp hin)
          rw [heq] at hlt
          exact lt_irrefl _ hlt
        exact h.taken c hc (Fresh.of_append _ hlog.symm hne hfresh) r (hkept r hr).1 hlive hconv
      · rw [List.mem_singleton.mp hc] at hconv
        exact (hkept r hr).2 (mem_claimable.2 ⟨hconv.trans hwatch.1, hlive⟩)
    · exact h.notBack.append [.claimed ⟨s.nextNumber, watch⟩] (by simp)

theorem Inv.finish (h : Inv s) (c : Claim) : Inv (s.finish c) :=
  h.shrink [] (List.Sublist.refl _) (le_refl _) (fun _ ha => ha)
    (fun _ hc => List.mem_of_mem_erase hc) rfl rfl (by simp) (by simp) (by simp)

theorem Inv.restore (h : Inv s) {c : Claim} (hc : c ∈ s.claims)
    (hfresh : Fresh s (.claimed c) c.watch.conversation)
    (hdeleted : .deleted c.watch.conversation.userId c.watch.id ∉ Log.since (.claimed c) s.log) :
    Inv (s.restore c) := by
  apply h.grow (s.restore c) [.restored c] rfl (List.Sublist.refl _) (le_refl _) (fun _ ha => ha)
    (fun _ hd => List.mem_of_mem_erase hd) rfl rfl
  · simp
  · simp
  · intro r hr
    rw [List.mem_singleton.mp hr]
    exact ⟨.restored c, List.mem_singleton_self _, decide_eq_true rfl⟩
  · exact List.nodup_singleton _
  · intro r hr old hold hactive
    rw [List.mem_singleton.mp hr]
    exact h.taken c hc hfresh old hold hactive
  · intro later earlier d heq
    rcases Log.cons_split heq with ⟨-, hx, rfl⟩ | ⟨rest, -, hlog⟩
    · cases hx
      refine ⟨fun harmed => ?_, hdeleted⟩
      have hnot := hfresh _ harmed
      simp [Entry.inserts] at hnot
    · exact h.notBack rest earlier d hlog

theorem inv_step {a : Action} (h : Inv s) (hok : InTurn s a) (hstep : step s a = some t) :
    Inv t := by
  cases a with
  | tick seconds =>
      cases hstep
      exact h.shrink [] (List.Sublist.refl _) (Int.le_add_of_nonneg_right (by omega))
        (fun _ ha => ha) (fun _ hc => hc) rfl rfl (by simp) (by simp) (by simp)
  | arm conversation displayName now =>
      simp only [step] at hstep
      split at hstep
      · cases hstep
        exact h.arm conversation displayName now
      · cases hstep
  | createEmailReplyWatches userId connectionIds email label now expiresAt maxActive =>
      simp only [step] at hstep
      split at hstep
      next hif =>
        cases hstep
        exact h.createEmailReplyWatches hif.1 hif.2.1
      · cases hstep
  | commit number =>
      obtain ⟨a, ha, rfl⟩ := Option.map_eq_some_iff.mp hstep
      exact h.commit (arming?_eq_some ha).1 (hok a ha)
  | rollback number =>
      obtain ⟨a, ha, rfl⟩ := Option.map_eq_some_iff.mp hstep
      exact h.shrink [] (List.Sublist.refl _) (le_refl _) (fun _ hb => List.mem_of_mem_erase hb)
        (fun _ hc => hc) rfl rfl (by simp) (by simp) (by simp)
  | claim conversation =>
      cases hstep
      exact h.claim conversation
  | suppress number =>
      obtain ⟨c, hc, rfl⟩ := Option.map_eq_some_iff.mp hstep
      exact h.finish c
  | notify number =>
      obtain ⟨c, hc, rfl⟩ := Option.map_eq_some_iff.mp hstep
      exact h.shrink [.notified c.watch.conversation] (List.Sublist.refl _) (le_refl _)
        (fun _ ha => ha) (fun _ hd => List.mem_of_mem_erase hd) rfl rfl (by simp) (by simp) (by simp)
  | fail number fate =>
      obtain ⟨c, hc, rfl⟩ := Option.map_eq_some_iff.mp hstep
      cases fate with
      | refused => exact h.finish c
      | done =>
          obtain ⟨hfresh, hdeleted⟩ := hok (by decide) c hc
          exact h.restore (claim?_eq_some hc).1 hfresh hdeleted
      | lost =>
          obtain ⟨hfresh, hdeleted⟩ := hok (by decide) c hc
          exact h.restore (claim?_eq_some hc).1 hfresh hdeleted
  | deleteForUser userId id =>
      cases hstep
      exact h.shrink [.deleted userId id] List.filter_sublist (le_refl _) (fun _ ha => ha)
        (fun _ hc => hc) rfl rfl (by simp) (by simp) (by simp)
  | deleteExpired =>
      cases hstep
      exact h.shrink [] List.filter_sublist (le_refl _) (fun _ ha => ha) (fun _ hc => hc) rfl rfl
        (by simp) (by simp) (by simp)

/-! ## Notifications and arms -/

def rowsOf (s : State) (conversation : Conversation) : Nat :=
  (s.rows.map (fun r => r.conversation)).count conversation

def claimsOf (s : State) (conversation : Conversation) : Nat :=
  (s.claims.map (fun c => c.watch.conversation)).count conversation

/-- Each notification, row and claim of a conversation comes from an arm of its own. -/
def Budget (s : State) : Prop :=
  ∀ conversation, s.log.count (.notified conversation) + rowsOf s conversation +
    claimsOf s conversation ≤ s.log.count (.armed conversation)

theorem Budget.notifiedAsArmed (h : Budget s) : NotifiedAsArmed s := by
  intro conversation
  have hle := h conversation
  omega

theorem rowsOf_sublist (hrows : t.rows.Sublist s.rows) (conversation : Conversation) :
    rowsOf t conversation ≤ rowsOf s conversation :=
  (hrows.map _).count_le _

/-- Rows that have gone, and entries that are neither notifications nor arms. -/
theorem Budget.shrink (h : Budget s) (pre : List Entry) (hrows : t.rows.Sublist s.rows)
    (hclaims : ∀ conversation, claimsOf t conversation ≤ claimsOf s conversation)
    (hlog : t.log = pre ++ s.log) (hnotified : ∀ conversation, .notified conversation ∉ pre)
    (harmed : ∀ conversation, .armed conversation ∉ pre) : Budget t := by
  intro conversation
  have hle := h conversation
  have hrow := rowsOf_sublist hrows conversation
  have hclaim := hclaims conversation
  rw [hlog, List.count_append, List.count_append, List.count_eq_zero.mpr (hnotified conversation),
    List.count_eq_zero.mpr (harmed conversation)]
  omega

theorem claimsOf_finish {c : Claim} (hc : c ∈ s.claims) (conversation : Conversation) :
    claimsOf s conversation = claimsOf (s.finish c) conversation +
      if c.watch.conversation = conversation then 1 else 0 := by
  have hperm := ((List.perm_cons_erase hc).map (fun d : Claim => d.watch.conversation)).count_eq
    conversation
  unfold claimsOf
  rw [hperm, List.map_cons, List.count_cons]
  simp [State.finish]

theorem count_armed (watches : List NewPendingReplyWatch) (conversation : Conversation) :
    (watches.map (fun w => Entry.armed w.conversation)).reverse.count (.armed conversation) =
      (watches.map NewPendingReplyWatch.conversation).count conversation := by
  rw [List.count_reverse]
  induction watches with
  | nil => rfl
  | cons w rest ih => simp [List.count_cons, ih]

theorem Budget.commit (h : Budget s) (a : Arming) : Budget (s.commit a) := by
  intro conversation
  have hle := h conversation
  have hrows : rowsOf (s.commit a) conversation ≤ rowsOf s conversation +
      (a.watches.map NewPendingReplyWatch.conversation).count conversation := by
    have hkept : ((s.rows.filter (fun r => r.id ∉ a.found)).map (fun r => r.conversation)).count
        conversation ≤ rowsOf s conversation := (List.filter_sublist.map _).count_le _
    show ((s.rows.filter (fun r => r.id ∉ a.found) ++ State.inserted s.nextId a.watches).map
      (fun r => r.conversation)).count conversation ≤ _
    rw [List.map_append, List.count_append, inserted_conversations]
    omega
  have hnotified : (s.commit a).log.count (.notified conversation) =
      s.log.count (.notified conversation) := by
    simp [State.commit, List.count_append, List.count_eq_zero]
  have harmed : (s.commit a).log.count (.armed conversation) =
      (a.watches.map NewPendingReplyWatch.conversation).count conversation +
        s.log.count (.armed conversation) := by
    simp only [State.commit, List.count_append, count_armed]
  have hclaims : claimsOf (s.commit a) conversation = claimsOf s conversation := rfl
  omega

theorem Budget.claim (h : Budget s) (conversation : Conversation) :
    Budget (s.claim conversation) := by
  unfold State.claim
  split
  · exact h
  next watch hlast =>
    intro other
    have hle := h other
    have hmem := List.mem_of_getLast? hlast
    have hconv : watch.conversation = conversation :=
      (mem_claimable.1 (List.mem_filter.mp hmem).2).1
    have hperm := ((List.filter_append_perm (s.claimable conversation) s.rows).map
      (fun r : PendingReplyWatch => r.conversation)).count_eq other
    rw [List.map_append, List.count_append] at hperm
    have hclaims : ((s.claims ++ [Claim.mk s.nextNumber watch]).map
        (fun c : Claim => c.watch.conversation)).count other =
        claimsOf s other + if conversation = other then 1 else 0 := by
      rw [List.map_append, List.count_append]
      simp [claimsOf, List.count_singleton, hconv]
    have htaken : (if conversation = other then 1 else 0) ≤
        ((s.rows.filter (s.claimable conversation)).map (fun r => r.conversation)).count other := by
      split
      next heq =>
        have hin : other ∈ (s.rows.filter (s.claimable conversation)).map
            (fun r => r.conversation) := List.mem_map.mpr ⟨watch, hmem, hconv.trans heq⟩
        exact List.count_pos_iff.mpr hin
      · exact Nat.zero_le _
    show List.count _ (Entry.claimed ⟨s.nextNumber, watch⟩ :: s.log) +
      ((s.rows.filter (fun r => !s.claimable conversation r)).map (fun r => r.conversation)).count
        other + ((s.claims ++ [Claim.mk s.nextNumber watch]).map
          (fun c : Claim => c.watch.conversation)).count other ≤
      List.count _ (Entry.claimed ⟨s.nextNumber, watch⟩ :: s.log)
    rw [hclaims, List.count_cons_of_ne (by simp), List.count_cons_of_ne (by simp)]
    have hrows : rowsOf s other = (s.rows.map (fun r => r.conversation)).count other := rfl
    omega

theorem Budget.notify (h : Budget s) {c : Claim} (hc : c ∈ s.claims) : Budget (s.notify c) := by
  intro conversation
  have hle := h conversation
  have hclaims := claimsOf_finish hc conversation
  have hlog : (s.notify c).log.count (.notified conversation) =
      s.log.count (.notified conversation) +
        if c.watch.conversation = conversation then 1 else 0 := by
    simp [State.notify, List.count_cons]
  have harmed : (s.notify c).log.count (.armed conversation) = s.log.count (.armed conversation) :=
    List.count_cons_of_ne (by simp)
  have hrows : rowsOf (s.notify c) conversation = rowsOf s conversation := rfl
  have hleft : claimsOf (s.notify c) conversation = claimsOf (s.finish c) conversation := rfl
  omega

theorem Budget.restore (h : Budget s) {c : Claim} (hc : c ∈ s.claims) : Budget (s.restore c) := by
  intro conversation
  have hle := h conversation
  have hclaims := claimsOf_finish hc conversation
  have hrows : rowsOf (s.restore c) conversation = rowsOf s conversation +
      if c.watch.conversation = conversation then 1 else 0 := by
    simp [rowsOf, State.restore, List.count_append, List.count_singleton]
  have hnotified : (s.restore c).log.count (.notified conversation) =
      s.log.count (.notified conversation) := List.count_cons_of_ne (by simp)
  have harmed : (s.restore c).log.count (.armed conversation) =
      s.log.count (.armed conversation) := List.count_cons_of_ne (by simp)
  have hleft : claimsOf (s.restore c) conversation = claimsOf (s.finish c) conversation := rfl
  omega

theorem budget_step {a : Action} (h : Budget s) (hstep : step s a = some t) : Budget t := by
  have hbegin : ∀ found watches locked, Budget (s.begin found watches locked) := by
    intro found watches locked
    exact h.shrink [.began s.nextNumber] (List.Sublist.refl _) (fun _ => le_refl _) rfl (by simp)
      (by simp)
  have hfinish : ∀ c ∈ s.claims, Budget (s.finish c) := by
    intro c hc
    refine h.shrink [] (List.Sublist.refl _) (fun conversation => ?_) rfl (by simp) (by simp)
    have heq := claimsOf_finish hc conversation
    omega
  cases a with
  | tick seconds =>
      cases hstep
      exact h
  | arm conversation displayName now =>
      simp only [step] at hstep
      split at hstep
      · cases hstep
        exact hbegin _ _ _
      · cases hstep
  | createEmailReplyWatches userId connectionIds email label now expiresAt maxActive =>
      simp only [step] at hstep
      split at hstep
      · cases hstep
        unfold State.createEmailReplyWatches
        split
        · exact h
        · exact hbegin _ _ _
      · cases hstep
  | commit number =>
      obtain ⟨a, ha, rfl⟩ := Option.map_eq_some_iff.mp hstep
      exact h.commit a
  | rollback number =>
      obtain ⟨a, ha, rfl⟩ := Option.map_eq_some_iff.mp hstep
      exact h
  | claim conversation =>
      cases hstep
      exact h.claim conversation
  | suppress number =>
      obtain ⟨c, hc, rfl⟩ := Option.map_eq_some_iff.mp hstep
      exact hfinish c (claim?_eq_some hc).1
  | notify number =>
      obtain ⟨c, hc, rfl⟩ := Option.map_eq_some_iff.mp hstep
      exact h.notify (claim?_eq_some hc).1
  | fail number fate =>
      obtain ⟨c, hc, rfl⟩ := Option.map_eq_some_iff.mp hstep
      have hmem := (claim?_eq_some hc).1
      exact fate.after_keeps Budget (hfinish c hmem) (h.restore hmem)
  | deleteForUser userId id =>
      cases hstep
      exact h.shrink [.deleted userId id] List.filter_sublist (fun _ => le_refl _) rfl (by simp)
        (by simp)
  | deleteExpired =>
      cases hstep
      exact h.shrink [] List.filter_sublist (fun _ => le_refl _) rfl (by simp) (by simp)

/-! ## Runs -/

/-- Over every run a conversation is notified of at most as often as it was armed; and where no
insert of a watch comes between the statements of a transaction, or between a claim and its failed
notification, a conversation has one active watch and no claimed one is brought back after the user
has replaced or deleted it. -/
theorem watches_oneShot {s : State} {actions : List Action}
    (hrun : Transition.run step init actions = some s) :
    NotifiedAsArmed s ∧
      (Transition.Meets step InTurn init actions → OneActive s ∧ NotBroughtBack s.log) := by
  have hinit : Budget init := fun _ => le_refl _
  have hbudget : Budget s :=
    Transition.run_invariant_all (fun _ _ _ h hs => budget_step h hs) hinit hrun
  refine ⟨hbudget.notifiedAsArmed, fun hmeets => ?_⟩
  have hinv : Inv s :=
    Transition.run_invariant (fun _ _ _ h hok hs => inv_step h hok hs) inv_init hmeets hrun
  exact ⟨hinv.oneActive, hinv.notBack⟩

def annsRoom : Conversation := .bridge 1 "!ann:local"

/-- The first notification fails; the watch is put back and claimed by the next reply. -/
def retryRun : List Action :=
  [.arm annsRoom "Ann" 0, .commit 0, .createEmailReplyWatches 1 [4, 9] "bo@mail.local" "Bo" 0 600 5,
    .claim annsRoom, .commit 1, .fail 2 .done, .tick 30, .claim annsRoom, .notify 3]

/-- The user arms the room again while the first notification is on its way, and that one fails. -/
def rearmRun : List Action :=
  [.arm annsRoom "Ann" 0, .commit 0, .claim annsRoom, .arm annsRoom "Ann" 0, .commit 2,
    .fail 1 .done]

def annsClaim : Claim := ⟨1, ⟨⟨annsRoom, "Ann", 0, 86400⟩, 1⟩⟩

theorem retryRun_oneShot :
    NotifiedAsArmed (Transition.final step init retryRun) ∧
      OneActive (Transition.final step init retryRun) ∧
      NotBroughtBack (Transition.final step init retryRun).log := by
  have hshot := watches_oneShot
    (show Transition.run step init retryRun = some (Transition.final step init retryRun) from
      Transition.run_eq_final (by decide +kernel))
  exact ⟨hshot.1, hshot.2 (by decide +kernel)⟩

/-- Two watches are active, and the old one is back. -/
theorem rearmRun_stacks : ¬ OneActive (Transition.final step init rearmRun) ∧
    ¬ NotBroughtBack (Transition.final step init rearmRun).log := by
  constructor
  · unfold OneActive
    decide +kernel
  · intro h
    have hlog : (Transition.final step init rearmRun).log = [] ++ .restored annsClaim ::
        [.armed annsRoom, .began 2, .claimed annsClaim, .armed annsRoom, .began 0] := by
      decide +kernel
    exact (h [] _ annsClaim hlog).1 (by decide)

end Lightfriend.Proactive.ReplyWatch
