import Lightfriend.Core.Database
import Lightfriend.Core.Log
import Lightfriend.Core.Table
import Lightfriend.Core.Transition

/-! # Reminders to open WhatsApp

A bridge keeps the time of the last activity in the native app and the time of the
reminder about it. A reminder is claimed for the activity that the check has read,
and the claim is released when the reminder is not delivered. An activity is
recorded whatever time is stored.
-/

namespace Lightfriend.Bridge.NativeActivity

structure PgBridge where
  id : Int
  userId : Int
  bridgeType : String
  status : String
  lastNativeActivityAt : Option Int
  nativeActivityRemindedAt : Option Int
deriving DecidableEq, Repr

namespace PgBridge

def isWhatsappOf (userId : Int) (b : PgBridge) : Bool :=
  decide (b.userId = userId) && b.bridgeType == "whatsapp"

def recorded (occurredAt : Int) (b : PgBridge) : PgBridge :=
  { b with lastNativeActivityAt := some occurredAt, nativeActivityRemindedAt := none }

def reminded (remindedAt : Option Int) (b : PgBridge) : PgBridge :=
  { b with nativeActivityRemindedAt := remindedAt }

def withStatus (status : String) (b : PgBridge) : PgBridge := { b with status := status }

theorem recorded_id (occurredAt : Int) (b : PgBridge) : (b.recorded occurredAt).id = b.id := rfl

theorem reminded_id (remindedAt : Option Int) (b : PgBridge) : (b.reminded remindedAt).id = b.id := rfl

theorem withStatus_id (status : String) (b : PgBridge) : (b.withStatus status).id = b.id := rfl

end PgBridge

abbrev Bridges := Table PgBridge Int PgBridge.id

/-- A bridge that a check has found due. -/
structure Due where
  userId : Int
  bridgeId : Int
  lastActivityAt : Int
  /-- The time of the check, and of the claim. -/
  now : Int
deriving DecidableEq, Repr

/-- A claim whose reminder is being sent. -/
structure Claim where
  number : Nat
  due : Due
deriving DecidableEq, Repr

inductive Entry
  /-- An activity of the user, at the instant it is stored. -/
  | recorded (userId occurredAt : Int)
  | claimed (c : Claim)
  | delivered (number : Nat)
deriving DecidableEq, Repr

structure State where
  bridges : Bridges
  due : List Due
  sending : List Claim
  nextNumber : Nat
  log : List Entry

def init (bridges : Bridges) : State := ⟨bridges, [], [], 0, []⟩

inductive Action
  | record (userId occurredAt : Int) (fate : StatementFate)
  | setStatus (bridgeId : Int) (status : String)
  | check (now : Int)
  | claim (d : Due) (fate : StatementFate)
  | deliver (number : Nat)
  /-- The reminder was not delivered. -/
  | release (number : Nat) (fate : StatementFate)
deriving DecidableEq, Repr

/-- Twelve days. -/
def WHATSAPP_NATIVE_ACTIVITY_REMINDER_AFTER_SECS : Int := 12 * 24 * 60 * 60

/-- `i32::saturating_sub`. -/
def saturatingSub (a b : Int) : Int := max (-2147483648) (min 2147483647 (a - b))

def whatsappNativeActivityReminderDue (lastActivityAt remindedAt : Option Int) (now : Int) : Bool :=
  match lastActivityAt with
  | none => false
  | some last =>
      decide (WHATSAPP_NATIVE_ACTIVITY_REMINDER_AFTER_SECS ≤ saturatingSub now last) &&
        remindedAt.all (fun at_ => decide (at_ < last))

/-- A connected bridge as the check reads it. -/
def dueOf (now : Int) (b : PgBridge) : Option Due :=
  if b.status == "connected" && b.bridgeType == "whatsapp" &&
      whatsappNativeActivityReminderDue b.lastNativeActivityAt b.nativeActivityRemindedAt now then
    b.lastNativeActivityAt.map (fun last => ⟨b.userId, b.id, last, now⟩)
  else none

/-- The filters of the claim. -/
def claimable (d : Due) (b : PgBridge) : Bool :=
  decide (b.id = d.bridgeId) && b.bridgeType == "whatsapp" && b.status == "connected" &&
    decide (b.lastNativeActivityAt = some d.lastActivityAt) &&
    b.nativeActivityRemindedAt.all (fun at_ => decide (at_ < d.lastActivityAt))

/-- The filters of the release. -/
def releasable (d : Due) (b : PgBridge) : Bool :=
  decide (b.id = d.bridgeId) && decide (b.lastNativeActivityAt = some d.lastActivityAt) &&
    decide (b.nativeActivityRemindedAt = some d.now)

namespace State

def sending? (s : State) (number : Nat) : Option Claim :=
  s.sending.find? (fun c => c.number = number)

/-- `record_whatsapp_native_activity`. -/
def record (s : State) (userId occurredAt : Int) : State :=
  { s with
    bridges := s.bridges.updateWhere (PgBridge.isWhatsappOf userId) (PgBridge.recorded occurredAt)
      (PgBridge.recorded_id occurredAt)
    log := .recorded userId occurredAt :: s.log }

def setStatus (s : State) (bridgeId : Int) (status : String) : State :=
  { s with
    bridges := s.bridges.updateWhere (fun b => decide (b.id = bridgeId)) (PgBridge.withStatus status)
      (PgBridge.withStatus_id status) }

def check (s : State) (now : Int) : State :=
  { s with due := s.due ++ s.bridges.rows.filterMap (dueOf now) }

def drop (s : State) (d : Due) : State := { s with due := s.due.erase d }

/-- The update of `claim_whatsapp_native_activity_reminder`. -/
def marked (s : State) (d : Due) : State :=
  { s with
    bridges := s.bridges.updateWhere (claimable d) (PgBridge.reminded (some d.now))
      (PgBridge.reminded_id (some d.now)) }

/-- The claim succeeds when its update has changed one row. -/
def claimed (s : State) (d : Due) : State :=
  if s.bridges.countWhere (claimable d) = 1 then
    { s.marked d with
      sending := s.sending ++ [⟨s.nextNumber, d⟩]
      nextNumber := s.nextNumber + 1
      log := .claimed ⟨s.nextNumber, d⟩ :: s.log }
  else s.marked d

def finish (s : State) (c : Claim) : State :=
  { s with sending := s.sending.filter (fun other => other ≠ c) }

def deliver (s : State) (c : Claim) : State :=
  { s.finish c with log := .delivered c.number :: s.log }

/-- `release_whatsapp_native_activity_reminder_claim`. -/
def released (s : State) (d : Due) : State :=
  { s with
    bridges := s.bridges.updateWhere (releasable d) (PgBridge.reminded none)
      (PgBridge.reminded_id none) }

end State

def step (s : State) : Action → Option State
  | .record userId occurredAt fate => some (fate.after s (s.record userId occurredAt))
  | .setStatus bridgeId status => some (s.setStatus bridgeId status)
  | .check now => some (s.check now)
  | .claim d fate =>
      if d ∈ s.due then
        some (match fate with
          | .done => (s.claimed d).drop d
          | .refused => s.drop d
          | .lost => (s.marked d).drop d)
      else none
  | .deliver number => (s.sending? number).map s.deliver
  | .release number fate =>
      (s.sending? number).map (fun c => (fate.after s (s.released c.due)).finish c)

/-! ## What the reminders promise -/

/-- Of two claims of a user that count, an activity was recorded between them that is newer than the
one the first was about. -/
def Separated (counts : Claim → Prop) (log : List Entry) : Prop :=
  ∀ later second earlier, log = later ++ .claimed second :: earlier →
    ∀ first, .claimed first ∈ earlier → first.due.userId = second.due.userId →
      counts first → counts second →
      ∃ occurredAt, first.due.lastActivityAt < occurredAt ∧
        .recorded first.due.userId occurredAt ∈ Log.since (.claimed first) earlier

/-- The delivered reminders of a user are in inactivity periods of their own. -/
def OncePerPeriod (log : List Entry) : Prop :=
  Separated (fun c => .delivered c.number ∈ log) log

/-- The stored last activity is no older than any recorded one, nor than it was before. -/
def NeverBack (before bridges : Bridges) (log : List Entry) : Prop :=
  ∀ b ∈ bridges,
    (∀ userId occurredAt, .recorded userId occurredAt ∈ log → b.isWhatsappOf userId = true →
      ∃ last, b.lastNativeActivityAt = some last ∧ occurredAt ≤ last) ∧
    ∀ old ∈ before, old.id = b.id → ∀ first, old.lastNativeActivityAt = some first →
      ∃ last, b.lastNativeActivityAt = some last ∧ first ≤ last

/-- An activity that is recorded is newer than what is stored, or as new and no reminder is
claimed, and the bridge of a reminder that is claimed is the user's only one. -/
def InPeriod (s : State) : Action → Prop
  | .record userId occurredAt fate =>
      fate = .refused ∨ ∀ b ∈ s.bridges.rows, b.isWhatsappOf userId = true →
        ∀ last ∈ b.lastNativeActivityAt, last < occurredAt ∨
          (last = occurredAt ∧ b.nativeActivityRemindedAt = none)
  | .claim d fate =>
      fate ≠ .done ∨ ∀ b ∈ s.bridges.rows, b.isWhatsappOf d.userId = true → b.id = d.bridgeId
  | _ => True

instance (s : State) (a : Action) : Decidable (InPeriod s a) := by
  cases a <;> unfold InPeriod <;> infer_instance

/-! ## The invariant -/

/-- The reminder of a claim has been delivered or is being sent. -/
def Held (s : State) (c : Claim) : Prop := .delivered c.number ∈ s.log ∨ c ∈ s.sending

/-- What a check has read of a bridge. -/
def Read (bridges : Bridges) (d : Due) : Prop :=
  d.lastActivityAt < d.now ∧ ∀ b ∈ bridges, b.id = d.bridgeId → b.userId = d.userId

/-- Since a claim, a newer activity has been recorded, or the bridges of its user still carry
it. -/
def Holds (bridges : Bridges) (log : List Entry) (c : Claim) : Prop :=
  (∃ occurredAt, c.due.lastActivityAt < occurredAt ∧
    .recorded c.due.userId occurredAt ∈ Log.since (.claimed c) log) ∨
  ∀ b ∈ bridges, b.isWhatsappOf c.due.userId = true →
    b.lastNativeActivityAt = some c.due.lastActivityAt ∧
      b.nativeActivityRemindedAt = some c.due.now

structure Inv (before : Bridges) (s : State) : Prop where
  due : ∀ d ∈ s.due, Read s.bridges d
  claims : ∀ c, .claimed c ∈ s.log → Read s.bridges c.due ∧ c.number < s.nextNumber
  unique : ∀ c other, .claimed c ∈ s.log → .claimed other ∈ s.log → c.number = other.number →
    c = other
  sending : ∀ c ∈ s.sending, .claimed c ∈ s.log ∧ .delivered c.number ∉ s.log
  delivered : ∀ number, .delivered number ∈ s.log → number < s.nextNumber
  separated : Separated (Held s) s.log
  holds : ∀ c, .claimed c ∈ s.log → Held s c → Holds s.bridges s.log c
  neverBack : NeverBack before s.bridges s.log

variable {before bridges later : Bridges} {log : List Entry} {s t : State}

theorem Separated.weaken {counts counts' : Claim → Prop} (h : Separated counts log)
    (himp : ∀ c, .claimed c ∈ log → counts' c → counts c) : Separated counts' log := by
  intro later second earlier hsplit first hfirst huser hcounts hcounts'
  have hin : .claimed first ∈ log := Log.mem_of_earlier hsplit hfirst
  exact h later second earlier hsplit first hfirst huser (himp first hin hcounts)
    (himp second (Log.mem_of_split hsplit) hcounts')

/-- An entry that is no claim. -/
theorem Separated.cons {counts : Claim → Prop} {x : Entry} (h : Separated counts log)
    (hx : ∀ c, x ≠ .claimed c) : Separated counts (x :: log) := by
  intro later second earlier hsplit
  rcases Log.cons_split hsplit with ⟨-, heq, -⟩ | ⟨rest, -, hrest⟩
  · exact absurd heq (hx second)
  · exact h rest second earlier hrest

/-- An entry that is no claim leaves what a claim holds. -/
theorem Holds.cons {x : Entry} {c : Claim} (h : Holds bridges log c) (hx : x ≠ .claimed c) :
    Holds bridges (x :: log) c := by
  rcases h with ⟨occurredAt, hlt, hin⟩ | hall
  · rw [Holds, Log.since_cons_of_ne hx]
    exact Or.inl ⟨occurredAt, hlt, List.mem_cons_of_mem _ hin⟩
  · exact Or.inr hall

/-- Bridges that come from others, up to their status and their reminder. -/
def Follows (later bridges : Bridges) : Prop :=
  ∀ b ∈ later, ∃ old ∈ bridges, old.id = b.id ∧ old.userId = b.userId ∧
    old.bridgeType = b.bridgeType ∧ old.lastNativeActivityAt = b.lastNativeActivityAt

theorem Read.follows (hfollows : ∀ b ∈ later, ∃ old ∈ bridges, old.id = b.id ∧ old.userId = b.userId)
    {d : Due} (h : Read bridges d) : Read later d := by
  refine ⟨h.1, fun b hb hid => ?_⟩
  obtain ⟨old, hold, hsame, huser⟩ := hfollows b hb
  rw [← huser]
  exact h.2 old hold (hsame.trans hid)

theorem NeverBack.follows (h : NeverBack before bridges log) (hfollows : Follows later bridges) :
    NeverBack before later log := by
  intro b hb
  obtain ⟨old, hold, hid, huser, htype, hlast⟩ := hfollows b hb
  have hback := h old hold
  rw [hlast, hid] at hback
  refine ⟨fun userId occurredAt hin hof => hback.1 userId occurredAt hin ?_, hback.2⟩
  rw [PgBridge.isWhatsappOf, huser, htype]
  exact hof

/-- An entry that is no activity. -/
theorem NeverBack.cons {x : Entry} (h : NeverBack before bridges log)
    (hx : ∀ userId occurredAt, x ≠ .recorded userId occurredAt) :
    NeverBack before bridges (x :: log) := by
  intro b hb
  have hback := h b hb
  refine ⟨fun userId occurredAt hin => hback.1 userId occurredAt ?_, hback.2⟩
  exact List.mem_of_ne_of_mem (hx userId occurredAt).symm hin

/-- Other bridges, and what is due, where every claim still holds. -/
theorem Inv.withBridges (h : Inv before s) (hfollows : Follows later s.bridges)
    (hholds : ∀ c, .claimed c ∈ s.log → Held s c → Holds later s.log c) :
    Inv before { s with bridges := later } where
  due := fun d hd => (h.due d hd).follows (fun b hb => by
    obtain ⟨old, hold, hid, huser, -⟩ := hfollows b hb
    exact ⟨old, hold, hid, huser⟩)
  claims := fun c hc => ⟨(h.claims c hc).1.follows (fun b hb => by
    obtain ⟨old, hold, hid, huser, -⟩ := hfollows b hb
    exact ⟨old, hold, hid, huser⟩), (h.claims c hc).2⟩
  unique := h.unique
  sending := h.sending
  delivered := h.delivered
  separated := h.separated
  holds := hholds
  neverBack := h.neverBack.follows hfollows

theorem inv_init (bridges : Bridges) : Inv bridges (init bridges) where
  due := fun _ h => by cases h
  claims := fun _ h => by cases h
  unique := fun _ _ h => by cases h
  sending := fun _ h => by cases h
  delivered := fun _ h => by cases h
  separated := fun later _ _ h => by cases later <;> cases h
  holds := fun _ h => by cases h
  neverBack := by
    intro b hb
    constructor
    · intro _ _ hin
      cases hin
    · intro old hold hid first hfirst
      rw [Table.eq_of_key_eq hold hb hid] at hfirst
      exact ⟨first, hfirst, le_rfl⟩

/-! ## Bridges after a statement -/

/-- An update of the reminder or the status. -/
theorem follows_updateWhere {p : PgBridge → Bool} {set : PgBridge → PgBridge}
    (hid : ∀ b, (set b).id = b.id)
    (hset : ∀ b, (set b).userId = b.userId ∧ (set b).bridgeType = b.bridgeType ∧
      (set b).lastNativeActivityAt = b.lastNativeActivityAt) :
    Follows (s.bridges.updateWhere p set hid) s.bridges := by
  intro b hb
  obtain ⟨old, hold, rfl⟩ := (Table.mem_updateWhere hid).mp hb
  refine ⟨old, hold, ?_⟩
  split
  · obtain ⟨huser, htype, hlast⟩ := hset old
    exact ⟨(hid old).symm, huser.symm, htype.symm, hlast.symm⟩
  · exact ⟨rfl, rfl, rfl, rfl⟩

/-- A bridge that carries a claim is not changed by an update whose filter it fails. -/
theorem Holds.updateWhere {p : PgBridge → Bool} {set : PgBridge → PgBridge}
    (hid : ∀ b, (set b).id = b.id) {c : Claim} (h : Holds bridges log c)
    (hset : ∀ b, (set b).isWhatsappOf c.due.userId = b.isWhatsappOf c.due.userId)
    (hkept : (∀ occurredAt, c.due.lastActivityAt < occurredAt →
        .recorded c.due.userId occurredAt ∉ Log.since (.claimed c) log) →
      ∀ b ∈ bridges, b.isWhatsappOf c.due.userId = true →
        b.lastNativeActivityAt = some c.due.lastActivityAt →
          b.nativeActivityRemindedAt = some c.due.now → p b = false) :
    Holds (bridges.updateWhere p set hid) log c := by
  by_cases hnewer : ∃ occurredAt, c.due.lastActivityAt < occurredAt ∧
      .recorded c.due.userId occurredAt ∈ Log.since (.claimed c) log
  · exact Or.inl hnewer
  · refine Or.inr (fun b hb hof => ?_)
    have hnone : ∀ occurredAt, c.due.lastActivityAt < occurredAt →
        .recorded c.due.userId occurredAt ∉ Log.since (.claimed c) log :=
      fun occurredAt hlt hin => hnewer ⟨occurredAt, hlt, hin⟩
    have hall := h.resolve_left hnewer
    obtain ⟨old, hold, rfl⟩ := (Table.mem_updateWhere hid).mp hb
    have hofold : old.isWhatsappOf c.due.userId = true := by
      split at hof
      · rwa [hset] at hof
      · exact hof
    have hcarries := hall old hold hofold
    rw [hkept hnone old hold hofold hcarries.1 hcarries.2]
    exact hcarries

/-- A bridge that carries a claim of an activity is not claimable for it. -/
theorem not_claimable {b : PgBridge} {last now : Int} (d : Due) (hlt : last < now)
    (hlast : b.lastNativeActivityAt = some last)
    (hreminded : b.nativeActivityRemindedAt = some now) : claimable d b = false := by
  by_contra htrue
  simp only [Bool.not_eq_false, claimable, hlast, hreminded, Bool.and_eq_true, decide_eq_true_eq,
    Option.some.injEq, Option.all_some] at htrue
  omega

theorem claimable_spec {d : Due} {b : PgBridge} (h : claimable d b = true) :
    b.id = d.bridgeId ∧ b.bridgeType = "whatsapp" ∧
      b.lastNativeActivityAt = some d.lastActivityAt := by
  simp only [claimable, Bool.and_eq_true, decide_eq_true_eq, beq_iff_eq] at h
  exact ⟨h.1.1.1.1, h.1.1.1.2, h.1.2⟩

theorem releasable_spec {d : Due} {b : PgBridge} (h : releasable d b = true) :
    b.id = d.bridgeId ∧ b.lastNativeActivityAt = some d.lastActivityAt := by
  simp only [releasable, Bool.and_eq_true, decide_eq_true_eq] at h
  exact h.1

theorem isWhatsappOf_spec {userId : Int} {b : PgBridge} (h : b.isWhatsappOf userId = true) :
    b.userId = userId ∧ b.bridgeType = "whatsapp" := by
  simpa [PgBridge.isWhatsappOf] using h

/-! ## What the steps keep -/

theorem Inv.setStatus (h : Inv before s) (bridgeId : Int) (status : String) :
    Inv before (s.setStatus bridgeId status) := by
  apply h.withBridges
  · exact follows_updateWhere (PgBridge.withStatus_id status) (fun _ => ⟨rfl, rfl, rfl⟩)
  · intro c hc hheld
    rcases h.holds c hc hheld with hnewer | hall
    · exact Or.inl hnewer
    · refine Or.inr (fun b hb hof => ?_)
      obtain ⟨old, hold, rfl⟩ := (Table.mem_updateWhere (PgBridge.withStatus_id status)).mp hb
      split
      next hmatch =>
        rw [if_pos hmatch] at hof
        exact hall old hold hof
      next hmatch =>
        rw [if_neg hmatch] at hof
        exact hall old hold hof

theorem Inv.marked (h : Inv before s) (d : Due) : Inv before (s.marked d) := by
  apply h.withBridges
  · exact follows_updateWhere (PgBridge.reminded_id (some d.now)) (fun _ => ⟨rfl, rfl, rfl⟩)
  · intro c hc hheld
    apply (h.holds c hc hheld).updateWhere (PgBridge.reminded_id (some d.now)) (fun _ => rfl)
    intro _ b _ _ hlast hreminded
    exact not_claimable d (h.claims c hc).1.1 hlast hreminded

/-- Two claims that are held are not about the same activity. -/
theorem Inv.no_other_holder (h : Inv before s) {c other : Claim} {b : PgBridge}
    (hb : b ∈ s.bridges) (hc : c ∈ s.sending) (hother : .claimed other ∈ s.log)
    (hheld : Held s other) (hne : c ≠ other)
    (hof : b.isWhatsappOf other.due.userId = true) (huser : c.due.userId = other.due.userId)
    (hlastc : b.lastNativeActivityAt = some c.due.lastActivityAt)
    (hlast : b.lastNativeActivityAt = some other.due.lastActivityAt) : False := by
  have hnewer : ∃ occurredAt, other.due.lastActivityAt < occurredAt ∧
      .recorded other.due.userId occurredAt ∈ s.log := by
    have hclaimed := (h.sending c hc).1
    rw [hlastc, Option.some.injEq] at hlast
    rcases Log.before_or_after hclaimed hother (fun heq => hne (Entry.claimed.inj heq)) with
      ⟨later, earlier, hsplit, hin⟩ | ⟨later, earlier, hsplit, hin⟩
    · obtain ⟨occurredAt, hlt, hrecorded⟩ :=
        h.separated later other earlier hsplit c hin huser (Or.inr hc) hheld
      rw [huser] at hrecorded
      exact ⟨occurredAt, hlast ▸ hlt,
        Log.mem_of_earlier hsplit (Log.mem_of_mem_since hrecorded)⟩
    · obtain ⟨occurredAt, hlt, hrecorded⟩ :=
        h.separated later c earlier hsplit other hin huser.symm hheld (Or.inr hc)
      exact ⟨occurredAt, hlt, Log.mem_of_earlier hsplit (Log.mem_of_mem_since hrecorded)⟩
  obtain ⟨occurredAt, hlt, hrecorded⟩ := hnewer
  obtain ⟨last, hstored, hle⟩ := (h.neverBack b hb).1 _ occurredAt hrecorded hof
  rw [hstored, Option.some.injEq] at hlast
  omega

/-- A claim that is no longer being sent. -/
theorem Inv.finish (h : Inv before s) (c : Claim) : Inv before (s.finish c) := by
  have hheld : ∀ other, Held (s.finish c) other → Held s other := by
    rintro other (hdelivered | hsending)
    · exact Or.inl hdelivered
    · exact Or.inr (List.mem_filter.mp hsending).1
  exact
    { due := h.due
      claims := h.claims
      unique := h.unique
      sending := fun other hother => h.sending other (List.mem_filter.mp hother).1
      delivered := h.delivered
      separated := h.separated.weaken (fun other _ => hheld other)
      holds := fun other hother hh => h.holds other hother (hheld other hh)
      neverBack := h.neverBack }

/-- The claim that is released is the only one that its bridge may carry. -/
theorem Inv.released (h : Inv before s) {c : Claim} (hc : c ∈ s.sending) :
    Inv before ((s.released c.due).finish c) := by
  have hfinished := h.finish c
  apply hfinished.withBridges
  · exact follows_updateWhere (s := s) (PgBridge.reminded_id none) (fun _ => ⟨rfl, rfl, rfl⟩)
  · intro other hother hheld
    have hne : c ≠ other := by
      rintro rfl
      rcases hheld with hdelivered | hsending
      · exact (h.sending c hc).2 hdelivered
      · exact of_decide_eq_true (List.mem_filter.mp hsending).2 rfl
    have hold : Held s other := by
      rcases hheld with hdelivered | hsending
      · exact Or.inl hdelivered
      · exact Or.inr (List.mem_filter.mp hsending).1
    apply (h.holds other hother hold).updateWhere (PgBridge.reminded_id none) (fun _ => rfl)
    intro _ b hb hof hlast _
    by_contra htrue
    have hmatch := releasable_spec (by simpa using htrue)
    have huser : c.due.userId = other.due.userId := by
      have hread := (h.claims c (h.sending c hc).1).1.2 b hb hmatch.1
      rw [← hread]
      exact (isWhatsappOf_spec hof).1
    exact h.no_other_holder hb hc hother hold hne hof huser hmatch.2 hlast

theorem Inv.deliver (h : Inv before s) {c : Claim} (hc : c ∈ s.sending) :
    Inv before (s.deliver c) := by
  have hclaimed := (h.sending c hc).1
  have hheld : ∀ other, .claimed other ∈ s.log → Held (s.deliver c) other → Held s other := by
    rintro other hother (hdelivered | hsending)
    · rcases List.mem_cons.mp hdelivered with heq | hdelivered
      · rw [← h.unique other c hother hclaimed (Entry.delivered.inj heq)] at hc
        exact Or.inr hc
      · exact Or.inl hdelivered
    · exact Or.inr (List.mem_filter.mp hsending).1
  have hold : ∀ other, .claimed other ∈ (s.deliver c).log → .claimed other ∈ s.log :=
    fun other hother => List.mem_of_ne_of_mem (by simp) hother
  constructor
  · exact h.due
  · exact fun other hother => h.claims other (hold other hother)
  · exact fun a b ha hb => h.unique a b (hold a ha) (hold b hb)
  · intro other hother
    have hin := List.mem_filter.mp hother
    have hsending := h.sending other hin.1
    refine ⟨List.mem_cons_of_mem _ hsending.1, fun hdelivered => ?_⟩
    rcases List.mem_cons.mp hdelivered with heq | hdelivered
    · have hsame := h.unique other c hsending.1 hclaimed (Entry.delivered.inj heq)
      exact absurd hsame (by simpa using hin.2)
    · exact hsending.2 hdelivered
  · intro number hdelivered
    rcases List.mem_cons.mp hdelivered with heq | hdelivered
    · cases heq
      exact (h.claims c hclaimed).2
    · exact h.delivered number hdelivered
  · exact (h.separated.weaken hheld).cons (fun _ => by simp)
  · intro other hother hh
    have hin := hold other hother
    exact (h.holds other hin (hheld other hin hh)).cons (by simp)
  · exact h.neverBack.cons (fun _ _ => by simp)

/-- A bridge after an activity was recorded. -/
theorem mem_record {userId occurredAt : Int} {b : PgBridge}
    (h : b ∈ (s.record userId occurredAt).bridges) :
    ∃ old ∈ s.bridges, old.id = b.id ∧ old.userId = b.userId ∧ old.bridgeType = b.bridgeType ∧
      (b = old ∧ b.isWhatsappOf userId = false ∨
        b.lastNativeActivityAt = some occurredAt ∧ b.isWhatsappOf userId = true) := by
  obtain ⟨old, hold, rfl⟩ := (Table.mem_updateWhere (PgBridge.recorded_id occurredAt)).mp h
  refine ⟨old, hold, ?_⟩
  split
  next hof => exact ⟨rfl, rfl, rfl, Or.inr ⟨rfl, hof⟩⟩
  next hof => exact ⟨rfl, rfl, rfl, Or.inl ⟨rfl, by simpa using hof⟩⟩

theorem isWhatsappOf_congr {a b : PgBridge} (huser : a.userId = b.userId)
    (htype : a.bridgeType = b.bridgeType) (userId : Int) :
    a.isWhatsappOf userId = b.isWhatsappOf userId := by
  rw [PgBridge.isWhatsappOf, huser, htype]
  rfl

/-- An activity that is newer than what is stored, or as new and no reminder is claimed. -/
def RecordsNewer (s : State) (userId occurredAt : Int) : Prop :=
  ∀ b ∈ s.bridges.rows, b.isWhatsappOf userId = true →
    ∀ last ∈ b.lastNativeActivityAt, last < occurredAt ∨
      (last = occurredAt ∧ b.nativeActivityRemindedAt = none)

/-- A claim that the bridges carry is followed by the activity, or is about another user. -/
theorem Holds.record {userId occurredAt : Int} {c : Claim} (h : Holds s.bridges s.log c)
    (hnew : RecordsNewer s userId occurredAt) :
    Holds (s.record userId occurredAt).bridges (s.record userId occurredAt).log c := by
  rcases h with ⟨at_, hlt, hin⟩ | hall
  · exact Holds.cons (Or.inl ⟨at_, hlt, hin⟩) (by simp)
  · by_cases hbridge : c.due.userId = userId ∧
        ∃ b ∈ s.bridges, b.isWhatsappOf c.due.userId = true
    · obtain ⟨huser, b, hb, hof⟩ := hbridge
      obtain ⟨hlast, hreminded⟩ := hall b hb hof
      rcases hnew b hb (huser ▸ hof) _ hlast with hlt | ⟨-, hnone⟩
      · rw [Holds]
        show (∃ at_, _ ∧ _ ∈ Log.since _ (.recorded userId occurredAt :: s.log)) ∨ _
        rw [Log.since_cons_of_ne (by simp), huser]
        exact Or.inl ⟨occurredAt, hlt, List.mem_cons_self⟩
      · rw [hreminded] at hnone
        cases hnone
    · refine Or.inr (fun b hb hof => ?_)
      obtain ⟨old, holdb, -, huser, htype, hcase⟩ := mem_record hb
      rw [← isWhatsappOf_congr huser htype] at hof
      rcases hcase with ⟨rfl, -⟩ | ⟨-, hofuser⟩
      · exact hall b holdb hof
      · rw [← isWhatsappOf_congr huser htype] at hofuser
        have hsame := (isWhatsappOf_spec hof).1.symm.trans (isWhatsappOf_spec hofuser).1
        exact absurd ⟨hsame, old, holdb, hof⟩ hbridge

/-- The stored last activity becomes the one that is recorded, which no older one exceeds. -/
theorem NeverBack.record {userId occurredAt : Int} (h : NeverBack before s.bridges s.log)
    (hnew : RecordsNewer s userId occurredAt) :
    NeverBack before (s.record userId occurredAt).bridges (s.record userId occurredAt).log := by
  intro b hb
  obtain ⟨old, holdb, hid, huser, htype, hcase⟩ := mem_record hb
  have hback := h old holdb
  rcases hcase with ⟨rfl, hnot⟩ | ⟨hstored, hofuser⟩
  · refine ⟨fun u at_ hin hof => ?_, hback.2⟩
    rcases List.mem_cons.mp hin with heq | hin
    · cases heq
      rw [hnot] at hof
      cases hof
    · exact hback.1 u at_ hin hof
  · rw [← isWhatsappOf_congr huser htype] at hofuser
    have hle : ∀ last, old.lastNativeActivityAt = some last → last ≤ occurredAt := by
      intro last hlast
      rcases hnew old holdb hofuser last hlast with hlt | ⟨heq, -⟩
      · exact hlt.le
      · exact heq.le
    constructor
    · intro u at_ hin hof
      refine ⟨occurredAt, hstored, ?_⟩
      rcases List.mem_cons.mp hin with heq | hin
      · cases heq
        exact le_rfl
      · rw [← isWhatsappOf_congr huser htype] at hof
        obtain ⟨last, hlast, hbefore⟩ := hback.1 u at_ hin hof
        exact hbefore.trans (hle last hlast)
    · intro first hfirst hfid value hvalue
      obtain ⟨last, hlast, hbefore⟩ := hback.2 first hfirst (hfid.trans hid.symm) value hvalue
      exact ⟨occurredAt, hstored, hbefore.trans (hle last hlast)⟩

theorem Inv.record (h : Inv before s) {userId occurredAt : Int}
    (hnew : RecordsNewer s userId occurredAt) : Inv before (s.record userId occurredAt) := by
  have hread : ∀ d, Read s.bridges d → Read (s.record userId occurredAt).bridges d := by
    intro d hd
    apply hd.follows
    intro b hb
    obtain ⟨old, hold, hid, huser, -⟩ := mem_record hb
    exact ⟨old, hold, hid, huser⟩
  have hold : ∀ c, .claimed c ∈ (s.record userId occurredAt).log → .claimed c ∈ s.log :=
    fun c hc => List.mem_of_ne_of_mem (by simp) hc
  have hheld : ∀ c, Held (s.record userId occurredAt) c → Held s c := by
    rintro c (hdelivered | hsending)
    · exact Or.inl (List.mem_of_ne_of_mem (by simp) hdelivered)
    · exact Or.inr hsending
  constructor
  · exact fun d hd => hread d (h.due d hd)
  · exact fun c hc => ⟨hread c.due (h.claims c (hold c hc)).1, (h.claims c (hold c hc)).2⟩
  · exact fun c other hc hother => h.unique c other (hold c hc) (hold other hother)
  · intro c hc
    have hsending := h.sending c hc
    refine ⟨List.mem_cons_of_mem _ hsending.1, fun hdelivered => ?_⟩
    exact hsending.2 (List.mem_of_ne_of_mem (by simp) hdelivered)
  · exact fun number hin => h.delivered number (List.mem_of_ne_of_mem (by simp) hin)
  · exact (h.separated.weaken (fun c _ => hheld c)).cons (fun _ => by simp)
  · exact fun c hc hh => (h.holds c (hold c hc) (hheld c hh)).record hnew
  · exact h.neverBack.record hnew

/-! ## A claim that succeeds -/

theorem Inv.fresh (h : Inv before s) {c : Claim} (hc : .claimed c ∈ s.log) (d : Due) :
    c ≠ ⟨s.nextNumber, d⟩ := by
  rintro rfl
  exact absurd (h.claims _ hc).2 (lt_irrefl _)

/-- A bridge that is claimable carries no claim that is held, so that a newer activity stands
between the two. -/
theorem Inv.separated_claimed (h : Inv before s) {counts : Claim → Prop} {d : Due} {row : PgBridge}
    (hheld : ∀ c, .claimed c ∈ s.log → counts c → Held s c) (hrow : row ∈ s.bridges)
    (hrowof : row.isWhatsappOf d.userId = true) (hclaimable : claimable d row = true) :
    Separated counts (.claimed ⟨s.nextNumber, d⟩ :: s.log) := by
  intro later second earlier hsplit first hfirst huser hcounts hcounts'
  rcases Log.cons_split hsplit with ⟨-, heq, hlog⟩ | ⟨rest, -, hrest⟩
  · cases heq
    rw [← hlog] at hfirst ⊢
    rcases h.holds first hfirst (hheld first hfirst hcounts) with hnewer | hall
    · exact hnewer
    · have hcarries := hall row hrow (by rw [huser]; exact hrowof)
      have hnot := not_claimable d (h.claims first hfirst).1.1 hcarries.1 hcarries.2
      rw [hclaimable] at hnot
      cases hnot
  · have hin : .claimed first ∈ s.log := Log.mem_of_earlier hrest hfirst
    have hin' : .claimed second ∈ s.log := Log.mem_of_split hrest
    exact h.separated rest second earlier hrest first hfirst huser
      (hheld first hin hcounts) (hheld second hin' hcounts')

/-- The bridge of a claim carries it, where the user has no other. -/
theorem holds_claimed {d : Due} {row : PgBridge} (hrow : row ∈ s.bridges)
    (hclaimable : claimable d row = true)
    (honly : ∀ b ∈ s.bridges.rows, b.isWhatsappOf d.userId = true → b.id = d.bridgeId)
    (number : Nat) (log : List Entry) : Holds (s.marked d).bridges log ⟨number, d⟩ := by
  have hspec := claimable_spec hclaimable
  refine Or.inr (fun b hb hof => ?_)
  obtain ⟨old, hold, rfl⟩ := (Table.mem_updateWhere (PgBridge.reminded_id (some d.now))).mp hb
  have hofold : old.isWhatsappOf d.userId = true := by
    split at hof
    · exact hof
    · exact hof
  have hsame : old = row :=
    Table.eq_of_key_eq hold hrow ((honly old hold hofold).trans hspec.1.symm)
  rw [hsame, if_pos hclaimable]
  exact ⟨hspec.2.2, rfl⟩

theorem Inv.claimed (h : Inv before s) {d : Due} (hd : d ∈ s.due)
    (honly : ∀ b ∈ s.bridges.rows, b.isWhatsappOf d.userId = true → b.id = d.bridgeId) :
    Inv before (s.claimed d) := by
  have hmarked := h.marked d
  unfold State.claimed
  split
  next hcount =>
    have hpos : 0 < s.bridges.countWhere (claimable d) := by omega
    obtain ⟨row, hrow, hclaimable⟩ := Table.exists_of_countWhere_pos hpos
    have hspec := claimable_spec hclaimable
    have hrowof : row.isWhatsappOf d.userId = true := by
      simp [PgBridge.isWhatsappOf, (h.due d hd).2 row hrow hspec.1, hspec.2.1]
    have hheld : ∀ c, .claimed c ∈ s.log →
        (.delivered c.number ∈ Entry.claimed ⟨s.nextNumber, d⟩ :: s.log ∨
          c ∈ s.sending ++ [⟨s.nextNumber, d⟩]) → Held s c := by
      rintro c hc (hdelivered | hsending)
      · exact Or.inl (List.mem_of_ne_of_mem (by simp) hdelivered)
      · rcases List.mem_append.mp hsending with hsending | hsending
        · exact Or.inr hsending
        · exact absurd (List.mem_singleton.mp hsending) (h.fresh hc d)
    constructor
    · exact hmarked.due
    · intro c hc
      show Read (s.marked d).bridges c.due ∧ c.number < s.nextNumber + 1
      rcases List.mem_cons.mp hc with heq | hc
      · cases heq
        exact ⟨hmarked.due d hd, Nat.lt_succ_self _⟩
      · have hclaim := hmarked.claims c hc
        exact ⟨hclaim.1, Nat.lt_succ_of_lt hclaim.2⟩
    · intro c other hc hother hnumber
      rcases List.mem_cons.mp hc with heq | hc <;> rcases List.mem_cons.mp hother with heq' | hother
      · cases heq
        cases heq'
        rfl
      · cases heq
        have hlt := (h.claims other hother).2
        exact absurd hnumber (by simp; omega)
      · cases heq'
        have hlt := (h.claims c hc).2
        exact absurd hnumber (by simp; omega)
      · exact h.unique c other hc hother hnumber
    · intro c hc
      rcases List.mem_append.mp hc with hc | hc
      · have hsending := h.sending c hc
        exact ⟨List.mem_cons_of_mem _ hsending.1,
          fun hin => hsending.2 (List.mem_of_ne_of_mem (by simp) hin)⟩
      · rw [List.mem_singleton.mp hc]
        refine ⟨List.mem_cons_self, fun hin => ?_⟩
        have hlt := h.delivered _ (List.mem_of_ne_of_mem (by simp) hin)
        exact absurd hlt (lt_irrefl _)
    · intro number hin
      exact Nat.lt_succ_of_lt (h.delivered number (List.mem_of_ne_of_mem (by simp) hin))
    · exact h.separated_claimed hheld hrow hrowof hclaimable
    · intro c hc hh
      rcases List.mem_cons.mp hc with heq | hc
      · cases heq
        exact holds_claimed hrow hclaimable honly _ _
      · exact (hmarked.holds c hc (hheld c hc hh)).cons
          (fun heq => h.fresh hc d (Entry.claimed.inj heq).symm)
    · exact hmarked.neverBack.cons (fun _ _ => by simp)
  next => exact hmarked

theorem Inv.withDue (h : Inv before s) {due : List Due} (hdue : ∀ d ∈ due, Read s.bridges d) :
    Inv before { s with due := due } :=
  { h with due := hdue }

theorem Inv.drop (h : Inv before s) (d : Due) : Inv before (s.drop d) :=
  h.withDue (fun other hother => h.due other (List.mem_of_mem_erase hother))

/-- A reminder is due twelve days after the activity. -/
theorem lt_of_due {last now : Int} {remindedAt : Option Int}
    (h : whatsappNativeActivityReminderDue (some last) remindedAt now = true) : last < now := by
  have hdue : WHATSAPP_NATIVE_ACTIVITY_REMINDER_AFTER_SECS ≤ saturatingSub now last :=
    of_decide_eq_true (Bool.and_eq_true .. ▸ h).1
  simp only [saturatingSub, WHATSAPP_NATIVE_ACTIVITY_REMINDER_AFTER_SECS] at hdue
  omega

theorem read_of_dueOf {now : Int} {b : PgBridge} {d : Due} (hb : b ∈ s.bridges)
    (h : dueOf now b = some d) : Read s.bridges d := by
  unfold dueOf at h
  split at h
  next hdue =>
    obtain ⟨last, hlast, rfl⟩ := Option.map_eq_some_iff.mp h
    rw [Bool.and_eq_true, hlast] at hdue
    refine ⟨lt_of_due hdue.2, fun other hother hid => ?_⟩
    rw [Table.eq_of_key_eq hother hb hid]
  next => cases h

theorem Inv.check (h : Inv before s) (now : Int) : Inv before (s.check now) := by
  apply h.withDue
  intro d hd
  rcases List.mem_append.mp hd with hd | hd
  · exact h.due d hd
  · obtain ⟨b, hb, hdue⟩ := List.mem_filterMap.mp hd
    exact read_of_dueOf hb hdue

theorem sending?_spec {number : Nat} {c : Claim} (h : s.sending? number = some c) :
    c ∈ s.sending :=
  List.mem_of_find?_eq_some h

theorem inv_step {a : Action} (h : Inv before s) (hok : InPeriod s a)
    (hstep : step s a = some t) : Inv before t := by
  cases a with
  | record userId occurredAt fate =>
      rw [← Option.some.inj hstep]
      rcases hok with rfl | hnew
      · exact h
      · exact fate.after_keeps (Inv before) h (h.record hnew)
  | setStatus bridgeId status =>
      rw [← Option.some.inj hstep]
      exact h.setStatus bridgeId status
  | check now =>
      rw [← Option.some.inj hstep]
      exact h.check now
  | claim d fate =>
      simp only [step] at hstep
      split at hstep
      next hd =>
        rw [← Option.some.inj hstep]
        cases fate with
        | done =>
            rcases hok with hne | honly
            · exact absurd rfl hne
            · exact (h.claimed hd honly).drop d
        | refused => exact h.drop d
        | lost => exact (h.marked d).drop d
      next => cases hstep
  | deliver number =>
      obtain ⟨c, hc, rfl⟩ := Option.map_eq_some_iff.mp hstep
      exact h.deliver (sending?_spec hc)
  | release number fate =>
      obtain ⟨c, hc, rfl⟩ := Option.map_eq_some_iff.mp hstep
      cases fate with
      | done => exact h.released (sending?_spec hc)
      | refused => exact h.finish c
      | lost => exact h.released (sending?_spec hc)

/-- Where activities are recorded in their order and the reminded bridge is the user's only one, a
user is reminded once in each period, and the last activity never moves back. -/
theorem reminded_once_per_period (bridges : Bridges) {actions : List Action}
    (hmeets : Transition.Meets step InPeriod (init bridges) actions)
    (hrun : Transition.run step (init bridges) actions = some s) :
    OncePerPeriod s.log ∧ NeverBack bridges s.bridges s.log := by
  have hinv : Inv bridges s :=
    Transition.run_invariant (fun _ _ _ h hok hstep => inv_step h hok hstep) (inv_init bridges)
      hmeets hrun
  constructor
  · apply hinv.separated.weaken
    intro c _ hdelivered
    exact Or.inl hdelivered
  · exact hinv.neverBack

/-! ## Activities in their order and out of it -/

def oneBridge : Bridges := ⟨[⟨1, 7, "whatsapp", "connected", some 0, none⟩], by decide⟩

def thirteenDays : Int := 13 * 24 * 60 * 60

/-- A reminder fails once, and the next period begins with a newer activity. -/
def inOrder : List Action :=
  [.check thirteenDays, .claim ⟨7, 1, 0, thirteenDays⟩ .done, .release 0 .done, .check (thirteenDays + 900),
    .check (thirteenDays + 900), .claim ⟨7, 1, 0, thirteenDays + 900⟩ .done,
    .claim ⟨7, 1, 0, thirteenDays + 900⟩ .done, .deliver 1, .record 7 (thirteenDays + 1000) .done,
    .check (2 * thirteenDays + 1000), .claim ⟨7, 1, thirteenDays + 1000, 2 * thirteenDays + 1000⟩ .done, .deliver 2]

theorem reminded_once_per_period_in_order :
    OncePerPeriod (Transition.final step (init oneBridge) inOrder).log ∧
      NeverBack oneBridge (Transition.final step (init oneBridge) inOrder).bridges
        (Transition.final step (init oneBridge) inOrder).log :=
  reminded_once_per_period oneBridge
    (show Transition.Meets step InPeriod (init oneBridge) inOrder by decide +kernel)
    (Transition.run_eq_final (by decide +kernel))

/-- The same activity is recorded again once the reminder about it is delivered, and then an older
one. -/
def replayed : List Action :=
  [.record 7 100 .done, .check thirteenDays, .claim ⟨7, 1, 100, thirteenDays⟩ .done, .deliver 0,
    .record 7 100 .done, .check (thirteenDays + 900), .claim ⟨7, 1, 100, thirteenDays + 900⟩ .done, .deliver 1,
    .record 7 50 .done]

theorem reminded_twice_in_a_period :
    ∃ s, Transition.run step (init oneBridge) replayed = some s ∧ ¬ OncePerPeriod s.log ∧
      s.bridges.rows = [⟨1, 7, "whatsapp", "connected", some 50, none⟩] := by
  refine ⟨_, Transition.run_eq_final (by decide +kernel), ?_, by decide +kernel⟩
  have hlog : (Transition.final step (init oneBridge) replayed).log =
      [.recorded 7 50, .delivered 1] ++ .claimed ⟨1, ⟨7, 1, 100, thirteenDays + 900⟩⟩ ::
        [.recorded 7 100, .delivered 0, .claimed ⟨0, ⟨7, 1, 100, thirteenDays⟩⟩,
          .recorded 7 100] := by decide +kernel
  intro h
  obtain ⟨occurredAt, hlt, hin⟩ := h _ _ _ hlog ⟨0, ⟨7, 1, 100, thirteenDays⟩⟩ (by simp) rfl
    (by rw [hlog]; simp) (by rw [hlog]; simp)
  -- between the claims only the activity at 100 is recorded
  have hnewer : 100 < occurredAt := hlt
  simp [Log.since] at hin
  omega

end Lightfriend.Bridge.NativeActivity
