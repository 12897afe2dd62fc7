import Lightfriend.Core.Table
import Lightfriend.Proactive.Schedule

/-! # Digests

A digest is due when the latest slot of the day on the clock of the user is later
than the last digest that was logged as delivered. The slot is a local time; it
is compared as the instant it has with the offset of the moment.
-/

namespace Lightfriend.Proactive

/-! ## The slots of a user -/

/-- `split_once`. -/
def splitOnce (c : Char) (s : List Char) : Option (List Char × List Char) :=
  if c ∈ s then some (s.takeWhile (· ≠ c), (s.dropWhile (· ≠ c)).tail) else none

/-- A time, snapped to the ten minutes of the scheduler. -/
def parseDigestTime (token : List Char) : Option Nat := do
  let (hour, minute) := (splitOnce ':' token).getD (token, ['0'])
  let hour ← parseU32 hour
  let minute ← parseU32 minute
  if 24 ≤ hour then none
  else if 60 ≤ minute then none
  else some ((hour * 60 + minute + 5) / 10 * 10 % 1440)

def addDigestTime (slots : List Nat) (raw : List Char) : Option (List Nat) :=
  let token := (trim (String.ofList raw)).toList
  if token = [] then some slots
  else do
    let snapped ← parseDigestTime token
    some (if snapped ∈ slots then slots else slots ++ [snapped])

/-- The slots in minutes of the day. -/
def parseDigestTimes (input : String) : Option (List Nat) := do
  let slots ← (input.toList.splitOn ',').foldlM addDigestTime []
  if slots = [] then none
  else if 10 < slots.length then none
  else some (orderBy (· ≤ ·) slots)

def autoDigestSlots : List Nat := [8 * 60, 13 * 60, 18 * 60]

def digestSlots (digestTime : Option String) : Option (List Nat) :=
  match digestTime with
  | some times => parseDigestTimes times
  | none => some autoDigestSlots

def latestDueDigestSlot (slots : List Nat) (now tzOffset : Int) : Option Int := do
  let latest ← slots.max?
  let localNow := now + tzOffset
  let dayStart := localNow / 86400 * 86400
  let currentMinute := localNow % 86400 / 60
  let slotAt := match (slots.filter (fun slot : Nat => (slot : Int) ≤ currentMinute)).max? with
    | some slot => dayStart + slot * 60
    | none => dayStart - 86400 + latest * 60
  let slotUtc := slotAt - tzOffset
  if i32Min ≤ slotUtc ∧ slotUtc ≤ i32Max then some slotUtc else none

/-! ## The ticks -/

/-- What becomes of a notification. A suppressed one counts as sent. -/
inductive Sending
  | delivered
  | suppressed
  | failed
deriving DecidableEq, Repr

/-- What a tick finds for the user. -/
structure DigestTick where
  now : Nat
  /-- The time from the start of the tick to this user, and from there to the log. -/
  late : Nat
  took : Nat
  enabled : Option Bool
  /-- The checkpoint can be read, for the recovery and for the slot. -/
  gateLoads : Bool
  checkpointLoads : Bool
  /-- The recovery has messages to show. -/
  backlog : Bool
  settingsLoad : Bool
  infoLoads : Bool
  /-- The digest has something to show. -/
  content : Bool
  sending : Sending
  /-- The delivered digest is logged. -/
  logged : Bool
deriving DecidableEq, Repr

/-- A digest that was delivered, the slot it came for, and when it was logged. -/
structure SentDigest where
  slot : Option Int
  loggedAt : Int
deriving DecidableEq, Repr

structure DigestUser where
  /-- The times of the successful digests in the usage log. -/
  logs : List Int
  /-- Kept in memory. -/
  cooldown : Option Int
  lastTick : Option Nat
  clock : Nat
  /-- The delivered digests, and the slots that were latest at a tick that could have delivered
  one. No code reads these. -/
  sent : List SentDigest
  reached : List Int
deriving DecidableEq, Repr

namespace DigestTick

variable (z : Zone) (t : DigestTick)

def nowI32 : Int := asI32 t.now

/-- The offset of the zone when the user is handled. -/
def offset : Int := z.offset (t.now + t.late : Nat)

def tzOffset : Int := if t.infoLoads then t.offset z else 0

def loggedAt : Int := asI32 (t.now + t.late + t.took : Nat)

/-- The local time of the latest slot on the clock of the user. -/
def slot (slots : Option (List Nat)) : Option Int :=
  (slots.bind (latestDueDigestSlot · t.now (t.offset z))).map (· + t.offset z)

/-- The user wants digests, everything about the user can be loaded, there is something to show
and the message is accepted. -/
def serves : Bool :=
  t.enabled = some true && t.gateLoads && t.checkpointLoads && t.settingsLoad && t.infoLoads &&
    t.content && t.sending = .delivered

end DigestTick

namespace DigestUser

/-- `latest_successful_digest_checkpoint`. -/
def checkpoint (s : DigestUser) : Option Int := s.logs.max?

/-- No delivery for a day, or none that is known of. -/
def stale (s : DigestUser) (t : DigestTick) : Bool :=
  if t.gateLoads then s.checkpoint.all (fun c => 86400 ≤ saturatingSub t.nowI32 c) else true

variable (z : Zone) (digestTime : Option String)

def sendNotification (s : DigestUser) (t : DigestTick) : DigestUser :=
  match t.sending with
  | .delivered =>
      { s with
        logs := if t.logged then t.loggedAt :: s.logs else s.logs
        cooldown := some t.nowI32
        sent := ⟨t.slot z (digestSlots digestTime), t.loggedAt⟩ :: s.sent }
  | .suppressed => { s with cooldown := some t.nowI32 }
  | .failed => s

def deliverSlot (s : DigestUser) (t : DigestTick) : DigestUser :=
  match digestSlots digestTime with
  | none => s
  | some slots =>
      match latestDueDigestSlot slots t.nowI32 (t.tzOffset z) with
      | none => s
      | some dueSlotAt =>
          if !t.checkpointLoads then s
          else if s.checkpoint.any (dueSlotAt ≤ ·) then s
          else if s.cooldown.any (fun lastSent => t.nowI32 - lastSent < 540) then s
          else if !t.content then s
          else s.sendNotification z digestTime t

def deliverSmartDigests (s : DigestUser) (t : DigestTick) : DigestUser :=
  if t.enabled ≠ some true then s
  else if s.stale t && t.backlog then s.sendNotification z digestTime t
  else if !t.settingsLoad then s
  else s.deliverSlot z digestTime t

end DigestUser

inductive DigestAction
  | tick (t : DigestTick)
  | restart
deriving DecidableEq, Repr

namespace DigestUser

variable (z : Zone) (digestTime : Option String)

def start : DigestUser := ⟨[], none, none, 0, [], []⟩

/-- The ticks come in order, and each handles the user when the one before has. -/
def step (s : DigestUser) : DigestAction → Option DigestUser
  | .tick t =>
      if s.lastTick.all (· < t.now) ∧ s.clock ≤ t.now + t.late then
        some { s.deliverSmartDigests z digestTime t with
          lastTick := some t.now
          clock := t.now + t.late + t.took
          reached := if t.serves then (t.slot z (digestSlots digestTime)).toList ++ s.reached
            else s.reached }
      else none
  | .restart => some { s with cooldown := none }

end DigestUser

/-! ## The latest slot -/

/-- A local time at which a digest is configured. -/
def SlotTime (slots : List Nat) (l : Int) : Prop := ∃ slot ∈ slots, l % 86400 = slot * 60

/-- The latest configured local time up to another. -/
def LatestSlot (slots : List Nat) (n l : Int) : Prop :=
  SlotTime slots l ∧ l ≤ n ∧ ∀ l', SlotTime slots l' → l' ≤ n → l' ≤ l

theorem LatestSlot.within_day {slots : List Nat} {n l : Int} (h : LatestSlot slots n l) :
    n < l + 86400 := by
  obtain ⟨⟨slot, hmem, hslot⟩, _, hmax⟩ := h
  have hnext : SlotTime slots (l + 86400) := ⟨slot, hmem, by omega⟩
  by_contra hge
  have hle := hmax _ hnext (by omega)
  omega

theorem parseDigestTime_lt {token : List Char} {slot : Nat}
    (h : parseDigestTime token = some slot) : slot < 1440 := by
  unfold parseDigestTime at h
  simp only [Option.bind_eq_bind, Option.bind_eq_some_iff] at h
  obtain ⟨hour, _, minute, _, h⟩ := h
  split at h
  · cases h
  · split at h
    · cases h
    · cases h
      exact Nat.mod_lt _ (by decide)

theorem addDigestTime_lt {slots next : List Nat} {raw : List Char}
    (hslots : ∀ slot ∈ slots, slot < 1440) (h : addDigestTime slots raw = some next) :
    ∀ slot ∈ next, slot < 1440 := by
  unfold addDigestTime at h
  dsimp only at h
  split at h
  · cases h
    exact hslots
  · simp only [Option.bind_eq_bind, Option.bind_eq_some_iff, Option.some.injEq] at h
    obtain ⟨snapped, hsnapped, hnext⟩ := h
    intro slot hmem
    split at hnext
    · rw [← hnext] at hmem
      exact hslots slot hmem
    · rw [← hnext, List.mem_append, List.mem_singleton] at hmem
      cases hmem with
      | inl hmem => exact hslots slot hmem
      | inr heq => exact heq ▸ parseDigestTime_lt hsnapped

theorem foldlM_addDigestTime_lt {raws : List (List Char)} {slots next : List Nat}
    (hslots : ∀ slot ∈ slots, slot < 1440) (h : raws.foldlM addDigestTime slots = some next) :
    ∀ slot ∈ next, slot < 1440 := by
  induction raws generalizing slots with
  | nil =>
      cases h
      exact hslots
  | cons raw raws ih =>
      rw [List.foldlM_cons, Option.bind_eq_bind, Option.bind_eq_some_iff] at h
      obtain ⟨middle, hmiddle, h⟩ := h
      exact ih (addDigestTime_lt hslots hmiddle) h

/-- Every slot is a minute of the day. -/
theorem digestSlots_lt {digestTime : Option String} {slots : List Nat}
    (h : digestSlots digestTime = some slots) : ∀ slot ∈ slots, slot < 1440 := by
  cases digestTime with
  | none =>
      cases h
      decide
  | some times =>
      have hparse : parseDigestTimes times = some slots := h
      unfold parseDigestTimes at hparse
      simp only [Option.bind_eq_bind, Option.bind_eq_some_iff] at hparse
      obtain ⟨found, hfound, hparse⟩ := hparse
      split at hparse
      · cases hparse
      · split at hparse
        · cases hparse
        · cases hparse
          intro slot hmem
          rw [mem_orderBy] at hmem
          exact foldlM_addDigestTime_lt (by simp) hfound slot hmem

/-- The slot before it is cast: the latest one of a clock with the offset. -/
theorem exists_latestSlot {slots : List Nat} (now tzOffset : Int) (hne : slots ≠ [])
    (hslots : ∀ slot ∈ slots, slot < 1440) :
    ∃ l, LatestSlot slots (now + tzOffset) l ∧ latestDueDigestSlot slots now tzOffset =
      if i32Min ≤ l - tzOffset ∧ l - tzOffset ≤ i32Max then some (l - tzOffset) else none := by
  obtain ⟨latest, hlatest⟩ : ∃ latest, slots.max? = some latest := by
    cases hmax : slots.max? with
    | none => exact absurd (List.max?_eq_none_iff.mp hmax) hne
    | some latest => exact ⟨latest, rfl⟩
  obtain ⟨hmem, hmax⟩ := List.max?_eq_some_iff.mp hlatest
  have hlt := hslots latest hmem
  unfold latestDueDigestSlot
  simp only [hlatest, Option.bind_eq_bind, Option.bind_some]
  cases hfilter : (slots.filter (fun slot : Nat =>
      ((slot : Int) ≤ (now + tzOffset) % 86400 / 60))).max? with
  | some slot =>
      refine ⟨(now + tzOffset) / 86400 * 86400 + (slot : Int) * 60, ?_, rfl⟩
      obtain ⟨hslot, hbest⟩ := List.max?_eq_some_iff.mp hfilter
      rw [List.mem_filter, decide_eq_true_eq] at hslot
      have hslotlt := hslots slot hslot.1
      refine ⟨⟨slot, hslot.1, by omega⟩, by omega, fun l' hl' hle => ?_⟩
      obtain ⟨slot', hmem', hslot'⟩ := hl'
      by_cases hday : l' / 86400 < (now + tzOffset) / 86400
      · omega
      · have hin : slot' ∈ slots.filter (fun slot : Nat =>
            ((slot : Int) ≤ (now + tzOffset) % 86400 / 60)) := by
          rw [List.mem_filter, decide_eq_true_eq]
          exact ⟨hmem', by omega⟩
        have hbest' := hbest slot' hin
        omega
  | none =>
      refine ⟨(now + tzOffset) / 86400 * 86400 - 86400 + (latest : Int) * 60, ?_, rfl⟩
      have hlate : ∀ slot ∈ slots, ¬ (slot : Int) ≤ (now + tzOffset) % 86400 / 60 := by
        intro slot hslot hle
        have hempty := List.max?_eq_none_iff.mp hfilter
        have hin : slot ∈ slots.filter (fun slot : Nat =>
            ((slot : Int) ≤ (now + tzOffset) % 86400 / 60)) := by
          rw [List.mem_filter, decide_eq_true_eq]
          exact ⟨hslot, hle⟩
        rw [hempty] at hin
        cases hin
      refine ⟨⟨latest, hmem, by omega⟩, by omega, fun l' hl' hle => ?_⟩
      obtain ⟨slot', hmem', hslot'⟩ := hl'
      have hlate' := hlate slot' hmem'
      have hmax' := hmax slot' hmem'
      by_cases hday : l' / 86400 < (now + tzOffset) / 86400
      · omega
      · omega

/-- The due instant is that of the latest slot on a clock with the offset. -/
theorem latestDueDigestSlot_spec {slots : List Nat} {now tzOffset due : Int}
    (hslots : ∀ slot ∈ slots, slot < 1440)
    (h : latestDueDigestSlot slots now tzOffset = some due) :
    LatestSlot slots (now + tzOffset) (due + tzOffset) := by
  have hne : slots ≠ [] := by
    rintro rfl
    cases h
  obtain ⟨l, hlatest, heq⟩ := exists_latestSlot now tzOffset hne hslots
  rw [heq, Option.ite_none_right_eq_some, Option.some.injEq] at h
  rw [← h.2, Int.sub_add_cancel]
  exact hlatest

/-! ## One digest for a slot -/

namespace DigestUser

variable {z : Zone} {digestTime : Option String} {s : DigestUser} {t : DigestTick}

/-- No two digests came for one slot. -/
def OnePerSlot (s : DigestUser) : Prop := (s.sent.filterMap (·.slot)).Nodup

/-- Every slot that was reached by a tick that could deliver has its digest. -/
def NoneSkipped (s : DigestUser) : Prop := ∀ l ∈ s.reached, some l ∈ s.sent.map (·.slot)

/-- The tick is before 2038. When the notification is delivered, the checkpoint and the zone could
be loaded, the delivery is logged, and the instant that the latest slot has with the offset of the
zone is not after a digest of this slot; if there is none, it is after every other digest, and the
last notification was sent at least nine minutes ago. -/
def Tells (z : Zone) (digestTime : Option String) (s : DigestUser) : DigestAction → Prop
  | .restart => True
  | .tick t =>
      t.now + t.late + t.took < 2147483648 ∧
        (t.enabled = some true → t.sending = .delivered →
          t.gateLoads = true ∧ t.infoLoads = true ∧ t.logged = true ∧
            ∀ l ∈ t.slot z (digestSlots digestTime),
              (∀ d ∈ s.sent, d.slot = some l → l - t.offset z ≤ d.loggedAt) ∧
              (some l ∉ s.sent.map (·.slot) →
                (∀ d ∈ s.sent, d.loggedAt < l - t.offset z) ∧
                s.cooldown.all (fun lastSent => 540 ≤ t.nowI32 - lastSent) = true))

instance (action : DigestAction) : Decidable (s.Tells z digestTime action) := by
  unfold Tells
  cases action with
  | restart => exact instDecidableTrue
  | tick t => exact inferInstance

theorem nowI32_eq (h : t.now + t.late + t.took < 2147483648) : t.nowI32 = t.now :=
  asI32_eq_self.mpr ⟨by omega, by omega⟩

theorem slot_spec {l : Int} (h : t.slot z (digestSlots digestTime) = some l) :
    ∃ slots, digestSlots digestTime = some slots ∧
      latestDueDigestSlot slots t.now (t.offset z) = some (l - t.offset z) ∧
      LatestSlot slots (t.now + t.offset z) l := by
  unfold DigestTick.slot at h
  rw [Option.map_eq_some_iff] at h
  obtain ⟨due, hdue, hl⟩ := h
  obtain ⟨slots, hslots, hdue⟩ := Option.bind_eq_some_iff.mp hdue
  have heq : l - t.offset z = due := by omega
  refine ⟨slots, hslots, by rw [heq]; exact hdue, ?_⟩
  rw [← hl]
  exact latestDueDigestSlot_spec (digestSlots_lt hslots) hdue

/-- The delivered digests are the logged ones. -/
def Logged (s : DigestUser) : Prop := s.logs = s.sent.map (·.loggedAt)

theorem checkpoint_ge (hlogged : s.Logged) {d : SentDigest} (hd : d ∈ s.sent) :
    ∃ c, s.checkpoint = some c ∧ d.loggedAt ≤ c := by
  have hmem : d.loggedAt ∈ s.logs := by
    rw [hlogged]
    exact List.mem_map_of_mem hd
  cases hc : s.logs.max? with
  | none =>
      rw [List.max?_eq_none_iff.mp hc] at hmem
      cases hmem
  | some c => exact ⟨c, hc, (List.max?_eq_some_iff.mp hc).2 _ hmem⟩

theorem checkpoint_lt (hlogged : s.Logged) {due : Int}
    (hbefore : ∀ d ∈ s.sent, d.loggedAt < due) : s.checkpoint.any (due ≤ ·) = false := by
  unfold checkpoint
  cases hc : s.logs.max? with
  | none => rfl
  | some c =>
      have hmem := (List.max?_eq_some_iff.mp hc).1
      rw [hlogged] at hmem
      obtain ⟨d, hd, heq⟩ := List.mem_map.mp hmem
      have hlt := hbefore d hd
      rw [Option.any_some, decide_eq_false_iff_not]
      omega

theorem saturatingSub_ge {a b : Int} : 86400 ≤ saturatingSub a b ↔ 86400 ≤ a - b := by
  unfold saturatingSub clampI32 i32Min i32Max
  omega

/-- Nothing is sent again while the digest of the latest slot is logged after the slot. -/
theorem deliver_of_sent (hlogged : s.Logged) (hbefore2038 : t.now + t.late + t.took < 2147483648)
    (hgate : t.gateLoads = true) (hinfo : t.infoLoads = true) {l : Int}
    (hslot : t.slot z (digestSlots digestTime) = some l) {d : SentDigest} (hd : d ∈ s.sent)
    (hafter : l - t.offset z ≤ d.loggedAt) : s.deliverSmartDigests z digestTime t = s := by
  obtain ⟨slots, hslots, hdue, hlatest⟩ := slot_spec hslot
  obtain ⟨c, hc, hle⟩ := checkpoint_ge hlogged hd
  have hnow := nowI32_eq hbefore2038
  have hfresh : s.stale t = false := by
    have hday := hlatest.within_day
    unfold stale
    rw [if_pos hgate, hc, Option.all_some, decide_eq_false_iff_not, saturatingSub_ge, hnow]
    omega
  have hpast : s.checkpoint.any (l - t.offset z ≤ ·) = true := by
    rw [hc, Option.any_some, decide_eq_true_eq]
    omega
  unfold deliverSmartDigests deliverSlot DigestTick.tzOffset
  rw [hslots, hfresh, if_pos hinfo, hnow]
  simp only [hdue, hpast, Bool.false_and, Bool.false_eq_true, if_false, if_true, ite_self]

/-- A tick that could deliver sends the digest of a slot that is later than all digests. -/
theorem deliver_of_serves (hlogged : s.Logged)
    (hbefore2038 : t.now + t.late + t.took < 2147483648) (hserves : t.serves = true) {l : Int}
    (hslot : t.slot z (digestSlots digestTime) = some l)
    (hlater : ∀ d ∈ s.sent, d.loggedAt < l - t.offset z)
    (hcool : s.cooldown.all (fun lastSent => 540 ≤ t.nowI32 - lastSent) = true) :
    s.deliverSmartDigests z digestTime t = s.sendNotification z digestTime t := by
  obtain ⟨slots, hslots, hdue, _⟩ := slot_spec hslot
  have hnow := nowI32_eq hbefore2038
  have hopen : s.checkpoint.any (l - t.offset z ≤ ·) = false := checkpoint_lt hlogged hlater
  have hwaited : s.cooldown.any (fun lastSent => t.nowI32 - lastSent < 540) = false := by
    cases hlast : s.cooldown with
    | none => rfl
    | some lastSent =>
        rw [hlast, Option.all_some, decide_eq_true_eq] at hcool
        rw [Option.any_some, decide_eq_false_iff_not]
        omega
  unfold DigestTick.serves at hserves
  simp only [Bool.and_eq_true, decide_eq_true_eq] at hserves
  obtain ⟨⟨⟨⟨⟨⟨henabled, _⟩, hcheckpoint⟩, hsettings⟩, hinfo⟩, hcontent⟩, _⟩ := hserves
  rw [hnow] at hwaited
  unfold deliverSmartDigests deliverSlot DigestTick.tzOffset
  rw [hslots, if_pos hinfo, hnow]
  simp only [henabled, hdue, hcheckpoint, hsettings, hcontent, hopen, hwaited, ne_eq,
    not_true, if_false, Bool.not_true, Bool.false_eq_true, ite_self]

theorem deliver_cases (z : Zone) (digestTime : Option String) (s : DigestUser) (t : DigestTick) :
    s.deliverSmartDigests z digestTime t = s ∨
      t.enabled = some true ∧
        s.deliverSmartDigests z digestTime t = s.sendNotification z digestTime t := by
  unfold deliverSmartDigests
  by_cases henabled : t.enabled = some true
  · rw [if_neg (not_not_intro henabled)]
    unfold deliverSlot
    split
    · exact Or.inr ⟨henabled, rfl⟩
    · repeat' split
      all_goals first | exact Or.inl rfl | exact Or.inr ⟨henabled, rfl⟩
  · rw [if_pos henabled]
    exact Or.inl rfl

/-- The invariant of the runs: what is logged, one digest for a slot and none skipped. -/
structure Inv (s : DigestUser) : Prop where
  logged : s.Logged
  once : s.OnePerSlot
  reached : s.NoneSkipped

theorem inv_start : start.Inv :=
  ⟨rfl, List.nodup_nil, fun _ hl => (List.not_mem_nil hl).elim⟩

/-- What a delivered notification adds. -/
theorem sendNotification_delivered (z : Zone) (digestTime : Option String) (s : DigestUser)
    (hsending : t.sending = .delivered) (hlogged : t.logged = true) :
    (s.sendNotification z digestTime t).sent =
        ⟨t.slot z (digestSlots digestTime), t.loggedAt⟩ :: s.sent ∧
      (s.sendNotification z digestTime t).logs = t.loggedAt :: s.logs := by
  unfold sendNotification
  rw [hsending]
  simp only [hlogged, if_true, and_self]

theorem sendNotification_undelivered (z : Zone) (digestTime : Option String) (s : DigestUser)
    (hsending : t.sending ≠ .delivered) :
    (s.sendNotification z digestTime t).sent = s.sent ∧
      (s.sendNotification z digestTime t).logs = s.logs := by
  unfold sendNotification
  cases hs : t.sending with
  | delivered => exact absurd hs hsending
  | suppressed => exact ⟨rfl, rfl⟩
  | failed => exact ⟨rfl, rfl⟩

theorem deliver_reached (z : Zone) (digestTime : Option String) (s : DigestUser)
    (t : DigestTick) : (s.deliverSmartDigests z digestTime t).reached = s.reached := by
  cases deliver_cases z digestTime s t with
  | inl hsame => rw [hsame]
  | inr hsent =>
      rw [hsent.2]
      unfold sendNotification
      cases t.sending <;> rfl

/-- The handling of the user keeps the digests in order and adds none for a slot that has one. -/
theorem Inv.deliver (h : s.Inv) (htells : s.Tells z digestTime (.tick t)) :
    (s.deliverSmartDigests z digestTime t).Inv := by
  obtain ⟨hbefore2038, hdelivers⟩ := htells
  have hreached := deliver_reached z digestTime s t
  cases deliver_cases z digestTime s t with
  | inl hsame =>
      rw [hsame]
      exact h
  | inr hsent =>
      obtain ⟨henabled, hsent⟩ := hsent
      rw [hsent] at hreached
      by_cases hsending : t.sending = .delivered
      · obtain ⟨hgate, hinfo, hlog, htold⟩ := hdelivers henabled hsending
        obtain ⟨hadd, hlogs⟩ :=
          sendNotification_delivered z digestTime s hsending hlog
        have hfresh : ∀ l, t.slot z (digestSlots digestTime) = some l →
            l ∉ s.sent.filterMap (·.slot) := by
          intro l hslot hmem
          obtain ⟨d, hd, hdl⟩ := List.mem_filterMap.mp hmem
          have hafter := (htold l hslot).1 d hd hdl
          have hsame := deliver_of_sent h.logged hbefore2038 hgate hinfo hslot hd hafter
          rw [hsent] at hsame
          rw [hsame] at hadd
          have hlen := congrArg List.length hadd
          rw [List.length_cons] at hlen
          omega
        rw [hsent]
        refine ⟨?_, ?_, ?_⟩
        · show _ = _
          rw [hadd, hlogs, List.map_cons, h.logged]
        · show List.Nodup _
          rw [hadd]
          cases hslot : t.slot z (digestSlots digestTime) with
          | none => exact h.once
          | some l => exact List.Nodup.cons (hfresh l hslot) h.once
        · intro l hl
          rw [hreached] at hl
          rw [hadd, List.map_cons]
          exact List.mem_cons_of_mem _ (h.reached l hl)
      · obtain ⟨hsame, hlogs⟩ :=
          sendNotification_undelivered z digestTime s hsending
        rw [hsent]
        refine ⟨?_, ?_, ?_⟩
        · show _ = _
          rw [hsame, hlogs, h.logged]
        · show List.Nodup _
          rw [hsame]
          exact h.once
        · intro l hl
          rw [hreached] at hl
          rw [hsame]
          exact h.reached l hl

/-- A slot that a tick could deliver has its digest after it. -/
theorem Inv.serves (h : s.Inv) (htells : s.Tells z digestTime (.tick t))
    (hserves : t.serves = true) {l : Int}
    (hslot : t.slot z (digestSlots digestTime) = some l) :
    some l ∈ (s.deliverSmartDigests z digestTime t).sent.map (·.slot) := by
  obtain ⟨hbefore2038, hdelivers⟩ := htells
  have hparts := hserves
  unfold DigestTick.serves at hparts
  simp only [Bool.and_eq_true, decide_eq_true_eq] at hparts
  obtain ⟨_, hsending⟩ := hparts
  have henabled : t.enabled = some true := by grind
  obtain ⟨hgate, hinfo, hlog, htold⟩ := hdelivers henabled hsending
  obtain ⟨hafter, hlater⟩ := htold l hslot
  by_cases hmem : some l ∈ s.sent.map (·.slot)
  · obtain ⟨d, hd, hdl⟩ := List.mem_map.mp hmem
    have hsame := deliver_of_sent h.logged hbefore2038 hgate hinfo hslot hd (hafter d hd hdl)
    rw [hsame]
    exact hmem
  · obtain ⟨hbefore, hcool⟩ := hlater hmem
    have hsent := deliver_of_serves h.logged hbefore2038 hserves hslot hbefore hcool
    obtain ⟨hadd, _⟩ :=
      sendNotification_delivered z digestTime s hsending hlog
    rw [hsent, hadd, hslot, List.map_cons]
    exact List.mem_cons_self

theorem Inv.step {next : DigestUser} {action : DigestAction} (h : s.Inv)
    (htells : s.Tells z digestTime action) (hstep : s.step z digestTime action = some next) :
    next.Inv := by
  cases action with
  | restart =>
      cases hstep
      exact ⟨h.logged, h.once, h.reached⟩
  | tick t =>
      unfold DigestUser.step at hstep
      rw [Option.ite_none_right_eq_some, Option.some.injEq] at hstep
      obtain ⟨_, hnext⟩ := hstep
      have hdeliver := h.deliver htells
      rw [← hnext]
      refine ⟨hdeliver.logged, hdeliver.once, fun l hl => ?_⟩
      have hreached := deliver_reached z digestTime s t
      by_cases hserves : t.serves = true
      · simp only [hserves, if_true, List.mem_append, Option.mem_toList] at hl
        cases hl with
        | inl hslot => exact h.serves htells hserves hslot
        | inr hl => exact hdeliver.reached l (by rw [hreached]; exact hl)
      · simp only [hserves, Bool.false_eq_true, if_false] at hl
        exact hdeliver.reached l (by rw [hreached]; exact hl)

end DigestUser

/-- Ticks that tell the latest slot from the digests before it deliver at most one digest for a
slot and skip none that they reach. -/
theorem digest_slots_delivered_once {z : Zone} {digestTime : Option String}
    {actions : List DigestAction} {s : DigestUser}
    (hrun : Transition.run (DigestUser.step z digestTime) .start actions = some s)
    (htells : Transition.Meets (DigestUser.step z digestTime)
      (DigestUser.Tells z digestTime) .start actions) : s.OnePerSlot ∧ s.NoneSkipped := by
  have hinv : s.Inv := Transition.run_invariant
    (fun _ _ _ h htells hstep => h.step htells hstep) DigestUser.inv_start htells hrun
  exact ⟨hinv.once, hinv.reached⟩

/-! ## A night in autumn -/

namespace DigestExample

/-- Three hours east of UTC, and two from the last Sunday of October on. -/
def autumnOffset (t : Int) : Int := if t < 1792890000 then 10800 else 7200

def autumnEarliest (l : Int) : Option Int :=
  if l - 10800 < 1792890000 then some (l - 10800) else some (l - 7200)

theorem autumnOffset_bounded (t : Int) : -86400 < autumnOffset t ∧ autumnOffset t < 86400 := by
  unfold autumnOffset
  split <;> omega

theorem autumnEarliest_eq_some_iff (l t : Int) : autumnEarliest l = some t ↔
    t + autumnOffset t = l ∧ ∀ u, u + autumnOffset u = l → t ≤ u := by
  unfold autumnEarliest autumnOffset
  constructor
  · intro h
    split at h
    · cases h
      refine ⟨by split <;> omega, fun u hu => ?_⟩
      split at hu <;> omega
    · cases h
      refine ⟨by split <;> omega, fun u hu => ?_⟩
      split at hu <;> omega
  · rintro ⟨hat, hmin⟩
    have hsummer := hmin (l - 10800)
    split at hat
    · rw [if_pos (by omega), Option.some.injEq]
      omega
    · by_cases hearly : l - 10800 < 1792890000
      · rw [if_pos hearly] at hsummer
        omega
      · rw [if_neg hearly, Option.some.injEq]
        omega

theorem autumnEarliest_eq_none_iff (l : Int) :
    autumnEarliest l = none ↔ ∀ u, u + autumnOffset u ≠ l := by
  unfold autumnEarliest autumnOffset
  refine iff_of_false (by split <;> simp) (fun h => ?_)
  have hsummer := h (l - 10800)
  have hwinter := h (l - 7200)
  split at hsummer
  · omega
  · rw [if_neg (by omega)] at hwinter
    omega

def autumn : Zone where
  offset := autumnOffset
  earliest := autumnEarliest
  bounded := autumnOffset_bounded
  earliest_eq_some_iff := autumnEarliest_eq_some_iff
  earliest_eq_none_iff := autumnEarliest_eq_none_iff

/-- A tick that delivers and logs at once. -/
def tick (now : Nat) : DigestAction :=
  .tick ⟨now, 0, 0, some true, true, true, false, true, true, true, .delivered, true⟩

def reached (ticks : List DigestAction) : DigestUser :=
  Transition.final (DigestUser.step autumn (some "03:00")) .start ticks

end DigestExample

open DigestExample in
theorem digest_slots_delivered_once_two_days :
    (reached [tick 1792800000, tick 1792886400]).OnePerSlot ∧
      (reached [tick 1792800000, tick 1792886400]).NoneSkipped :=
  digest_slots_delivered_once (Transition.run_eq_final (by decide +kernel)) (by decide +kernel)

open DigestExample in
theorem not_digest_slots_delivered_once_repeated :
    ¬ ∀ (z : Zone) (digestTime : Option String) (actions : List DigestAction) (s : DigestUser),
      Transition.run (DigestUser.step z digestTime) .start actions = some s →
        s.OnePerSlot ∧ s.NoneSkipped := by
  intro hlaw
  have hrun : Transition.run (DigestUser.step autumn (some "03:00")) .start
      [tick 1792886400, tick 1792890000] = some (reached [tick 1792886400, tick 1792890000]) :=
    Transition.run_eq_final (by decide +kernel)
  have honce := (hlaw _ _ _ _ hrun).1
  unfold DigestUser.OnePerSlot at honce
  exact absurd honce (by decide +kernel)

end Lightfriend.Proactive
