import Lightfriend.Core.Database
import Lightfriend.Core.Log
import Lightfriend.Core.Machine
import Lightfriend.Core.Table
import Lightfriend.Core.Transition

/-! # The outbox of pushes

A row for a device stands for a wakeup that is still to be pushed. Workers claim
due rows for the length of a lease, send, and settle the row if it still has the
version that they claimed. A send may take longer than the lease.
-/

namespace Lightfriend.LightTool.PushOutbox

/-! ## The rows and the statements -/

structure PushEvent where
  deviceId : Int
  eventType : String
  version : Int
  attemptCount : Int
  nextAttemptAt : Int
  leaseUntil : Int
  createdAt : Int
  updatedAt : Int
  /-- Which insert wrote the row; no code reads it. -/
  insertion : Nat
deriving DecidableEq, Repr

abbrev Outbox := Table PushEvent Int PushEvent.deviceId

def conversationChangedEvent : String := "conversation_changed"

def claimBatchSize : Nat := 50
def leaseSeconds : Int := 120
def retryDelaysSeconds : List Int := [5, 15, 60, 300, 900]

/-- An exact result as it wraps around in an `i64`. -/
def wrapI64 (x : Int) : Int := (x + 9223372036854775808) % 18446744073709551616 - 9223372036854775808

def retryDelaySeconds (deviceId eventVersion attemptCount : Int) : Int :=
  let index := if 0 ≤ attemptCount then min attemptCount.toNat 4 else 4
  let base := (retryDelaysSeconds[index]?).getD 900
  let jitterRange := max (base / 5) 1
  let seed := wrapI64 (wrapI64 (wrapI64 (deviceId * 31) + eventVersion) + attemptCount)
  saturatingAdd base ((seed.natAbs : Int) % jitterRange)

def enqueueConversationChanged (deviceId now : Int) (insertion : Nat) (rows : Outbox) : Outbox :=
  rows.upsert
    { deviceId, eventType := conversationChangedEvent, version := 1, attemptCount := 0,
      nextAttemptAt := now, leaseUntil := 0, createdAt := now, updatedAt := now, insertion }
    (fun r =>
      { r with eventType := conversationChangedEvent, version := r.version + 1, updatedAt := now })
    (fun _ => rfl)

def claimOrder (a b : PushEvent) : Prop :=
  a.nextAttemptAt < b.nextAttemptAt ∨
    a.nextAttemptAt = b.nextAttemptAt ∧ a.deviceId ≤ b.deviceId

instance : DecidableRel claimOrder := fun a b => by
  unfold claimOrder
  infer_instance

/-- The devices whose rows are due, without the rows that another transaction has locked. -/
def dueDevices (now : Int) (limit : Nat) (locked : List Int) (rows : Outbox) : List Int :=
  ((orderBy claimOrder (rows.rows.filter (fun r =>
    r.nextAttemptAt ≤ now ∧ r.leaseUntil ≤ now ∧ r.deviceId ∉ locked))).take limit).map
      PushEvent.deviceId

def leaseRows (devices : List Int) (leaseUntil : Int) (rows : Outbox) : Outbox :=
  rows.updateWhere (fun r => r.deviceId ∈ devices) (fun r => { r with leaseUntil }) (fun _ => rfl)

def claimDue (now leaseUntil : Int) (limit : Nat) (locked : List Int) (rows : Outbox) :
    List PushEvent × Outbox :=
  let devices := dueDevices now limit locked rows
  let leased := leaseRows devices leaseUntil rows
  (leased.rows.filter (fun r => r.deviceId ∈ devices), leased)

def claimedRow (deviceId expectedVersion : Int) (r : PushEvent) : Bool :=
  r.deviceId = deviceId ∧ r.version = expectedVersion

def complete (deviceId expectedVersion : Int) (rows : Outbox) : Outbox :=
  rows.deleteWhere (claimedRow deviceId expectedVersion)

def scheduleRetry (deviceId expectedVersion nextAttemptAt now : Int) (rows : Outbox) : Outbox :=
  rows.updateWhere (claimedRow deviceId expectedVersion)
    (fun r => { r with
      attemptCount := r.attemptCount + 1
      nextAttemptAt
      leaseUntil := 0
      updatedAt := now })
    (fun _ => rfl)

/-! ## Workers -/

inductive Phase
  | claimed
  | sending
  | sent (ok : Bool)
  | settled
deriving DecidableEq, Repr

/-- One event of a batch, with the time of the batch. -/
structure Delivery where
  event : PushEvent
  now : Int
  phase : Phase
deriving DecidableEq, Repr

/-- What happened, by the index of the delivery; no code reads it. -/
inductive Entry
  | enqueued (deviceId : Int)
  | claimed (delivery : Nat) (deviceId : Int)
  | began (delivery : Nat) (deviceId : Int)
  | delivered (delivery : Nat) (deviceId : Int)
  /-- A `complete` or a `schedule_retry` that found its row. -/
  | settled (delivery : Nat) (deviceId : Int)
deriving DecidableEq, Repr

structure State where
  rows : Outbox
  insertions : Nat
  deliveries : List Delivery
  /-- Newest first. -/
  log : List Entry

inductive Action
  | enqueue (deviceId now : Int) (fate : StatementFate)
  | claimDue (now : Int) (locked : List Int) (fate : StatementFate)
  | send (delivery : Nat)
  | sendEnds (delivery : Nat) (ok : Bool)
  | settle (delivery : Nat) (fate : StatementFate)
deriving DecidableEq, Repr

namespace State

def enqueued (s : State) (deviceId now : Int) : State :=
  { s with
    rows := enqueueConversationChanged deviceId now s.insertions s.rows
    insertions := s.insertions + 1
    log := .enqueued deviceId :: s.log }

/-- The entries of a batch whose first delivery has the index `start`. -/
def batchEntries : Nat → List PushEvent → List Entry
  | _, [] => []
  | start, e :: rest => .claimed start e.deviceId :: batchEntries (start + 1) rest

/-- The batch of a worker, from `process_due_once`. -/
def batch (s : State) (now : Int) (locked : List Int) : State :=
  let (events, rows) :=
    PushOutbox.claimDue now (saturatingAdd now leaseSeconds) claimBatchSize locked s.rows
  { s with
    rows
    deliveries := s.deliveries ++ events.map (fun e => ⟨e, now, .claimed⟩)
    log := batchEntries s.deliveries.length events ++ s.log }

/-- The rows of a batch, leased to a worker that sees an error. -/
def leased (s : State) (now : Int) (locked : List Int) : State :=
  { s with
    rows := (PushOutbox.claimDue now (saturatingAdd now leaseSeconds) claimBatchSize locked
      s.rows).2 }

def setPhase (s : State) (index : Nat) (d : Delivery) (phase : Phase) : State :=
  { s with deliveries := s.deliveries.set index { d with phase } }

/-- The last statement for an event: `complete` after a send without an error. -/
def settleRows (rows : Outbox) (d : Delivery) (ok : Bool) : Outbox :=
  if ok then complete d.event.deviceId d.event.version rows
  else
    scheduleRetry d.event.deviceId d.event.version
      (saturatingAdd d.now
        (retryDelaySeconds d.event.deviceId d.event.version d.event.attemptCount))
      d.now rows

def settle (s : State) (index : Nat) (d : Delivery) (ok : Bool) : State :=
  { s with
    rows := settleRows s.rows d ok
    log :=
      if s.rows.rows.any (claimedRow d.event.deviceId d.event.version) then
        .settled index d.event.deviceId :: s.log
      else s.log }

end State

def step (s : State) : Action → Option State
  | .enqueue deviceId now fate => some (fate.after s (s.enqueued deviceId now))
  | .claimDue now locked fate =>
      match fate with
      | .done => some (s.batch now locked)
      | .refused => some s
      | .lost => some (s.leased now locked)
  | .send index =>
      match s.deliveries[index]? with
      | none => none
      | some d =>
          if d.phase ≠ .claimed then none
          -- an event of another type is discarded as if it had been sent
          else if d.event.eventType ≠ conversationChangedEvent then
            some (s.setPhase index d (.sent true))
          else
            some { s.setPhase index d .sending with
              log := .began index d.event.deviceId :: s.log }
  | .sendEnds index ok =>
      match s.deliveries[index]? with
      | none => none
      | some d =>
          if d.phase ≠ .sending then none
          else if ok then
            some { s.setPhase index d (.sent true) with
              log := .delivered index d.event.deviceId :: s.log }
          else some (s.setPhase index d (.sent false))
  | .settle index fate =>
      match s.deliveries[index]? with
      | none => none
      | some d =>
          match d.phase with
          | .sent ok =>
              let t := s.setPhase index d .settled
              some (fate.after t (t.settle index d ok))
          | _ => none

def init : State := ⟨Table.empty, 0, [], []⟩

/-! ## What is promised -/

/-- After every enqueue the row is there, or a send that began since then has ended well. -/
def Woken (s : State) : Prop :=
  ∀ later earlier deviceId, s.log = later ++ .enqueued deviceId :: earlier →
    (∃ r ∈ s.rows, r.deviceId = deviceId) ∨
      ∃ k, .began k deviceId ∈ later ∧ .delivered k deviceId ∈ later

/-- A delivery settles a row only when nothing was enqueued for the device since the claim. -/
def SettlesOwn (s : State) : Prop :=
  ∀ later earlier k deviceId, s.log = later ++ .settled k deviceId :: earlier →
    ∃ mid old, earlier = mid ++ .claimed k deviceId :: old ∧ .enqueued deviceId ∉ mid

/-- A row with the device and the version of the claim is the row that was claimed. -/
def SameRow (s : State) : Action → Prop
  | .settle index _ => ∀ d, s.deliveries[index]? = some d → ∀ r ∈ s.rows,
      r.deviceId = d.event.deviceId → r.version = d.event.version →
        r.insertion = d.event.insertion
  | _ => True

/-! ## The invariant -/

/-- What is known of a delivery. -/
structure Held (s : State) (k : Nat) (d : Delivery) : Prop where
  known : d.event.eventType = conversationChangedEvent
  old : d.event.insertion < s.insertions
  claim : ∃ mid old, s.log = mid ++ .claimed k d.event.deviceId :: old ∧
    (∀ r ∈ s.rows, r.deviceId = d.event.deviceId → r.insertion = d.event.insertion →
      d.event.version ≤ r.version ∧
        (r.version = d.event.version → .enqueued d.event.deviceId ∉ mid)) ∧
    (d.phase = .sending → .began k d.event.deviceId ∈ mid) ∧
    (d.phase = .sent true →
      .began k d.event.deviceId ∈ mid ∧ .delivered k d.event.deviceId ∈ mid)

structure Inv (s : State) : Prop where
  rowsKnown : ∀ r ∈ s.rows, r.eventType = conversationChangedEvent ∧ r.insertion < s.insertions
  held : ∀ k d, s.deliveries[k]? = some d → Held s k d
  woken : Woken s
  settlesOwn : SettlesOwn s

theorem inv_init : Inv init where
  rowsKnown := fun r hr => absurd hr (Table.not_mem_empty r)
  held := by simp [init]
  woken := by simp [Woken, init]
  settlesOwn := by simp [SettlesOwn, init]

/-- A delivery after entries that are no enqueues of its device, with the versions unchanged. -/
theorem Held.grow {s t : State} {k : Nat} {d d' : Delivery} (h : Held s k d)
    (hevent : d'.event = d.event) (pre : List Entry) (hlog : t.log = pre ++ s.log)
    (hpre : .enqueued d.event.deviceId ∉ pre) (hins : s.insertions ≤ t.insertions)
    (hrows : ∀ r ∈ t.rows, r.deviceId = d.event.deviceId → ∃ old ∈ s.rows,
      old.deviceId = r.deviceId ∧ old.insertion = r.insertion ∧ old.version = r.version)
    (hsending : d'.phase = .sending → d.phase = .sending ∨ .began k d.event.deviceId ∈ pre)
    (hsent : d'.phase = .sent true → d.phase = .sent true ∨
      d.phase = .sending ∧ .delivered k d.event.deviceId ∈ pre) : Held t k d' where
  known := hevent ▸ h.known
  old := hevent ▸ lt_of_lt_of_le h.old hins
  claim := by
    rw [hevent]
    obtain ⟨mid, old, heq, hversion, hbegan, hdone⟩ := h.claim
    refine ⟨pre ++ mid, old, by rw [hlog, heq, List.append_assoc], ?_, ?_, ?_⟩
    · intro r hr hdevice hinsertion
      obtain ⟨row, hrow, hid, hin, hver⟩ := hrows r hr hdevice
      obtain ⟨hle, hnot⟩ := hversion row hrow (hid.trans hdevice) (hin.trans hinsertion)
      rw [hver] at hle hnot
      refine ⟨hle, fun hsame hmem => ?_⟩
      rcases List.mem_append.mp hmem with hmem | hmem
      · exact hpre hmem
      · exact hnot hsame hmem
    · intro hphase
      rcases hsending hphase with hold | hnew
      · exact List.mem_append_right _ (hbegan hold)
      · exact List.mem_append_left _ hnew
    · intro hphase
      rcases hsent hphase with hold | ⟨hold, hnew⟩
      · exact ⟨List.mem_append_right _ (hdone hold).1, List.mem_append_right _ (hdone hold).2⟩
      · exact ⟨List.mem_append_right _ (hbegan hold), List.mem_append_left _ hnew⟩

/-- Entries that are no enqueues, over rows of the same devices. -/
theorem Woken.grow {s t : State} (h : Woken s) {pre : List Entry} (hlog : t.log = pre ++ s.log)
    (hpre : ∀ deviceId, .enqueued deviceId ∉ pre)
    (hrows : ∀ r ∈ s.rows, ∃ new ∈ t.rows, new.deviceId = r.deviceId) : Woken t := by
  intro later earlier deviceId heq
  rw [hlog] at heq
  obtain ⟨rest, rfl, hrest⟩ := Log.append_split (hpre deviceId) heq
  rcases h rest earlier deviceId hrest with ⟨r, hr, hid⟩ | ⟨k, hbegan, hdone⟩
  · obtain ⟨new, hnew, hsame⟩ := hrows r hr
    exact .inl ⟨new, hnew, hsame.trans hid⟩
  · exact .inr ⟨k, List.mem_append_right _ hbegan, List.mem_append_right _ hdone⟩

theorem SettlesOwn.grow {s t : State} (h : SettlesOwn s) (pre : List Entry)
    (hlog : t.log = pre ++ s.log) (hpre : ∀ k deviceId, .settled k deviceId ∉ pre) :
    SettlesOwn t := by
  intro later earlier k deviceId heq
  rw [hlog] at heq
  obtain ⟨rest, -, hrest⟩ := Log.append_split (hpre k deviceId) heq
  exact h rest earlier k deviceId hrest

/-! ## The steps -/

/-- The rows after an enqueue: those of the other devices, and the row of the device with a version
that is new to its insertion. -/
theorem mem_enqueue {deviceId now : Int} {insertion : Nat} {rows : Outbox} {r : PushEvent}
    (h : r ∈ enqueueConversationChanged deviceId now insertion rows) :
    (r ∈ rows ∧ r.deviceId ≠ deviceId) ∨
      r.deviceId = deviceId ∧ r.eventType = conversationChangedEvent ∧
        (r.insertion = insertion ∨
          ∃ old ∈ rows, old.deviceId = deviceId ∧ old.insertion = r.insertion ∧
            r.version = old.version + 1) := by
  unfold enqueueConversationChanged at h
  rw [Table.mem_upsert] at h
  rcases h with ⟨old, hold, heq⟩ | ⟨-, rfl⟩
  · by_cases hid : old.deviceId = deviceId
    · rw [if_pos hid] at heq
      rw [heq]
      exact .inr ⟨hid, rfl, .inr ⟨old, hold, hid, rfl, rfl⟩⟩
    · rw [if_neg hid] at heq
      rw [heq]
      exact .inl ⟨hold, hid⟩
  · exact .inr ⟨rfl, rfl, .inl rfl⟩

/-- After an enqueue the row of the device is there, and so are those of the others. -/
theorem exists_enqueue {deviceId now : Int} {insertion : Nat} {rows : Outbox} (d : Int)
    (h : d = deviceId ∨ ∃ r ∈ rows, r.deviceId = d) :
    ∃ r ∈ enqueueConversationChanged deviceId now insertion rows, r.deviceId = d := by
  have hkey : (enqueueConversationChanged deviceId now insertion rows).HasKey d := by
    by_contra hnone
    have hfind : (enqueueConversationChanged deviceId now insertion rows).find? d = none := by
      rw [Table.find?_eq_none_iff]
      exact fun r hr hid => hnone (Table.hasKey_iff.mpr ⟨r, hr, hid⟩)
    unfold enqueueConversationChanged at hfind
    rw [Table.find?_upsert] at hfind
    split at hfind
    · cases hfind
    next hne =>
      rcases h with rfl | ⟨r, hr, hid⟩
      · exact hne rfl
      · exact Table.find?_eq_none_iff.mp hfind r hr hid
  exact Table.hasKey_iff.mp hkey

theorem Inv.enqueued {s : State} (h : Inv s) (deviceId now : Int) :
    Inv (s.enqueued deviceId now) where
  rowsKnown := fun r hr => by
    show r.eventType = conversationChangedEvent ∧ r.insertion < s.insertions + 1
    rcases mem_enqueue hr with ⟨hold, -⟩ | ⟨-, htype, hins | ⟨old, hold, -, hins, -⟩⟩
    · exact ⟨(h.rowsKnown r hold).1, Nat.lt_succ_of_lt (h.rowsKnown r hold).2⟩
    · exact ⟨htype, by omega⟩
    · have := (h.rowsKnown old hold).2
      exact ⟨htype, by omega⟩
  held := fun k d hd => by
    have hk := h.held k d hd
    by_cases hdev : deviceId = d.event.deviceId
    · -- the row of the device has a version that no claim of its insertion has
      refine ⟨hk.known, Nat.lt_succ_of_lt hk.old, ?_⟩
      obtain ⟨mid, old, heq, hversion, hbegan, hdone⟩ := hk.claim
      refine ⟨.enqueued deviceId :: mid, old, ?_, fun r hr hid hin => ?_, fun hphase =>
        List.mem_cons_of_mem _ (hbegan hphase), fun hphase => ⟨List.mem_cons_of_mem _ (hdone hphase).1,
          List.mem_cons_of_mem _ (hdone hphase).2⟩⟩
      · show Entry.enqueued deviceId :: s.log = _
        rw [heq]
        rfl
      · rcases mem_enqueue hr with ⟨-, hne⟩ | ⟨-, -, hnew | ⟨row, hrow, hrid, hrin, hver⟩⟩
        · exact absurd (hid.trans hdev.symm) hne
        · have := hk.old
          omega
        · obtain ⟨hle, -⟩ := hversion row hrow (hrid.trans hdev) (hrin.trans hin)
          exact ⟨by omega, fun hsame => by omega⟩
    · refine hk.grow rfl [.enqueued deviceId] rfl ?_ (Nat.le_succ _)
        (fun r hr => ?_) Or.inl Or.inl
      · intro hmem
        cases List.mem_singleton.mp hmem
        exact hdev rfl
      · intro hid
        rcases mem_enqueue hr with ⟨hold, -⟩ | ⟨hnew, -⟩
        · exact ⟨r, hold, rfl, rfl, rfl⟩
        · exact absurd (hnew.symm.trans hid) hdev
  woken := fun later earlier d heq => by
    rcases Log.cons_split heq with ⟨-, hx, -⟩ | ⟨rest, rfl, hrest⟩
    · cases hx
      exact .inl (exists_enqueue _ (.inl rfl))
    · rcases h.woken rest earlier d hrest with hrow | ⟨k, hbegan, hdone⟩
      · exact .inl (exists_enqueue _ (.inr hrow))
      · exact .inr ⟨k, List.mem_cons_of_mem _ hbegan, List.mem_cons_of_mem _ hdone⟩
  settlesOwn := h.settlesOwn.grow [.enqueued deviceId] rfl (by simp)

/-- Rows of the same devices, insertions and versions. -/
structure SameVersions (rows rows' : Outbox) : Prop where
  from_old : ∀ r ∈ rows', ∃ old ∈ rows, old.deviceId = r.deviceId ∧
    old.insertion = r.insertion ∧ old.version = r.version ∧ old.eventType = r.eventType
  to_new : ∀ r ∈ rows, ∃ new ∈ rows', new.deviceId = r.deviceId

theorem SameVersions.refl (rows : Outbox) : SameVersions rows rows :=
  ⟨fun r hr => ⟨r, hr, rfl, rfl, rfl, rfl⟩, fun r hr => ⟨r, hr, rfl⟩⟩

theorem sameVersions_updateWhere (rows : Outbox) (p : PushEvent → Bool)
    (set : PushEvent → PushEvent) (hkey : ∀ r, (set r).deviceId = r.deviceId)
    (hset : ∀ r, (set r).insertion = r.insertion ∧ (set r).version = r.version ∧
      (set r).eventType = r.eventType) :
    SameVersions rows (rows.updateWhere p set hkey) where
  from_old := fun r hr => by
    obtain ⟨old, hold, heq⟩ := (Table.mem_updateWhere hkey).mp hr
    obtain ⟨hins, hver, htype⟩ := hset old
    refine ⟨old, hold, ?_⟩
    rw [heq]
    split
    · exact ⟨(hkey old).symm, hins.symm, hver.symm, htype.symm⟩
    · exact ⟨rfl, rfl, rfl, rfl⟩
  to_new := fun r hr => by
    refine ⟨if p r then set r else r, (Table.mem_updateWhere hkey).mpr ⟨r, hr, rfl⟩, ?_⟩
    split
    · exact hkey r
    · rfl

/-- Entries that are no enqueues and settle nothing, over rows of the same versions. -/
theorem Inv.grow {s t : State} (h : Inv s) (pre : List Entry) (hlog : t.log = pre ++ s.log)
    (henq : ∀ deviceId, .enqueued deviceId ∉ pre)
    (hset : ∀ k deviceId, .settled k deviceId ∉ pre) (hins : t.insertions = s.insertions)
    (hrows : SameVersions s.rows t.rows) (hheld : ∀ k d, t.deliveries[k]? = some d → Held t k d) :
    Inv t where
  rowsKnown := fun r hr => by
    obtain ⟨old, hold, -, hin, -, htype⟩ := hrows.from_old r hr
    rw [hins, ← hin, ← htype]
    exact h.rowsKnown old hold
  held := hheld
  woken := h.woken.grow hlog henq hrows.to_new
  settlesOwn := h.settlesOwn.grow pre hlog hset

theorem sameVersions_claimDue (now leaseUntil : Int) (limit : Nat) (locked : List Int)
    (rows : Outbox) : SameVersions rows (claimDue now leaseUntil limit locked rows).2 := by
  unfold claimDue leaseRows
  apply sameVersions_updateWhere
  · exact fun _ => rfl
  · exact fun _ => ⟨rfl, rfl, rfl⟩

theorem sameVersions_scheduleRetry (deviceId expectedVersion nextAttemptAt now : Int)
    (rows : Outbox) :
    SameVersions rows (scheduleRetry deviceId expectedVersion nextAttemptAt now rows) := by
  unfold scheduleRetry
  apply sameVersions_updateWhere
  exact fun _ => ⟨rfl, rfl, rfl⟩

theorem mem_batchEntries {start : Nat} {events : List PushEvent} {x : Entry}
    (h : x ∈ State.batchEntries start events) : ∃ k deviceId, x = .claimed k deviceId := by
  induction events generalizing start with
  | nil => cases h
  | cons e rest ih =>
      rcases List.mem_cons.mp h with rfl | h
      · exact ⟨start, e.deviceId, rfl⟩
      · exact ih h

theorem batchEntries_split (start : Nat) {i : Nat} {events : List PushEvent} {e : PushEvent}
    (h : events[i]? = some e) : ∃ pre post,
      State.batchEntries start events = pre ++ .claimed (start + i) e.deviceId :: post := by
  induction events generalizing start i with
  | nil => cases h
  | cons first rest ih =>
      cases i with
      | zero =>
          cases h
          exact ⟨[], State.batchEntries (start + 1) rest, rfl⟩
      | succ i =>
          obtain ⟨pre, post, heq⟩ := ih (start + 1) h
          refine ⟨.claimed start first.deviceId :: pre, post, ?_⟩
          rw [State.batchEntries, heq, Nat.add_right_comm]
          rfl

theorem Inv.leased {s : State} (h : Inv s) (now : Int) (locked : List Int) :
    Inv (s.leased now locked) := by
  have hrows := sameVersions_claimDue now (saturatingAdd now leaseSeconds) claimBatchSize locked
    s.rows
  refine h.grow [] rfl (by simp) (by simp) rfl hrows (fun k d hd => ?_)
  refine (h.held k d hd).grow rfl [] rfl (by simp) (le_refl _) (fun r hr _ => ?_)
    Or.inl Or.inl
  obtain ⟨old, hold, hid, hin, hver, -⟩ := hrows.from_old r hr
  exact ⟨old, hold, hid, hin, hver⟩

theorem Inv.batch {s : State} (h : Inv s) (now : Int) (locked : List Int) :
    Inv (s.batch now locked) := by
  have hrows := sameVersions_claimDue now (saturatingAdd now leaseSeconds) claimBatchSize locked
    s.rows
  have hentry : ∀ x ∈ State.batchEntries s.deliveries.length
      (claimDue now (saturatingAdd now leaseSeconds) claimBatchSize locked s.rows).1,
      ∃ k deviceId, x = .claimed k deviceId := fun x hx => mem_batchEntries hx
  have hplain : ∀ x, (∀ k deviceId, x ≠ .claimed k deviceId) →
      x ∉ State.batchEntries s.deliveries.length
        (claimDue now (saturatingAdd now leaseSeconds) claimBatchSize locked s.rows).1 := by
    intro x hx hmem
    obtain ⟨k, deviceId, heq⟩ := hentry x hmem
    exact hx k deviceId heq
  refine h.grow _ rfl (fun _ => hplain _ (fun _ _ hx => by cases hx))
    (fun _ _ => hplain _ (fun _ _ hx => by cases hx)) rfl hrows (fun k d hd => ?_)
  by_cases hk : k < s.deliveries.length
  · have hold : s.deliveries[k]? = some d := by
      rw [← hd]
      exact (List.getElem?_append_left hk).symm
    refine (h.held k d hold).grow rfl _ rfl (hplain _ (fun _ _ hx => by cases hx)) (le_refl _)
      (fun r hr _ => ?_) Or.inl Or.inl
    obtain ⟨old, hold, hid, hin, hver, -⟩ := hrows.from_old r hr
    exact ⟨old, hold, hid, hin, hver⟩
  · -- a delivery of the batch: nothing has happened since its claim
    obtain ⟨i, rfl⟩ := Nat.exists_eq_add_of_le (Nat.le_of_not_lt hk)
    have hnew : (s.deliveries ++ (claimDue now (saturatingAdd now leaseSeconds) claimBatchSize
        locked s.rows).1.map (fun e => (⟨e, now, .claimed⟩ : Delivery)))[s.deliveries.length + i]? =
          some d := hd
    rw [List.getElem?_append_right (Nat.le_add_right _ _), Nat.add_sub_cancel_left] at hnew
    rw [List.getElem?_map, Option.map_eq_some_iff] at hnew
    obtain ⟨e, he, rfl⟩ := hnew
    have hmem : e ∈ (claimDue now (saturatingAdd now leaseSeconds) claimBatchSize locked
        s.rows).2 := (List.mem_filter.mp (List.mem_of_getElem? he)).1
    obtain ⟨row, hrow, hid, hin, hver, htype⟩ := hrows.from_old e hmem
    obtain ⟨pre, post, hsplit⟩ := batchEntries_split s.deliveries.length he
    refine ⟨?_, ?_, pre, post ++ s.log, ?_, fun r hr hdev hins => ⟨?_, fun _ hin => ?_⟩,
      (fun hphase => by cases hphase), (fun hphase => by cases hphase)⟩
    · rw [← htype]
      exact (h.rowsKnown row hrow).1
    · rw [← hin]
      exact (h.rowsKnown row hrow).2
    · show State.batchEntries s.deliveries.length (claimDue now (saturatingAdd now leaseSeconds)
        claimBatchSize locked s.rows).1 ++ s.log = _
      rw [hsplit, List.append_assoc]
      rfl
    · rw [Table.eq_of_key_eq hr hmem hdev]
    · refine hplain _ (fun k deviceId hx => ?_) (hsplit ▸ List.mem_append_left _ hin)
      cases hx

/-- A delivery that moves on, with at most one entry of its own. -/
theorem Inv.moved {s : State} (h : Inv s) {index : Nat} {d : Delivery}
    (hd : s.deliveries[index]? = some d) {phase : Phase} (pre : List Entry)
    (henq : ∀ deviceId, .enqueued deviceId ∉ pre)
    (hset : ∀ k deviceId, .settled k deviceId ∉ pre)
    (hsending : phase = .sending → .began index d.event.deviceId ∈ pre)
    (hsent : phase = .sent true →
      d.phase = .sending ∧ .delivered index d.event.deviceId ∈ pre) :
    Inv { s.setPhase index d phase with log := pre ++ s.log } := by
  refine h.grow pre rfl henq hset rfl (.refl s.rows) (fun k d' hd' => ?_)
  have hsame : ∀ r ∈ s.rows, r.deviceId = d'.event.deviceId → ∃ old ∈ s.rows,
      old.deviceId = r.deviceId ∧ old.insertion = r.insertion ∧ old.version = r.version :=
    fun r hr _ => ⟨r, hr, rfl, rfl, rfl⟩
  have hget : (s.deliveries.set index { d with phase })[k]? = some d' := hd'
  rw [List.getElem?_set] at hget
  by_cases hk : index = k
  · subst hk
    have hlt : index < s.deliveries.length := (List.getElem?_eq_some_iff.mp hd).1
    rw [if_pos rfl, if_pos hlt] at hget
    obtain rfl := Option.some.inj hget
    exact (h.held index d hd).grow rfl pre rfl (henq _) (le_refl _) hsame
      (fun hphase => .inr (hsending hphase)) (fun hphase => .inr (hsent hphase))
  · rw [if_neg hk] at hget
    exact (h.held k d' hget).grow rfl pre rfl (henq _) (le_refl _) hsame Or.inl Or.inl

/-- A settle of a row that is the one claimed: nothing was enqueued for its device since. -/
theorem Held.unchanged {s : State} {k : Nat} {d : Delivery} (h : Held s k d)
    (hsame : ∀ r ∈ s.rows, r.deviceId = d.event.deviceId → r.version = d.event.version →
      r.insertion = d.event.insertion)
    (hany : s.rows.rows.any (claimedRow d.event.deviceId d.event.version) = true) :
    ∃ mid old, s.log = mid ++ .claimed k d.event.deviceId :: old ∧
      .enqueued d.event.deviceId ∉ mid ∧
      (d.phase = .sent true → .began k d.event.deviceId ∈ mid ∧
        .delivered k d.event.deviceId ∈ mid) := by
  obtain ⟨mid, old, heq, hversion, -, hdone⟩ := h.claim
  obtain ⟨r, hr, hrow⟩ := List.any_eq_true.mp hany
  simp only [claimedRow, decide_eq_true_eq] at hrow
  obtain ⟨-, hnot⟩ := hversion r hr hrow.1 (hsame r hr hrow.1 hrow.2)
  exact ⟨mid, old, heq, hnot hrow.2, hdone⟩

theorem settleRows_old {rows : Outbox} {d : Delivery} {ok : Bool} {r : PushEvent}
    (h : r ∈ State.settleRows rows d ok) : ∃ old ∈ rows, old.deviceId = r.deviceId ∧
      old.insertion = r.insertion ∧ old.version = r.version ∧ old.eventType = r.eventType := by
  cases ok with
  | true => exact ⟨r, (Table.mem_deleteWhere.mp h).1, rfl, rfl, rfl, rfl⟩
  | false => exact (sameVersions_scheduleRetry _ _ _ _ rows).from_old r h

/-- A settle keeps the row of a device, or deletes it after a send that ended well. -/
theorem settleRows_device {rows : Outbox} (d : Delivery) (ok : Bool) {r : PushEvent}
    (hr : r ∈ rows) : (∃ new ∈ State.settleRows rows d ok, new.deviceId = r.deviceId) ∨
      ok = true ∧ claimedRow d.event.deviceId d.event.version r = true := by
  cases ok with
  | true =>
      cases hrow : claimedRow d.event.deviceId d.event.version r with
      | true => exact .inr ⟨rfl, rfl⟩
      | false => exact .inl ⟨r, Table.mem_deleteWhere.mpr ⟨hr, hrow⟩, rfl⟩
  | false => exact .inl ((sameVersions_scheduleRetry _ _ _ _ rows).to_new r hr)

theorem Inv.settle {s : State} (h : Inv s) {index : Nat} {d : Delivery} {ok : Bool}
    (hd : s.deliveries[index]? = some d) (hphase : d.phase = .sent ok)
    (hsame : ∀ r ∈ s.rows, r.deviceId = d.event.deviceId → r.version = d.event.version →
      r.insertion = d.event.insertion) :
    Inv ((s.setPhase index d .settled).settle index d ok) := by
  have hmoved : Inv (s.setPhase index d .settled) :=
    h.moved hd [] (by simp) (by simp) (fun hp => by cases hp) (fun hp => by cases hp)
  have hheld := h.held index d hd
  by_cases hany : s.rows.rows.any (claimedRow d.event.deviceId d.event.version) = true
  · obtain ⟨mid, old, hclaim, hnot, hdone⟩ := hheld.unchanged hsame hany
    have hlog : ((s.setPhase index d .settled).settle index d ok).log =
        [.settled index d.event.deviceId] ++ s.log := if_pos hany
    refine ⟨fun r hr => ?_, fun k d' hd' => ?_, ?_, ?_⟩
    · obtain ⟨row, hrow, -, hin, -, htype⟩ := settleRows_old hr
      rw [← hin, ← htype]
      exact h.rowsKnown row hrow
    · refine (hmoved.held k d' hd').grow rfl _ hlog (by simp) (le_refl _) (fun r hr _ => ?_)
        Or.inl Or.inl
      obtain ⟨row, hrow, hid, hin, hver, -⟩ := settleRows_old hr
      exact ⟨row, hrow, hid, hin, hver⟩
    · intro later earlier deviceId heq
      rw [hlog] at heq
      obtain ⟨rest, rfl, hrest⟩ := Log.append_split (by simp) heq
      rcases h.woken rest earlier deviceId hrest with ⟨r, hr, hid⟩ | ⟨k, hbegan, hdel⟩
      · rcases settleRows_device d ok hr with ⟨new, hnew, hnid⟩ | ⟨hok, hrow⟩
        · exact .inl ⟨new, hnew, hnid.trans hid⟩
        · -- the row goes, and the send of its delivery began after every enqueue
          simp only [claimedRow, decide_eq_true_eq] at hrow
          obtain rfl := hid.symm.trans hrow.1
          obtain ⟨more, rfl, -⟩ := Log.later_of_not_mem hclaim hrest hnot (by simp)
          obtain ⟨hbegan, hdel⟩ := hdone (hok ▸ hphase)
          exact .inr ⟨index, List.mem_append_right _ (List.mem_append_left _ hbegan),
            List.mem_append_right _ (List.mem_append_left _ hdel)⟩
      · exact .inr ⟨k, List.mem_append_right _ hbegan, List.mem_append_right _ hdel⟩
    · intro later earlier k deviceId heq
      rw [hlog] at heq
      rcases Log.cons_split heq with ⟨-, hx, hearlier⟩ | ⟨rest, -, hrest⟩
      · cases hx
        exact ⟨mid, old, hearlier ▸ hclaim, hnot⟩
      · exact h.settlesOwn rest earlier k deviceId hrest
  · have hlog : ((s.setPhase index d .settled).settle index d ok).log = [] ++ s.log := if_neg hany
    refine ⟨fun r hr => ?_, fun k d' hd' => ?_, h.woken.grow hlog (by simp) (fun r hr => ?_),
      h.settlesOwn.grow _ hlog (by simp)⟩
    · obtain ⟨row, hrow, -, hin, -, htype⟩ := settleRows_old hr
      rw [← hin, ← htype]
      exact h.rowsKnown row hrow
    · refine (hmoved.held k d' hd').grow rfl _ hlog (by simp) (le_refl _) (fun r hr _ => ?_)
        Or.inl Or.inl
      obtain ⟨row, hrow, hid, hin, hver, -⟩ := settleRows_old hr
      exact ⟨row, hrow, hid, hin, hver⟩
    · rcases settleRows_device d ok hr with hnew | ⟨-, hrow⟩
      · exact hnew
      · exact absurd (List.any_eq_true.mpr ⟨r, hr, hrow⟩) hany

theorem inv_step {s t : State} {a : Action} (h : Inv s) (hok : SameRow s a)
    (hstep : step s a = some t) : Inv t := by
  cases a with
  | enqueue deviceId now fate =>
      cases hstep
      exact fate.after_keeps Inv h (h.enqueued deviceId now)
  | claimDue now locked fate =>
      cases fate with
      | done =>
          cases hstep
          exact h.batch now locked
      | refused =>
          cases hstep
          exact h
      | lost =>
          cases hstep
          exact h.leased now locked
  | send index =>
      simp only [step] at hstep
      cases hd : s.deliveries[index]? with
      | none => simp [hd] at hstep
      | some d =>
          simp only [hd] at hstep
          split at hstep
          · cases hstep
          · rw [if_neg (by simpa using (h.held index d hd).known)] at hstep
            cases hstep
            exact h.moved hd [.began index d.event.deviceId] (by simp) (by simp)
              (fun _ => List.mem_singleton_self _) (fun hp => by cases hp)
  | sendEnds index ok =>
      simp only [step] at hstep
      cases hd : s.deliveries[index]? with
      | none => simp [hd] at hstep
      | some d =>
          simp only [hd] at hstep
          split at hstep
          · cases hstep
          next hphase =>
            have hsending : d.phase = .sending := by simpa using hphase
            split at hstep
            · cases hstep
              exact h.moved hd [.delivered index d.event.deviceId] (by simp) (by simp)
                (fun hp => by cases hp) (fun _ => ⟨hsending, List.mem_singleton_self _⟩)
            · cases hstep
              exact h.moved hd [] (by simp) (by simp) (fun hp => by cases hp)
                (fun hp => by cases hp)
  | settle index fate =>
      simp only [step] at hstep
      cases hd : s.deliveries[index]? with
      | none => simp [hd] at hstep
      | some d =>
          simp only [hd] at hstep
          cases hphase : d.phase with
          | sent ok =>
              simp only [hphase] at hstep
              cases hstep
              have hmoved : Inv (s.setPhase index d .settled) :=
                h.moved hd [] (by simp) (by simp) (fun hp => by cases hp)
                  (fun hp => by cases hp)
              exact fate.after_keeps Inv hmoved (h.settle hd hphase (hok d hd))
          | claimed => simp [hphase] at hstep
          | sending => simp [hphase] at hstep
          | settled => simp [hphase] at hstep

/-- In every run in which no claim is settled on a row that was deleted and written again since, a
wakeup is owed as long as no send that began after it has ended well, and no claim is settled on a
row that a later enqueue wrote. -/
theorem outbox_wakes {s : State} {actions : List Action}
    (hmeets : Transition.Meets step SameRow init actions)
    (hrun : Transition.run step init actions = some s) : Woken s ∧ SettlesOwn s := by
  have hinv : Inv s := Transition.run_invariant (fun _ _ _ h hok hs => inv_step h hok hs) inv_init
    hmeets hrun
  exact ⟨hinv.woken, hinv.settlesOwn⟩

/-- A wakeup during the send of the one before it, and a send that fails. -/
def busyRun : List Action :=
  [.enqueue 7 0 .done, .claimDue 0 [] .done, .send 0, .enqueue 7 1 .done, .sendEnds 0 true,
    .settle 0 .done, .claimDue 130 [] .done, .send 1, .sendEnds 1 false, .settle 1 .done]

/-- The send of the first claim outlasts its lease; the row it claimed is deleted by the second
worker and written again by the next wakeup, with the version that was claimed. -/
def slowSendRun : List Action :=
  [.enqueue 7 0 .done, .claimDue 0 [] .done, .send 0, .claimDue 120 [] .done, .send 1,
    .sendEnds 1 true, .settle 1 .done, .enqueue 7 130 .done, .sendEnds 0 true, .settle 0 .done]

instance (s : State) (a : Action) : Decidable (SameRow s a) :=
  match a with
  | .settle index _ =>
      match h : s.deliveries[index]? with
      | none => isTrue (fun d hd => by rw [h] at hd; cases hd)
      | some d =>
          decidable_of_iff (∀ r ∈ s.rows.rows, r.deviceId = d.event.deviceId →
              r.version = d.event.version → r.insertion = d.event.insertion)
            ⟨fun hall d' hd' => by
              rw [h] at hd'
              obtain rfl := Option.some.inj hd'
              exact hall, fun hall => hall d h⟩
  | .enqueue _ _ _ | .claimDue _ _ _ | .send _ | .sendEnds _ _ => isTrue trivial

theorem busyRun_wakes : Woken (Transition.final step init busyRun) ∧
    SettlesOwn (Transition.final step init busyRun) :=
  @outbox_wakes (Transition.final step init busyRun) busyRun
    (by decide +kernel) (Transition.run_eq_final (by decide +kernel))

/-- The wakeup at 130 is deleted by a send that began before it. -/
theorem slowSendRun_lost : ¬ Woken (Transition.final step init slowSendRun) ∧
    ¬ SettlesOwn (Transition.final step init slowSendRun) := by
  have hrows : (Transition.final step init slowSendRun).rows.rows = [] := by decide +kernel
  have hlog : (Transition.final step init slowSendRun).log =
      [.settled 0 7, .delivered 0 7, .enqueued 7, .settled 1 7, .delivered 1 7, .began 1 7,
        .claimed 1 7, .began 0 7, .claimed 0 7, .enqueued 7] := by decide +kernel
  constructor
  · intro h
    rcases h [.settled 0 7, .delivered 0 7] _ 7 hlog with ⟨r, hr, -⟩ | ⟨k, hbegan, -⟩
    · rw [Table.mem_def, hrows] at hr
      cases hr
    · simp at hbegan
  · intro h
    obtain ⟨mid, old, heq, hnot⟩ := h [] _ 0 7 hlog
    obtain ⟨more, hmore, -⟩ : ∃ more, [Entry.delivered 0 7] = mid ++ .claimed 0 7 :: more ∧ _ :=
      Log.later_of_not_mem heq rfl hnot (by simp)
    have hmem : Entry.claimed 0 7 ∈ [Entry.delivered 0 7] := Log.mem_of_split hmore
    simp at hmem

end Lightfriend.LightTool.PushOutbox
