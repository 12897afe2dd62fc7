import Lightfriend.Core.Database
import Lightfriend.Core.Log
import Lightfriend.Core.Transition
import Lightfriend.LightTool.Trial

/-! # Pairing tokens

A consume and a disconnect lock the row of their device, and do the rest of
their transaction later; whatever else is called runs in between. The rest
locks the session it finds, so that nobody sees it in part.
-/

namespace Lightfriend.LightTool.Pairing

/-! ## The calls -/

inductive Request
  | consume (tokenHash : String)
  | disconnect
deriving DecidableEq, Repr

/-- A transaction that holds the lock of its device, with the row it read. -/
structure Call where
  request : Request
  device : LightToolDevice
  now : Int
deriving DecidableEq, Repr

/-- What was committed or answered; no code reads it. -/
inductive Entry
  | issued (userId : Int) (tokenHash : String) (expiresAt : Int)
  | consumed (tokenHash : String) (deviceId now : Int) (outcome : PairingConsumption)
  | disconnected (deviceId : Int)
deriving DecidableEq, Repr

structure State where
  store : Store
  clock : Int
  calls : List Call
  /-- Newest first. -/
  log : List Entry

inductive Action
  | tick (seconds : Nat)
  | upsertForUser (userId : Int) (tokenHash : String) (expiresAt : Int) (fate : StatementFate)
  /-- The first statement of a transaction: the row of the device, locked. -/
  | lockDevice (request : Request) (deviceId : Int)
  /-- The rest of the transaction that is the `index`th of those in progress. -/
  | finish (index : Nat) (fate : StatementFate)
deriving DecidableEq, Repr

/-- The rest of a consume, with the row of the device that it locked. -/
def consumeLocked (device : LightToolDevice) (tokenHash : String) (now : Int) (s : Store) :
    PairingConsumption × Store :=
  match s.sessions.rows.find? (fun r => r.tokenHash = tokenHash) with
  | none => (.invalidOrExpired, s)
  | some session =>
      if session.expiresAt ≤ now then (.invalidOrExpired, s)
      else if session.consumedAt.isSome then
        if session.consumedByDeviceId = some device.id ∧ device.userId = some session.userId then
          (.linked session.userId false, s)
        else (.invalidOrExpired, s)
      else if device.userId.isSome then (.deviceAlreadyLinked, s)
      else
        (.linked session.userId true,
          { s with
            devices := s.devices.link device.id (some session.userId) now
            sessions := s.sessions.updateWhere (fun r => r.userId = session.userId)
              (fun r => { r with consumedAt := some now, consumedByDeviceId := some device.id })
              (fun _ => rfl) })

def disconnectLocked (device : LightToolDevice) (now : Int) (s : Store) : Store :=
  { s with
    devices := s.devices.link device.id none now
    sessions := match device.userId with
      | none => s.sessions
      | some userId => s.sessions.deleteWhere (fun r =>
          r.userId = userId ∧ r.consumedByDeviceId = some device.id) }

/-- With no other call in between, the two parts are the call. -/
theorem consume_eq (tokenHash : String) (deviceId now : Int) (s : Store) :
    consume tokenHash deviceId now s =
      match s.activeDevice deviceId with
      | none => (.deviceUnavailable, s)
      | some device => consumeLocked device tokenHash now s := by
  unfold consume consumeLocked
  cases hd : s.activeDevice deviceId with
  | none => rfl
  | some device =>
      obtain ⟨-, rfl, -⟩ := activeDevice_spec hd
      rfl

theorem disconnectDevice_eq (deviceId now : Int) (s : Store) :
    disconnectDevice deviceId now s =
      match s.activeDevice deviceId with
      | none => (false, s)
      | some device => (true, disconnectLocked device now s) := by
  unfold disconnectDevice disconnectLocked
  cases hd : s.activeDevice deviceId with
  | none => rfl
  | some device =>
      obtain ⟨-, rfl, -⟩ := activeDevice_spec hd
      rfl

def State.perform (s : State) (call : Call) (calls : List Call) : State :=
  match call.request with
  | .consume tokenHash =>
      let (outcome, store) := consumeLocked call.device tokenHash call.now s.store
      { s with
        store, calls
        log := .consumed tokenHash call.device.id call.now outcome :: s.log }
  | .disconnect =>
      { s with
        store := disconnectLocked call.device call.now s.store, calls
        log := .disconnected call.device.id :: s.log }

/-- The hash of a new token has not been issued before. -/
def fresh (log : List Entry) (tokenHash : String) : Bool :=
  log.all (fun e => match e with
    | .issued _ other _ => other ≠ tokenHash
    | _ => true)

def State.issue (s : State) (userId : Int) (tokenHash : String) (expiresAt : Int) : State :=
  match LightTool.upsertForUser userId tokenHash expiresAt s.clock s.store with
  | .ok store => { s with store, log := .issued userId tokenHash expiresAt :: s.log }
  | .error _ => s

/-- The answer to a request for a device that is not there. -/
def State.unavailable (s : State) (request : Request) (deviceId : Int) : State :=
  match request with
  | .consume tokenHash =>
      { s with log := .consumed tokenHash deviceId s.clock .deviceUnavailable :: s.log }
  | .disconnect => s

def step (s : State) : Action → Option State
  | .tick seconds => some { s with clock := s.clock + seconds }
  | .upsertForUser userId tokenHash expiresAt fate =>
      if fresh s.log tokenHash then some (fate.after s (s.issue userId tokenHash expiresAt))
      else none
  | .lockDevice request deviceId =>
      if s.calls.any (fun c => c.device.id = deviceId) then none
      else
        match s.store.activeDevice deviceId with
        | none => some (s.unavailable request deviceId)
        | some device => some { s with calls := s.calls ++ [⟨request, device, s.clock⟩] }
  | .finish index fate =>
      match s.calls[index]? with
      | none => none
      | some call =>
          -- a transaction that fails releases its lock and leaves the rows as they were
          some (fate.after { s with calls := s.calls.eraseIdx index }
            (s.perform call (s.calls.eraseIdx index)))

/-- Any devices, linked or not, and no session. -/
def init (devices : Devices) (runs : Runs) (clock : Int) : State :=
  ⟨⟨devices, Table.empty, runs⟩, clock, [], []⟩

/-! ## What is promised -/

/-- The device is linked to the account. -/
def LinkedTo (s : State) (deviceId userId : Int) : Prop :=
  ∃ d ∈ s.store.devices, d.id = deviceId ∧ d.userId = some userId

/-- The token of the account is issued, has not expired at `now`, and is its newest. -/
def Current (log : List Entry) (userId : Int) (tokenHash : String) (now : Int) : Prop :=
  ∃ later earlier expiresAt, log = later ++ .issued userId tokenHash expiresAt :: earlier ∧
    now < expiresAt ∧ ∀ other expiry, .issued userId other expiry ∉ later

/-- A token links a device once; a consume succeeds with the newest token of the account before it
expires, and not after the device that it linked has disconnected. -/
structure OneShot (log : List Entry) : Prop where
  current : ∀ later earlier tokenHash deviceId now userId newly,
    log = later ++ .consumed tokenHash deviceId now (.linked userId newly) :: earlier →
    Current earlier userId tokenHash now
  once : ∀ later earlier tokenHash deviceId now userId,
    log = later ++ .consumed tokenHash deviceId now (.linked userId true) :: earlier →
    ∀ deviceId' now' userId', .consumed tokenHash deviceId' now' (.linked userId' true) ∉ earlier
  connected : ∀ later between earlier tokenHash deviceId now userId newly deviceId' now' userId',
    log = later ++ .consumed tokenHash deviceId now (.linked userId newly) ::
      (between ++ .consumed tokenHash deviceId' now' (.linked userId' true) :: earlier) →
    .disconnected deviceId' ∉ between

/-- A consume that succeeds leaves its device linked to the account that it answers with; any
outcome but a new link leaves the rows as they were. -/
def Effect (s t : State) : Prop :=
  ∀ tokenHash deviceId now outcome,
    t.log = .consumed tokenHash deviceId now outcome :: s.log →
    (∀ userId newly, outcome = .linked userId newly → LinkedTo t deviceId userId) ∧
      ((∀ userId, outcome ≠ .linked userId true) → t.store = s.store)

/-! ## The invariant -/

/-- What the log tells about a session that is stored. -/
structure SessionKept (s : State) (r : LightToolPairingSession) : Prop where
  newest : ∃ later earlier, s.log = later ++ .issued r.userId r.tokenHash r.expiresAt :: earlier ∧
    ∀ other expiry, .issued r.userId other expiry ∉ later
  unused : r.consumedAt = none → ∀ deviceId now userId,
    .consumed r.tokenHash deviceId now (.linked userId true) ∉ s.log
  used : r.consumedAt.isSome = true → ∃ deviceId, r.consumedByDeviceId = some deviceId ∧
    ∀ later earlier deviceId' now userId,
      s.log = later ++ .consumed r.tokenHash deviceId' now (.linked userId true) :: earlier →
      deviceId' = deviceId ∧ .disconnected deviceId ∉ later
  link : ∀ deviceId, r.consumedByDeviceId = some deviceId → LinkedTo s deviceId r.userId

structure Inv (s : State) : Prop where
  locked : ∀ c ∈ s.calls, c.device ∈ s.store.devices
  apart : s.calls.Pairwise (fun a b => a.device.id ≠ b.device.id)
  kept : ∀ r ∈ s.store.sessions, SessionKept s r
  issuedOnce : ∀ userId userId' tokenHash expiry expiry',
    .issued userId tokenHash expiry ∈ s.log → .issued userId' tokenHash expiry' ∈ s.log →
      userId = userId'
  known : ∀ tokenHash deviceId now userId newly,
    .consumed tokenHash deviceId now (.linked userId newly) ∈ s.log →
      ∃ userId expiry, .issued userId tokenHash expiry ∈ s.log
  oneShot : OneShot s.log

/-! ## The rest of a consume -/

/-- What a consume can answer: nothing of a link, the link that the session has, or a new one. -/
theorem consumeLocked_cases (device : LightToolDevice) (tokenHash : String) (now : Int)
    (s : Store) :
    ((∀ userId newly, (consumeLocked device tokenHash now s).1 ≠ .linked userId newly) ∧
      (consumeLocked device tokenHash now s).2 = s) ∨
    (∃ r ∈ s.sessions, r.tokenHash = tokenHash ∧ now < r.expiresAt ∧ r.consumedAt.isSome = true ∧
      r.consumedByDeviceId = some device.id ∧ device.userId = some r.userId ∧
      consumeLocked device tokenHash now s = (.linked r.userId false, s)) ∨
    ∃ r ∈ s.sessions, r.tokenHash = tokenHash ∧ now < r.expiresAt ∧ r.consumedAt = none ∧
      device.userId = none ∧
      consumeLocked device tokenHash now s =
        (.linked r.userId true,
          { s with
            devices := s.devices.link device.id (some r.userId) now
            sessions := s.sessions.updateWhere (fun other => other.userId = r.userId)
              (fun other => { other with
                consumedAt := some now
                consumedByDeviceId := some device.id })
              (fun _ => rfl) }) := by
  unfold consumeLocked
  split
  next => exact .inl ⟨(fun _ _ h => by cases h), rfl⟩
  next r hfound =>
    have hmem : r ∈ s.sessions := List.mem_of_find?_eq_some hfound
    have hhash : r.tokenHash = tokenHash := by simpa using List.find?_some hfound
    by_cases hexp : r.expiresAt ≤ now
    · rw [if_pos hexp]
      exact .inl ⟨(fun _ _ h => by cases h), rfl⟩
    · rw [if_neg hexp]
      have hlive : now < r.expiresAt := by omega
      by_cases hused : r.consumedAt.isSome = true
      · rw [if_pos hused]
        by_cases hsame : r.consumedByDeviceId = some device.id ∧ device.userId = some r.userId
        · rw [if_pos hsame]
          exact .inr (.inl ⟨r, hmem, hhash, hlive, hused, hsame.1, hsame.2, rfl⟩)
        · rw [if_neg hsame]
          exact .inl ⟨(fun _ _ h => by cases h), rfl⟩
      · rw [if_neg hused]
        by_cases hlinked : device.userId.isSome = true
        · rw [if_pos hlinked]
          exact .inl ⟨(fun _ _ h => by cases h), rfl⟩
        · rw [if_neg hlinked]
          exact .inr (.inr ⟨r, hmem, hhash, hlive, by simpa using hused, by simpa using hlinked,
            rfl⟩)

/-! ## The log -/

theorem Current.of_kept {s : State} {r : LightToolPairingSession} (h : SessionKept s r) {now : Int}
    (hlive : now < r.expiresAt) : Current s.log r.userId r.tokenHash now := by
  obtain ⟨later, earlier, heq, hnew⟩ := h.newest
  exact ⟨later, earlier, r.expiresAt, heq, hlive, hnew⟩

/-- An entry that is no success of a consume. -/
theorem OneShot.cons {log : List Entry} {x : Entry} (h : OneShot log)
    (hx : ∀ tokenHash deviceId now userId newly,
      x ≠ .consumed tokenHash deviceId now (.linked userId newly)) : OneShot (x :: log) where
  current := fun later earlier tokenHash deviceId now userId newly heq => by
    rcases Log.cons_split heq with ⟨-, hx', -⟩ | ⟨rest, -, hlog⟩
    · exact absurd hx' (hx tokenHash deviceId now userId newly)
    · exact h.current rest earlier tokenHash deviceId now userId newly hlog
  once := fun later earlier tokenHash deviceId now userId heq => by
    rcases Log.cons_split heq with ⟨-, hx', -⟩ | ⟨rest, -, hlog⟩
    · exact absurd hx' (hx tokenHash deviceId now userId true)
    · exact h.once rest earlier tokenHash deviceId now userId hlog
  connected := fun later between earlier tokenHash deviceId now userId newly d' n' u' heq => by
    rcases Log.cons_split heq with ⟨-, hx', -⟩ | ⟨rest, -, hlog⟩
    · exact absurd hx' (hx tokenHash deviceId now userId newly)
    · exact h.connected rest between earlier tokenHash deviceId now userId newly d' n' u' hlog

theorem OneShot.success {log : List Entry} (h : OneShot log) {tokenHash : String}
    {deviceId now userId : Int} {newly : Bool} (hcur : Current log userId tokenHash now)
    (honce : newly = true → ∀ deviceId' now' userId',
      .consumed tokenHash deviceId' now' (.linked userId' true) ∉ log)
    (hconn : ∀ later earlier deviceId' now' userId',
      log = later ++ .consumed tokenHash deviceId' now' (.linked userId' true) :: earlier →
      .disconnected deviceId' ∉ later) :
    OneShot (.consumed tokenHash deviceId now (.linked userId newly) :: log) where
  current := fun later earlier hash d n u b heq => by
    rcases Log.cons_split heq with ⟨-, hx, rfl⟩ | ⟨rest, -, hlog⟩
    · cases hx
      exact hcur
    · exact h.current rest earlier hash d n u b hlog
  once := fun later earlier hash d n u heq => by
    rcases Log.cons_split heq with ⟨-, hx, rfl⟩ | ⟨rest, -, hlog⟩
    · cases hx
      exact honce rfl
    · exact h.once rest earlier hash d n u hlog
  connected := fun later between earlier hash d n u b d' n' u' heq => by
    rcases Log.cons_split heq with ⟨-, hx, hlog⟩ | ⟨rest, -, hlog⟩
    · cases hx
      exact hconn between earlier d' n' u' hlog
    · exact h.connected rest between earlier hash d n u b d' n' u' hlog

/-- An entry that does not concern the session. -/
theorem SessionKept.extend {s t : State} {r : LightToolPairingSession} {x : Entry}
    (h : SessionKept s r) (hlog : t.log = x :: s.log)
    (hissue : ∀ other expiry, x ≠ .issued r.userId other expiry)
    (hcons : ∀ deviceId now userId, x ≠ .consumed r.tokenHash deviceId now (.linked userId true))
    (hdis : ∀ deviceId, r.consumedByDeviceId = some deviceId → x ≠ .disconnected deviceId)
    (hlink : ∀ deviceId, r.consumedByDeviceId = some deviceId → LinkedTo s deviceId r.userId →
      LinkedTo t deviceId r.userId) : SessionKept t r where
  newest := by
    obtain ⟨later, earlier, heq, hnew⟩ := h.newest
    refine ⟨x :: later, earlier, by rw [hlog, heq]; rfl, fun other expiry hmem => ?_⟩
    rcases List.mem_cons.mp hmem with heq' | hmem
    · exact hissue other expiry heq'.symm
    · exact hnew other expiry hmem
  unused := fun hnone deviceId now userId hmem => by
    rw [hlog] at hmem
    rcases List.mem_cons.mp hmem with heq | hmem
    · exact hcons deviceId now userId heq.symm
    · exact h.unused hnone deviceId now userId hmem
  used := fun hsome => by
    obtain ⟨deviceId, hby, hsplit⟩ := h.used hsome
    refine ⟨deviceId, hby, fun later earlier deviceId' now userId heq => ?_⟩
    rw [hlog] at heq
    rcases Log.cons_split heq with ⟨-, hx, -⟩ | ⟨rest, rfl, hrest⟩
    · exact absurd hx (hcons deviceId' now userId)
    · obtain ⟨hd, hnot⟩ := hsplit rest earlier deviceId' now userId hrest
      refine ⟨hd, fun hmem => ?_⟩
      rcases List.mem_cons.mp hmem with hx | hmem
      · exact hdis deviceId hby hx.symm
      · exact hnot hmem
  link := fun deviceId hby => hlink deviceId hby (h.link deviceId hby)

/-! ## One step -/

theorem inv_init (devices : Devices) (runs : Runs) (clock : Int) :
    Inv (init devices runs clock) where
  locked := by simp [init]
  apart := List.Pairwise.nil
  kept := fun r hr => absurd hr (Table.not_mem_empty r)
  issuedOnce := by simp [init]
  known := by simp [init]
  oneShot := by
    constructor <;> intros <;> simp_all [init]

theorem fresh_spec {log : List Entry} {tokenHash : String} (h : fresh log tokenHash = true)
    (userId expiry : Int) : .issued userId tokenHash expiry ∉ log := by
  intro hmem
  have hother := List.all_eq_true.mp h _ hmem
  simp at hother

/-- The sessions after an issue: the new one of the account, and those of the other accounts. -/
theorem upsertForUser_spec {userId expiresAt createdAt : Int} {tokenHash : String} {s s' : Store}
    (h : upsertForUser userId tokenHash expiresAt createdAt s = .ok s') :
    s'.devices = s.devices ∧ ∀ r ∈ s'.sessions,
      (r.userId = userId ∧ r.tokenHash = tokenHash ∧ r.expiresAt = expiresAt ∧
        r.consumedAt = none ∧ r.consumedByDeviceId = none) ∨
      (r ∈ s.sessions ∧ r.userId ≠ userId) := by
  unfold upsertForUser at h
  split at h
  · cases h
  · cases h
    refine ⟨rfl, fun r hr => ?_⟩
    rcases (Table.mem_upsert _).mp hr with ⟨old, hold, heq⟩ | ⟨-, heq⟩
    · by_cases hkey : old.userId = userId
      · rw [if_pos hkey] at heq
        rw [heq]
        exact .inl ⟨hkey, rfl, rfl, rfl, rfl⟩
      · rw [if_neg hkey] at heq
        rw [heq]
        exact .inr ⟨hold, hkey⟩
    · rw [heq]
      exact .inl ⟨rfl, rfl, rfl, rfl, rfl⟩

theorem Inv.issue {s : State} (h : Inv s) {userId expiresAt : Int} {tokenHash : String}
    (hfresh : fresh s.log tokenHash = true) : Inv (s.issue userId tokenHash expiresAt) := by
  unfold State.issue
  cases hup : upsertForUser userId tokenHash expiresAt s.clock s.store with
  | error e => exact h
  | ok store =>
  obtain ⟨hdevices, hsessions⟩ := upsertForUser_spec hup
  have hnew := fresh_spec hfresh
  constructor
  · show ∀ c ∈ s.calls, c.device ∈ store.devices
    rw [hdevices]
    exact h.locked
  · exact h.apart
  · intro r hr
    rcases hsessions r hr with ⟨huser, hhash, hexp, hat, hby⟩ | ⟨hold, hkey⟩
    · refine ⟨⟨[], s.log, by rw [huser, hhash, hexp]; rfl, by simp⟩, fun _ d n u hmem => ?_,
        fun hsome => ?_, fun d hd => ?_⟩
      · rw [hhash] at hmem
        rcases List.mem_cons.mp hmem with heq | hmem
        · cases heq
        · obtain ⟨u', e, hissued⟩ := h.known tokenHash d n u true hmem
          exact hnew u' e hissued
      · rw [hat] at hsome
        cases hsome
      · rw [hby] at hd
        cases hd
    · refine (h.kept r hold).extend rfl ?_ (fun _ _ _ hx => by cases hx)
        (fun _ _ hx => by cases hx) (fun _ _ hlink => ?_)
      · intro other expiry hx
        injection hx with huser
        exact hkey huser.symm
      · unfold LinkedTo
        rw [hdevices]
        exact hlink
  · intro u u' hash e e' hu hu'
    rcases List.mem_cons.mp hu with heq | hu <;> rcases List.mem_cons.mp hu' with heq' | hu'
    · injection heq with h1
      injection heq' with h2
      rw [h1, h2]
    · injection heq with _ h1
      exact absurd (h1 ▸ hu') (hnew u' e')
    · injection heq' with _ h1
      exact absurd (h1 ▸ hu) (hnew u e)
    · exact h.issuedOnce u u' hash e e' hu hu'
  · intro hash d n u b hmem
    rcases List.mem_cons.mp hmem with heq | hmem
    · cases heq
    · obtain ⟨u', e, hissued⟩ := h.known hash d n u b hmem
      exact ⟨u', e, List.mem_cons_of_mem _ hissued⟩
  · exact h.oneShot.cons (fun _ _ _ _ _ hx => by cases hx)

/-- An entry of a consume that links nothing. -/
theorem Inv.answered {s : State} (h : Inv s) {x : Entry} {calls : List Call}
    (hcalls : List.Sublist calls s.calls) (hx : ∃ tokenHash deviceId now outcome,
      x = .consumed tokenHash deviceId now outcome ∧ ∀ u b, outcome ≠ .linked u b) :
    Inv { s with calls, log := x :: s.log } := by
  obtain ⟨tokenHash, deviceId, now, outcome, rfl, hout⟩ := hx
  constructor
  · exact fun c hc => h.locked c (hcalls.subset hc)
  · exact h.apart.sublist hcalls
  · intro r hr
    refine (h.kept r hr).extend rfl (fun _ _ hx => by cases hx) (fun _ _ u hx => ?_)
      (fun _ _ hx => by cases hx) (fun _ _ hlink => hlink)
    injection hx with _ _ _ ho
    exact hout u true ho
  · intro u u' hash e e' hu hu'
    have hold := fun u e (hm : Entry.issued u hash e ∈
        Entry.consumed tokenHash deviceId now outcome :: s.log) =>
      (List.mem_cons.mp hm).resolve_left (fun hx => by cases hx)
    exact h.issuedOnce u u' hash e e' (hold u e hu) (hold u' e' hu')
  · intro hash d n u b hmem
    rcases List.mem_cons.mp hmem with heq | hmem
    · injection heq with _ _ _ ho
      exact absurd ho.symm (hout u b)
    · obtain ⟨u', e, hissued⟩ := h.known hash d n u b hmem
      exact ⟨u', e, List.mem_cons_of_mem _ hissued⟩
  · refine h.oneShot.cons (fun _ _ _ u b hx => ?_)
    injection hx with _ _ _ ho
    exact hout u b ho

/-- A consume that succeeds again with the link it has. -/
theorem Inv.relinked {s : State} (h : Inv s) {calls : List Call}
    (hcalls : List.Sublist calls s.calls) {r : LightToolPairingSession}
    (hr : r ∈ s.store.sessions) {now deviceId : Int} (hlive : now < r.expiresAt)
    (hused : r.consumedAt.isSome = true) :
    Inv { s with
      calls
      log := .consumed r.tokenHash deviceId now (.linked r.userId false) :: s.log } := by
  have hkept := h.kept r hr
  constructor
  · exact fun c hc => h.locked c (hcalls.subset hc)
  · exact h.apart.sublist hcalls
  · intro other hother
    refine (h.kept other hother).extend rfl (fun _ _ hx => by cases hx) (fun _ _ u hx => ?_)
      (fun _ _ hx => by cases hx) (fun _ _ hlink => hlink)
    injection hx with _ _ _ ho
    injection ho with _ hnewly
    cases hnewly
  · intro u u' hash e e' hu hu'
    have hold := fun u e (hm : Entry.issued u hash e ∈
        Entry.consumed r.tokenHash deviceId now (.linked r.userId false) :: s.log) =>
      (List.mem_cons.mp hm).resolve_left (fun hx => by cases hx)
    exact h.issuedOnce u u' hash e e' (hold u e hu) (hold u' e' hu')
  · intro hash d n u b hmem
    rcases List.mem_cons.mp hmem with heq | hmem
    · injection heq with hhash
      obtain ⟨later, earlier, heq, -⟩ := hkept.newest
      rw [hhash]
      exact ⟨r.userId, r.expiresAt, List.mem_cons_of_mem _ (Log.mem_of_split heq)⟩
    · obtain ⟨u', e, hissued⟩ := h.known hash d n u b hmem
      exact ⟨u', e, List.mem_cons_of_mem _ hissued⟩
  · refine h.oneShot.success (.of_kept hkept hlive) (fun hf => by cases hf) ?_
    intro later earlier d n u heq
    obtain ⟨by', hby, hsplit⟩ := hkept.used hused
    obtain ⟨rfl, hnot⟩ := hsplit later earlier d n u heq
    exact hnot

/-- The other transactions hold the locks of other devices. -/
theorem Inv.others_apart {s : State} (h : Inv s) {index : Nat} {call c : Call}
    (hcall : s.calls[index]? = some call) (hc : c ∈ s.calls.eraseIdx index) :
    c.device.id ≠ call.device.id := by
  obtain ⟨j, hj, hother⟩ := List.mem_eraseIdx_iff_getElem?.mp hc
  obtain ⟨hi, rfl⟩ := List.getElem?_eq_some_iff.mp hcall
  obtain ⟨hlt, rfl⟩ := List.getElem?_eq_some_iff.mp hother
  have hpair := List.pairwise_iff_getElem.mp h.apart
  rcases Nat.lt_or_gt_of_ne hj with hless | hmore
  · exact hpair j index hlt hi hless
  · exact fun heq => hpair index j hi hlt hmore heq.symm

/-- A write of one device leaves the rows of the others. -/
theorem mem_link_of_ne {devices : Devices} {deviceId now : Int} {userId : Option Int}
    {d : LightToolDevice} (hd : d ∈ devices) (hne : d.id ≠ deviceId) :
    d ∈ devices.link deviceId userId now := by
  refine (Table.mem_updateWhere _).mpr ⟨d, hd, ?_⟩
  rw [if_neg (by simpa using hne)]

theorem mem_link_self {devices : Devices} {now : Int} {userId : Option Int} {d : LightToolDevice}
    (hd : d ∈ devices) :
    ({ d with userId, updatedAt := now } : LightToolDevice) ∈ devices.link d.id userId now := by
  unfold Devices.link
  rw [Table.mem_updateWhere]
  exact ⟨d, hd, by simp⟩

theorem Inv.released {s : State} (h : Inv s) (index : Nat) :
    Inv { s with calls := s.calls.eraseIdx index } where
  locked := fun c hc => h.locked c (List.mem_of_mem_eraseIdx hc)
  apart := h.apart.sublist (List.eraseIdx_sublist _ _)
  kept := fun r hr => ⟨(h.kept r hr).newest, (h.kept r hr).unused, (h.kept r hr).used,
    (h.kept r hr).link⟩
  issuedOnce := h.issuedOnce
  known := h.known
  oneShot := h.oneShot

/-- The session that a consume uses up, with its device linked. -/
theorem SessionKept.consumed {s t : State} {r : LightToolPairingSession} (h : SessionKept s r)
    (hunused : r.consumedAt = none) {deviceId now : Int}
    (hlog : t.log = .consumed r.tokenHash deviceId now (.linked r.userId true) :: s.log)
    (hlink : LinkedTo t deviceId r.userId) :
    SessionKept t { r with consumedAt := some now, consumedByDeviceId := some deviceId } := by
  refine ⟨?_, (fun hnone => by cases hnone), fun _ => ⟨deviceId, rfl, ?_⟩, ?_⟩
  · obtain ⟨later, earlier, hsplit, hnew⟩ := h.newest
    refine ⟨_ :: later, earlier, by rw [hlog, hsplit]; rfl, fun other expiry hmem => ?_⟩
    rcases List.mem_cons.mp hmem with hx | hmem
    · cases hx
    · exact hnew other expiry hmem
  · intro later earlier d n u hsplit
    rw [hlog] at hsplit
    rcases Log.cons_split hsplit with ⟨rfl, hx, -⟩ | ⟨rest, -, hrest⟩
    · injection hx with _ hd
      exact ⟨hd.symm, by simp⟩
    · exact absurd (Log.mem_of_split hrest) (h.unused hunused d n u)
  · intro d hd
    cases hd
    exact hlink

/-- A consume that links its device. -/
theorem Inv.linked {s : State} (h : Inv s) {index : Nat} {call : Call}
    (hcall : s.calls[index]? = some call) {r : LightToolPairingSession}
    (hr : r ∈ s.store.sessions) {now : Int} (hlive : now < r.expiresAt)
    (hunused : r.consumedAt = none) (hfree : call.device.userId = none) :
    Inv { s with
      store := { s.store with
        devices := s.store.devices.link call.device.id (some r.userId) now
        sessions := s.store.sessions.updateWhere (fun other => other.userId = r.userId)
          (fun other => { other with
            consumedAt := some now
            consumedByDeviceId := some call.device.id })
          (fun _ => rfl) }
      calls := s.calls.eraseIdx index
      log := .consumed r.tokenHash call.device.id now (.linked r.userId true) :: s.log } := by
  have hdevice := h.locked call (List.mem_of_getElem? hcall)
  have hkept := h.kept r hr
  have hnever := hkept.unused hunused
  obtain ⟨later, earlier, hnewest, -⟩ := hkept.newest
  constructor
  · intro c hc
    exact mem_link_of_ne (h.locked c (List.mem_of_mem_eraseIdx hc)) (h.others_apart hcall hc)
  · exact h.apart.sublist (List.eraseIdx_sublist _ _)
  · intro row hrow
    simp only [Table.mem_updateWhere] at hrow
    obtain ⟨old, hold, heq⟩ := hrow
    by_cases hkey : old.userId = r.userId
    · -- the session that is consumed
      obtain rfl := Table.eq_of_key_eq hold hr hkey
      rw [if_pos (by simp)] at heq
      rw [heq]
      exact hkept.consumed hunused rfl ⟨_, mem_link_self hdevice, rfl, rfl⟩
    · rw [if_neg (by simpa using hkey)] at heq
      rw [heq]
      refine (h.kept old hold).extend rfl (fun _ _ hx => by cases hx) (fun d n u hx => ?_)
        (fun _ _ hx => by cases hx) (fun d _ hlink => ?_)
      · injection hx with hhash
        obtain ⟨later', earlier', hsplit, -⟩ := (h.kept old hold).newest
        have hissued := Log.mem_of_split hnewest
        rw [hhash] at hissued
        exact hkey (h.issuedOnce _ _ _ _ _ (Log.mem_of_split hsplit) hissued)
      · obtain ⟨device, hmem, hid, huser⟩ := hlink
        refine ⟨device, mem_link_of_ne hmem ?_, hid, huser⟩
        intro hsame
        rw [Table.eq_of_key_eq hmem hdevice hsame, hfree] at huser
        cases huser
  · intro u u' hash e e' hu hu'
    have hold := fun u e (hm : Entry.issued u hash e ∈
        Entry.consumed r.tokenHash call.device.id now (.linked r.userId true) :: s.log) =>
      (List.mem_cons.mp hm).resolve_left (fun hx => by cases hx)
    exact h.issuedOnce u u' hash e e' (hold u e hu) (hold u' e' hu')
  · intro hash d n u b hmem
    rcases List.mem_cons.mp hmem with heq | hmem
    · injection heq with hhash
      rw [hhash]
      exact ⟨r.userId, r.expiresAt, List.mem_cons_of_mem _ (Log.mem_of_split hnewest)⟩
    · obtain ⟨u', e, hissued⟩ := h.known hash d n u b hmem
      exact ⟨u', e, List.mem_cons_of_mem _ hissued⟩
  · refine h.oneShot.success (.of_kept hkept hlive) (fun _ => hnever) ?_
    intro later earlier d n u heq
    exact absurd (Log.mem_of_split heq) (hnever d n u)

/-- A disconnect, after which no session is left that its device has consumed. -/
theorem Inv.disconnected {s : State} (h : Inv s) {index : Nat} {call : Call}
    (hcall : s.calls[index]? = some call) (now : Int) :
    Inv { s with
      store := disconnectLocked call.device now s.store
      calls := s.calls.eraseIdx index
      log := .disconnected call.device.id :: s.log } := by
  have hdevice := h.locked call (List.mem_of_getElem? hcall)
  have hsub : ∀ r ∈ (disconnectLocked call.device now s.store).sessions, r ∈ s.store.sessions ∧
      r.consumedByDeviceId ≠ some call.device.id := by
    intro r hr
    unfold disconnectLocked at hr
    cases huser : call.device.userId with
    | none =>
        simp only [huser] at hr
        refine ⟨hr, fun hby => ?_⟩
        obtain ⟨device, hmem, hid, hlinked⟩ := (h.kept r hr).link _ hby
        rw [Table.eq_of_key_eq hmem hdevice hid, huser] at hlinked
        cases hlinked
    | some userId =>
        simp only [huser] at hr
        obtain ⟨hmem, hnot⟩ := Table.mem_deleteWhere.mp hr
        refine ⟨hmem, fun hby => ?_⟩
        obtain ⟨device, hin, hid, hlinked⟩ := (h.kept r hmem).link _ hby
        rw [Table.eq_of_key_eq hin hdevice hid, huser] at hlinked
        simp [hby, Option.some.inj hlinked] at hnot
  constructor
  · intro c hc
    exact mem_link_of_ne (h.locked c (List.mem_of_mem_eraseIdx hc)) (h.others_apart hcall hc)
  · exact h.apart.sublist (List.eraseIdx_sublist _ _)
  · intro r hr
    obtain ⟨hold, hby⟩ := hsub r hr
    refine (h.kept r hold).extend rfl (fun _ _ hx => by cases hx) (fun _ _ _ hx => by cases hx)
      (fun d hd hx => ?_) (fun d hd hlink => ?_)
    · injection hx with hsame
      exact hby (hsame ▸ hd)
    · obtain ⟨device, hmem, hid, huser⟩ := hlink
      refine ⟨device, mem_link_of_ne hmem ?_, hid, huser⟩
      intro hsame
      exact hby (by rw [hd, ← hid, hsame])
  · intro u u' hash e e' hu hu'
    have hold := fun u e (hm : Entry.issued u hash e ∈
        Entry.disconnected call.device.id :: s.log) =>
      (List.mem_cons.mp hm).resolve_left (fun hx => by cases hx)
    exact h.issuedOnce u u' hash e e' (hold u e hu) (hold u' e' hu')
  · intro hash d n u b hmem
    obtain ⟨u', e, hissued⟩ := h.known hash d n u b
      ((List.mem_cons.mp hmem).resolve_left (fun hx => by cases hx))
    exact ⟨u', e, List.mem_cons_of_mem _ hissued⟩
  · exact h.oneShot.cons (fun _ _ _ _ _ hx => by cases hx)

theorem Inv.perform {s : State} (h : Inv s) {index : Nat} {call : Call}
    (hcall : s.calls[index]? = some call) : Inv (s.perform call (s.calls.eraseIdx index)) := by
  have hsub : List.Sublist (s.calls.eraseIdx index) s.calls := List.eraseIdx_sublist _ _
  unfold State.perform
  cases call.request with
  | disconnect => exact h.disconnected hcall call.now
  | consume tokenHash =>
      rcases consumeLocked_cases call.device tokenHash call.now s.store with
        ⟨hout, hstore⟩ | ⟨r, hr, rfl, hlive, hused, -, -, heq⟩ |
          ⟨r, hr, rfl, hlive, hunused, hfree, heq⟩
      · simp only [hstore]
        exact h.answered hsub ⟨tokenHash, _, _, _, rfl, hout⟩
      · simp only [heq]
        exact h.relinked hsub hr hlive hused
      · simp only [heq]
        exact h.linked hcall hr hlive hunused hfree

theorem inv_step {s t : State} {a : Action} (h : Inv s) (hstep : step s a = some t) : Inv t := by
  cases a with
  | tick seconds =>
      cases hstep
      exact ⟨h.locked, h.apart, fun r hr => ⟨(h.kept r hr).newest, (h.kept r hr).unused,
        (h.kept r hr).used, (h.kept r hr).link⟩, h.issuedOnce, h.known, h.oneShot⟩
  | upsertForUser userId tokenHash expiresAt fate =>
      simp only [step] at hstep
      split at hstep
      next hfresh =>
        cases hstep
        exact fate.after_keeps Inv h (h.issue hfresh)
      next => cases hstep
  | lockDevice request deviceId =>
      simp only [step] at hstep
      split at hstep
      · cases hstep
      next hlocked =>
        split at hstep
        next hnone =>
          cases hstep
          unfold State.unavailable
          cases request with
          | disconnect => exact h
          | consume tokenHash =>
              exact h.answered (List.Sublist.refl _)
                ⟨tokenHash, deviceId, s.clock, _, rfl, (fun _ _ ho => by cases ho)⟩
        next device hdevice =>
          cases hstep
          obtain ⟨hmem, hid, -⟩ := activeDevice_spec hdevice
          refine ⟨fun c hc => ?_, List.pairwise_append.mpr
            ⟨h.apart, List.pairwise_singleton _ _, fun c hc c' hc' => ?_⟩,
            fun r hr => ⟨(h.kept r hr).newest, (h.kept r hr).unused, (h.kept r hr).used,
              (h.kept r hr).link⟩, h.issuedOnce, h.known, h.oneShot⟩
          · rcases List.mem_append.mp hc with hc | hc
            · exact h.locked c hc
            · rw [List.mem_singleton.mp hc]
              exact hmem
          · rw [List.mem_singleton.mp hc', hid]
            intro hsame
            exact hlocked (List.any_eq_true.mpr ⟨c, hc, by simpa using hsame⟩)
  | finish index fate =>
      simp only [step] at hstep
      cases hcall : s.calls[index]? with
      | none => simp [hcall] at hstep
      | some call =>
          simp only [hcall] at hstep
          cases hstep
          exact fate.after_keeps Inv (h.released index) (h.perform hcall)

theorem effect_self (s : State) {t : State} (h : t.log = s.log) : Effect s t := by
  intro tokenHash deviceId now outcome hlog
  have hlen := congrArg List.length (h.symm.trans hlog)
  simp at hlen

theorem effect_perform {s : State} (h : Inv s) {index : Nat} {call : Call}
    (hcall : s.calls[index]? = some call) (calls : List Call) : Effect s (s.perform call calls) := by
  have hdevice := h.locked call (List.mem_of_getElem? hcall)
  unfold State.perform
  cases call.request with
  | disconnect =>
      intro tokenHash deviceId now outcome hlog
      obtain ⟨hx, -⟩ := List.cons.inj hlog
      cases hx
  | consume hash =>
      intro tokenHash deviceId now outcome hlog
      obtain ⟨hx, -⟩ := List.cons.inj hlog
      injection hx with _ hid _ hout
      rcases consumeLocked_cases call.device hash call.now s.store with
        ⟨hnone, hstore⟩ | ⟨r, hr, -, -, -, -, huser, heq⟩ | ⟨r, hr, -, -, -, -, heq⟩
      · rw [hout] at hnone
        exact ⟨fun u b ho => absurd ho (hnone u b), fun _ => hstore⟩
      · rw [heq] at hout
        refine ⟨fun u b ho => ?_, fun _ => by simp only [heq]⟩
        rw [← hout] at ho
        injection ho with hu
        refine ⟨call.device, ?_, hid, by rw [huser, hu]⟩
        simp only [heq]
        exact hdevice
      · rw [heq] at hout
        refine ⟨fun u b ho => ?_, fun hnot => absurd hout.symm (hnot r.userId)⟩
        rw [← hout] at ho
        injection ho with hu
        refine ⟨{ call.device with userId := some r.userId, updatedAt := call.now }, ?_, hid,
          by rw [← hu]⟩
        simp only [heq]
        exact mem_link_self hdevice

theorem effect_step {s t : State} {a : Action} (h : Inv s) (hstep : step s a = some t) :
    Effect s t := by
  cases a with
  | tick seconds =>
      cases hstep
      exact effect_self s rfl
  | upsertForUser userId tokenHash expiresAt fate =>
      simp only [step] at hstep
      split at hstep
      · cases hstep
        refine fate.after_keeps (Effect s) (effect_self s rfl) ?_
        unfold State.issue
        split
        · intro hash d n outcome hlog
          obtain ⟨hx, -⟩ := List.cons.inj hlog
          cases hx
        · exact effect_self s rfl
      · cases hstep
  | lockDevice request deviceId =>
      simp only [step] at hstep
      split at hstep
      · cases hstep
      · split at hstep
        next =>
          cases hstep
          cases request with
          | disconnect => exact effect_self s rfl
          | consume tokenHash =>
              intro hash d n outcome hlog
              obtain ⟨hx, -⟩ := List.cons.inj hlog
              injection hx with _ _ _ hout
              refine ⟨fun u b ho => ?_, fun _ => rfl⟩
              rw [← hout] at ho
              cases ho
        next =>
          cases hstep
          exact effect_self s rfl
  | finish index fate =>
      simp only [step] at hstep
      cases hcall : s.calls[index]? with
      | none => simp [hcall] at hstep
      | some call =>
          simp only [hcall] at hstep
          cases hstep
          exact fate.after_keeps (Effect s) (effect_self s (by rfl)) (effect_perform h hcall _)

def onePhone : Devices :=
  ⟨[{ id := 7, userId := none, trialExpiresAt := 0, trialMessagesUsed := 0, revokedAt := none,
      updatedAt := 0 }], by decide⟩

def noRuns : Runs := Table.empty

def pairedRun : List Action :=
  [.upsertForUser 1 "a" 100 .done, .lockDevice (.consume "b") 7, .upsertForUser 1 "b" 160 .done,
    .tick 5, .finish 0 .done, .lockDevice .disconnect 7, .finish 0 .done,
    .lockDevice (.consume "b") 7]

/-- The token links the phone once, and no longer after the phone has disconnected. -/
example : (Transition.final step (init onePhone noRuns 0)
    (pairedRun ++ [.finish 0 .done])).log =
      [.consumed "b" 7 5 .invalidOrExpired, .disconnected 7, .consumed "b" 7 0 (.linked 1 true),
        .issued 1 "b" 160, .issued 1 "a" 100] := by decide +kernel

end Lightfriend.LightTool.Pairing
