import Lightfriend.LightTool.Run

/-! # Devices, pairings and the creation of runs

A run is created for the account a device is linked to, or on the trial quota of
an unlinked device. Every call is one transaction that locks the row of its
device first, so calls for one device are serial; a call that fails is rolled
back.
-/

namespace Lightfriend.LightTool

/-! ## Rows -/

structure LightToolDevice where
  id : Int
  userId : Option Int
  trialExpiresAt : Int
  trialMessagesUsed : Int
  revokedAt : Option Int
  updatedAt : Int
deriving DecidableEq, Repr

abbrev Devices := Table LightToolDevice Int LightToolDevice.id

structure LightToolPairingSession where
  userId : Int
  tokenHash : String
  expiresAt : Int
  consumedAt : Option Int
  consumedByDeviceId : Option Int
  createdAt : Int
deriving DecidableEq, Repr

abbrev Sessions := Table LightToolPairingSession Int LightToolPairingSession.userId

structure Store where
  devices : Devices
  sessions : Sessions
  runs : Runs

def Store.empty : Store := ⟨Table.empty, Table.empty, Table.empty⟩

/-- `SELECT .. WHERE id = .. AND revoked_at IS NULL FOR UPDATE`. -/
def Store.activeDevice (s : Store) (deviceId : Int) : Option LightToolDevice :=
  (s.devices.find? deviceId).filter (fun d => d.revokedAt.isNone)

/-- The run of a device with this client message id. -/
def Store.existingRun (s : Store) (deviceId : Int) (clientMessageId : String) :
    Option LightToolRun :=
  s.runs.rows.find? (fun r => r.deviceId = deviceId ∧ r.clientMessageId = clientMessageId)

/-! ## Registration and pairing -/

/-- A first bootstrap of an installation. -/
def registerDevice (trialExpiresAt now : Int) (s : Store) : Store :=
  { s with
    devices := s.devices.insertOrIgnore
      { id := nextSerial (s.devices.rows.map LightToolDevice.id)
        userId := none
        trialExpiresAt
        trialMessagesUsed := 0
        revokedAt := none
        updatedAt := now } }

inductive PairingConsumption
  | linked (userId : Int) (newlyLinked : Bool)
  | invalidOrExpired
  | deviceUnavailable
  | deviceAlreadyLinked
deriving DecidableEq, Repr

/-- `upsert_for_user`; a token hash that another account holds is refused. -/
def upsertForUser (userId : Int) (tokenHash : String) (expiresAt createdAt : Int) (s : Store) :
    Except RepositoryError Store :=
  if ∃ r ∈ s.sessions.rows, r.tokenHash = tokenHash ∧ r.userId ≠ userId then .error .database
  else .ok
    { s with
      sessions := s.sessions.upsert
        { userId, tokenHash, expiresAt, consumedAt := none, consumedByDeviceId := none, createdAt }
        (fun r =>
          { r with
            tokenHash, expiresAt, createdAt
            consumedAt := none
            consumedByDeviceId := none })
        (fun _ => rfl) }

def Devices.link (devices : Devices) (deviceId : Int) (userId : Option Int) (now : Int) :
    Devices :=
  devices.updateWhere (fun d => d.id = deviceId) (fun d => { d with userId, updatedAt := now })
    (fun _ => rfl)

def consume (tokenHash : String) (deviceId now : Int) (s : Store) : PairingConsumption × Store :=
  match s.activeDevice deviceId with
  | none => (.deviceUnavailable, s)
  | some device =>
      match s.sessions.rows.find? (fun r => r.tokenHash = tokenHash) with
      | none => (.invalidOrExpired, s)
      | some session =>
          if session.expiresAt ≤ now then (.invalidOrExpired, s)
          else if session.consumedAt.isSome then
            if session.consumedByDeviceId = some deviceId ∧ device.userId = some session.userId then
              (.linked session.userId false, s)
            else (.invalidOrExpired, s)
          else if device.userId.isSome then (.deviceAlreadyLinked, s)
          else
            (.linked session.userId true,
              { s with
                devices := s.devices.link deviceId (some session.userId) now
                sessions := s.sessions.updateWhere (fun r => r.userId = session.userId)
                  (fun r =>
                    { r with consumedAt := some now, consumedByDeviceId := some deviceId })
                  (fun _ => rfl) })

def disconnectDevice (deviceId now : Int) (s : Store) : Bool × Store :=
  match s.activeDevice deviceId with
  | none => (false, s)
  | some device =>
      let sessions := match device.userId with
        | none => s.sessions
        | some userId => s.sessions.deleteWhere (fun r =>
            r.userId = userId ∧ r.consumedByDeviceId = some deviceId)
      (true, { s with devices := s.devices.link deviceId none now, sessions })

/-! ## Creation -/

inductive AnonymousTrialRunCreation
  | created (run : LightToolRunRecord) (messagesRemaining : Int)
  | existing (run : LightToolRunRecord) (messagesRemaining : Int)
  | trialUnavailable
  | idempotencyConflict
deriving DecidableEq, Repr

inductive AccountRunCreation
  | created (run : LightToolRunRecord)
  | existing (run : LightToolRunRecord)
  | accountUnavailable
  | idempotencyConflict
deriving DecidableEq, Repr

/-- What a creation draws at random: the id of the run and the nonces of its texts. -/
structure RunDraft where
  runId : String
  messageNonce : Nat
  imageNonce : Nat
deriving DecidableEq, Repr

/-- The message of a run as the client sends it. -/
structure RunRequest where
  deviceId : Int
  clientMessageId : String
  userMessage : String
  imageDataUrl : Option String
deriving DecidableEq, Repr

/-- The result of an `i32` subtraction that wraps around. -/
def wrappingSub (a b : Int) : Int := (a - b + 2147483648) % 4294967296 - 2147483648

def remainingMessages (device : LightToolDevice) (messageLimit : Int) : Int :=
  max (wrappingSub messageLimit device.trialMessagesUsed) 0

def encryptOptional (cipher : TextCipher) (nonce : Nat) :
    Option String → Except String (Option String)
  | none => .ok none
  | some value => (cipher.encrypt nonce value).map some

/-- The new row of a run, queued by default. -/
def newRun (cipher : TextCipher) (draft : RunDraft) (accountUserId : Option Int)
    (request : RunRequest) (now : Int) : Except RepositoryError LightToolRun :=
  Except.mapError .encryption do
    let encryptedUserMessage ← cipher.encrypt draft.messageNonce request.userMessage
    let encryptedImageDataUrl ← encryptOptional cipher draft.imageNonce request.imageDataUrl
    pure
      { id := draft.runId
        deviceId := request.deviceId
        accountUserId
        clientMessageId := request.clientMessageId
        encryptedUserMessage, encryptedImageDataUrl
        encryptedActivityText := none
        encryptedAssistantMessage := none
        encryptedErrorMessage := none
        status := .queued
        createdAt := now
        updatedAt := now
        completedAt := none }

/-- `INSERT` under the two unique constraints of the table. -/
def insertRun (runs : Runs) (run : LightToolRun) : Except RepositoryError Runs :=
  if h : runs.HasKey run.id then .error .database
  else if ∃ r ∈ runs.rows, r.deviceId = run.deviceId ∧ r.clientMessageId = run.clientMessageId then
    .error .database
  else .ok (runs.insert run h)

def trialClaimable (deviceId now messageLimit : Int) (d : LightToolDevice) : Bool :=
  d.id = deviceId ∧ d.userId = none ∧ d.revokedAt = none ∧ now < d.trialExpiresAt ∧
    d.trialMessagesUsed < messageLimit

def LightToolDevice.claimMessage (now : Int) (d : LightToolDevice) : LightToolDevice :=
  { d with trialMessagesUsed := d.trialMessagesUsed + 1, updatedAt := now }

/-- The eligibility predicates and the increment share one `UPDATE`. -/
def Devices.claimTrialMessage (devices : Devices) (deviceId now messageLimit : Int) : Devices :=
  devices.updateWhere (trialClaimable deviceId now messageLimit)
    (LightToolDevice.claimMessage now) (fun _ => rfl)

/-- Is the stored run the one the request asks for? -/
def sameRequest (request : RunRequest) (run : LightToolRunRecord) : Bool :=
  run.userMessage = request.userMessage && run.imageDataUrl = request.imageDataUrl

def createAnonymousTrialRunWithImage (cipher : TextCipher) (draft : RunDraft)
    (request : RunRequest) (now messageLimit : Int) (s : Store) :
    Except RepositoryError (AnonymousTrialRunCreation × Store) :=
  match s.activeDevice request.deviceId with
  | none => .ok (.trialUnavailable, s)
  | some device =>
      if device.userId.isSome then .ok (.trialUnavailable, s)
      else
        match s.existingRun request.deviceId request.clientMessageId with
        | some existing =>
            if existing.accountUserId.isSome then .ok (.idempotencyConflict, s)
            else do
              let existing ← decryptRun cipher existing
              if sameRequest request existing then
                pure (.existing existing (remainingMessages device messageLimit), s)
              else pure (.idempotencyConflict, s)
        | none =>
            if trialClaimable request.deviceId now messageLimit device then do
              let run ← newRun cipher draft none request now
              let runs ← insertRun s.runs run
              let record ← decryptRun cipher run
              pure (.created record (remainingMessages (device.claimMessage now) messageLimit),
                { s with
                  devices := s.devices.claimTrialMessage request.deviceId now messageLimit
                  runs })
            else .ok (.trialUnavailable, s)

def createAccountRunWithImage (cipher : TextCipher) (draft : RunDraft) (accountUserId : Int)
    (request : RunRequest) (now : Int) (s : Store) :
    Except RepositoryError (AccountRunCreation × Store) :=
  match s.activeDevice request.deviceId with
  | none => .ok (.accountUnavailable, s)
  | some device =>
      if device.userId ≠ some accountUserId then .ok (.accountUnavailable, s)
      else
        match s.existingRun request.deviceId request.clientMessageId with
        | some existing =>
            if existing.accountUserId ≠ some accountUserId then .ok (.idempotencyConflict, s)
            else do
              let existing ← decryptRun cipher existing
              if sameRequest request existing then pure (.existing existing, s)
              else pure (.idempotencyConflict, s)
        | none => do
            let run ← newRun cipher draft (some accountUserId) request now
            let runs ← insertRun s.runs run
            let record ← decryptRun cipher run
            pure (.created record, { s with runs })

/-! ## What a creation does -/

section Specs

variable {cipher : TextCipher} {draft : RunDraft} {request : RunRequest} {s s' : Store}
  {now messageLimit accountUser : Int}

theorem activeDevice_spec {deviceId : Int} {device : LightToolDevice}
    (h : s.activeDevice deviceId = some device) :
    device ∈ s.devices ∧ device.id = deviceId ∧ device.revokedAt = none := by
  obtain ⟨hfound, hactive⟩ := Option.filter_eq_some_iff.mp h
  obtain ⟨hmem, hid⟩ := Table.find?_eq_some_iff.mp hfound
  exact ⟨hmem, hid, Option.isNone_iff_eq_none.mp hactive⟩

theorem existingRun_spec {deviceId : Int} {clientMessageId : String} {r : LightToolRun}
    (h : s.existingRun deviceId clientMessageId = some r) :
    r ∈ s.runs ∧ r.deviceId = deviceId ∧ r.clientMessageId = clientMessageId := by
  have hfound := List.find?_some h
  simp only [decide_eq_true_eq] at hfound
  exact ⟨List.mem_of_find?_eq_some h, hfound⟩

theorem existingRun_eq_none {deviceId : Int} {clientMessageId : String}
    (h : s.existingRun deviceId clientMessageId = none) :
    ∀ r ∈ s.runs, ¬ (r.deviceId = deviceId ∧ r.clientMessageId = clientMessageId) := by
  intro r hr
  have hnot := List.find?_eq_none.mp h r hr
  simpa using hnot

/-- A new row: queued, with the texts of the request encrypted. -/
structure NewRun (cipher : TextCipher) (draft : RunDraft) (accountUserId : Option Int)
    (request : RunRequest) (now : Int) (run : LightToolRun) : Prop where
  id : run.id = draft.runId
  deviceId : run.deviceId = request.deviceId
  accountUserId : run.accountUserId = accountUserId
  clientMessageId : run.clientMessageId = request.clientMessageId
  userMessage : cipher.encrypt draft.messageNonce request.userMessage =
    .ok run.encryptedUserMessage
  image : encryptOptional cipher draft.imageNonce request.imageDataUrl =
    .ok run.encryptedImageDataUrl
  queued : run.status = .queued
  wellFormed : run.WellFormed

theorem newRun_spec {accountUserId : Option Int} {run : LightToolRun}
    (h : newRun cipher draft accountUserId request now = .ok run) :
    NewRun cipher draft accountUserId request now run := by
  unfold newRun at h
  cases hmessage : cipher.encrypt draft.messageNonce request.userMessage with
  | error detail =>
      rw [hmessage] at h
      cases h
  | ok encryptedUserMessage =>
      cases himage : encryptOptional cipher draft.imageNonce request.imageDataUrl with
      | error detail =>
          rw [hmessage, himage] at h
          cases h
      | ok encryptedImageDataUrl =>
          rw [hmessage, himage] at h
          cases h
          exact ⟨rfl, rfl, rfl, rfl, hmessage, himage, rfl,
            by constructor <;> simp [RunStatus.Terminal]⟩

theorem insertRun_spec {runs next : Runs} {run : LightToolRun}
    (h : insertRun runs run = .ok next) :
    (∃ hfree, next = runs.insert run hfree) ∧
      ∀ r ∈ runs, ¬ (r.deviceId = run.deviceId ∧ r.clientMessageId = run.clientMessageId) := by
  unfold insertRun at h
  split at h
  · cases h
  next hfree =>
    split at h
    · cases h
    next hpair =>
      cases h
      exact ⟨⟨hfree, rfl⟩, fun r hr hsame => hpair ⟨r, hr, hsame⟩⟩

/-- A replay is compared with the stored run, as it decrypts. -/
structure Replayed (cipher : TextCipher) (request : RunRequest) (accountUserId : Option Int)
    (s : Store) (record : LightToolRunRecord) : Prop where
  found : ∃ run, s.existingRun request.deviceId request.clientMessageId = some run ∧
    run.accountUserId = accountUserId ∧ decryptRun cipher run = .ok record
  same : sameRequest request record = true

/-- The row of a created run, in its place. -/
structure Inserted (cipher : TextCipher) (draft : RunDraft) (accountUserId : Option Int)
    (request : RunRequest) (now : Int) (s : Store) (run : LightToolRun) (runs : Runs)
    (record : LightToolRunRecord) : Prop where
  fresh : s.existingRun request.deviceId request.clientMessageId = none
  row : NewRun cipher draft accountUserId request now run
  inserted : insertRun s.runs run = .ok runs
  returned : decryptRun cipher run = .ok record

inductive TrialCreation (cipher : TextCipher) (draft : RunDraft) (request : RunRequest)
    (now messageLimit : Int) (s : Store) : AnonymousTrialRunCreation → Store → Prop
  | unavailable : TrialCreation cipher draft request now messageLimit s .trialUnavailable s
  | conflict : TrialCreation cipher draft request now messageLimit s .idempotencyConflict s
  | existing {record : LightToolRunRecord} {messagesRemaining : Int}
      (h : Replayed cipher request none s record) :
      TrialCreation cipher draft request now messageLimit s (.existing record messagesRemaining) s
  | created {device : LightToolDevice} {run : LightToolRun} {runs : Runs}
      {record : LightToolRunRecord} {messagesRemaining : Int}
      (hdevice : s.activeDevice request.deviceId = some device)
      (hclaim : trialClaimable request.deviceId now messageLimit device = true)
      (hrun : Inserted cipher draft none request now s run runs record) :
      TrialCreation cipher draft request now messageLimit s (.created record messagesRemaining)
        { s with
          devices := s.devices.claimTrialMessage request.deviceId now messageLimit
          runs }

theorem createAnonymousTrialRunWithImage_spec {answer : AnonymousTrialRunCreation}
    (h : createAnonymousTrialRunWithImage cipher draft request now messageLimit s =
      .ok (answer, s')) : TrialCreation cipher draft request now messageLimit s answer s' := by
  unfold createAnonymousTrialRunWithImage at h
  split at h
  · cases h
    exact .unavailable
  next device hdevice =>
    split at h
    · cases h
      exact .unavailable
    · split at h
      next existing hexisting =>
        split at h
        · cases h
          exact .conflict
        next haccount =>
          obtain ⟨record, hrecord, h⟩ := bind_eq_ok.mp h
          split at h
          next hsame =>
            cases h
            exact .existing ⟨⟨existing, hexisting, by simpa using haccount, hrecord⟩, hsame⟩
          · cases h
            exact .conflict
      next hfresh =>
        split at h
        next hclaim =>
          obtain ⟨run, hrun, h⟩ := bind_eq_ok.mp h
          obtain ⟨runs, hruns, h⟩ := bind_eq_ok.mp h
          obtain ⟨record, hrecord, h⟩ := bind_eq_ok.mp h
          cases h
          exact .created hdevice hclaim ⟨hfresh, newRun_spec hrun, hruns, hrecord⟩
        · cases h
          exact .unavailable

inductive AccountCreation (cipher : TextCipher) (draft : RunDraft) (accountUser : Int)
    (request : RunRequest) (now : Int) (s : Store) : AccountRunCreation → Store → Prop
  | unavailable : AccountCreation cipher draft accountUser request now s .accountUnavailable s
  | conflict : AccountCreation cipher draft accountUser request now s .idempotencyConflict s
  | existing {record : LightToolRunRecord}
      (h : Replayed cipher request (some accountUser) s record) :
      AccountCreation cipher draft accountUser request now s (.existing record) s
  | created {device : LightToolDevice} {run : LightToolRun} {runs : Runs}
      {record : LightToolRunRecord}
      (hdevice : s.activeDevice request.deviceId = some device)
      (hlinked : device.userId = some accountUser)
      (hrun : Inserted cipher draft (some accountUser) request now s run runs record) :
      AccountCreation cipher draft accountUser request now s (.created record) { s with runs }

theorem createAccountRunWithImage_spec {answer : AccountRunCreation}
    (h : createAccountRunWithImage cipher draft accountUser request now s = .ok (answer, s')) :
    AccountCreation cipher draft accountUser request now s answer s' := by
  unfold createAccountRunWithImage at h
  split at h
  · cases h
    exact .unavailable
  next device hdevice =>
    split at h
    · cases h
      exact .unavailable
    next hlinked =>
      split at h
      next existing hexisting =>
        split at h
        · cases h
          exact .conflict
        next haccount =>
          obtain ⟨record, hrecord, h⟩ := bind_eq_ok.mp h
          split at h
          next hsame =>
            cases h
            exact .existing ⟨⟨existing, hexisting, not_not.mp haccount, hrecord⟩, hsame⟩
          · cases h
            exact .conflict
      next hfresh =>
        obtain ⟨run, hrun, h⟩ := bind_eq_ok.mp h
        obtain ⟨runs, hruns, h⟩ := bind_eq_ok.mp h
        obtain ⟨record, hrecord, h⟩ := bind_eq_ok.mp h
        cases h
        exact .created hdevice (not_not.mp hlinked) ⟨hfresh, newRun_spec hrun, hruns, hrecord⟩

end Specs

end Lightfriend.LightTool
