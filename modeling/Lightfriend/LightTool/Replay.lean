import Lightfriend.LightTool.Quota

/-! # Repeated creations

A repeated call is compared with the stored row. The row keeps its message, but a
terminal row has lost its image, so a message with an image is no longer
recognised once its run is over.
-/

namespace Lightfriend.LightTool

variable {cipher : TextCipher}

/-! ## Stored texts decrypt -/

def TextCipher.Produces (cipher : TextCipher) (sealed : String) : Prop :=
  ∃ nonce text, cipher.encrypt nonce text = .ok sealed

/-- Every stored text is an encryption. -/
structure LightToolRun.Sealed (cipher : TextCipher) (r : LightToolRun) : Prop where
  userMessage : cipher.Produces r.encryptedUserMessage
  image : ∀ sealed, r.encryptedImageDataUrl = some sealed → cipher.Produces sealed
  activity : ∀ sealed, r.encryptedActivityText = some sealed → cipher.Produces sealed
  assistant : ∀ sealed, r.encryptedAssistantMessage = some sealed → cipher.Produces sealed
  error : ∀ sealed, r.encryptedErrorMessage = some sealed → cipher.Produces sealed

theorem encryptOptional_produces {nonce : Nat} {value stored : Option String}
    (h : encryptOptional cipher nonce value = .ok stored) :
    ∀ sealed, stored = some sealed → cipher.Produces sealed := by
  intro sealed hsealed
  subst hsealed
  cases value with
  | none => cases h
  | some text =>
      simp only [encryptOptional] at h
      cases hencrypt : cipher.encrypt nonce text with
      | error detail =>
          rw [hencrypt] at h
          cases h
      | ok produced =>
          rw [hencrypt] at h
          cases h
          exact ⟨nonce, text, hencrypt⟩

theorem NewRun.sealed {draft : RunDraft} {accountUserId : Option Int} {request : RunRequest}
    {now : Int} {run : LightToolRun} (h : NewRun cipher draft accountUserId request now run) :
    run.Sealed cipher := by
  have hactivity : run.encryptedActivityText = none := by
    have hiff := h.wellFormed.activity
    simpa [h.queued] using hiff
  have hassistant : run.encryptedAssistantMessage = none := by
    have hiff := h.wellFormed.assistant
    simpa [h.queued] using hiff
  have herror : run.encryptedErrorMessage = none := by
    have hiff := h.wellFormed.error
    simpa [h.queued] using hiff
  exact
    { userMessage := ⟨_, _, h.userMessage⟩
      image := encryptOptional_produces h.image
      activity := by simp [hactivity]
      assistant := by simp [hassistant]
      error := by simp [herror] }

theorem Statement.sealed_apply (statement : Statement) {sealed : String} (now : Int)
    {r : LightToolRun} (h : r.Sealed cipher) (hsealed : cipher.Produces sealed) :
    ((statement.move sealed).apply now r).Sealed cipher := by
  have htext : ∀ other, some sealed = some other → cipher.Produces other := by
    intro other hother
    cases hother
    exact hsealed
  have hnone : ∀ other, (none : Option String) = some other → cipher.Produces other := by
    intro other hother
    cases hother
  cases statement with
  | claimQueuedRun runId activityText now =>
      exact ⟨h.userMessage, h.image, htext, h.assistant, h.error⟩
  | updateRunningActivity runId activityText now =>
      exact ⟨h.userMessage, h.image, htext, h.assistant, h.error⟩
  | completeRunningRun runId assistantMessage now =>
      exact ⟨h.userMessage, hnone, hnone, htext, hnone⟩
  | failRunningRun runId errorMessage now =>
      exact ⟨h.userMessage, hnone, hnone, hnone, htext⟩
  | failStaleRunningRuns staleBefore errorMessage now =>
      exact ⟨h.userMessage, hnone, hnone, hnone, htext⟩

theorem Issued.runs_sealed (issued : Issued) {runs : Runs}
    (h : ∀ r ∈ runs, r.Sealed cipher) : ∀ r ∈ issued.runs cipher runs, r.Sealed cipher := by
  rcases issued.runs_eq cipher runs with ⟨hruns, _⟩ | ⟨sealed, hsealed, hruns, _⟩
  · rw [hruns]
    exact h
  · rw [hruns]
    intro r' hr'
    obtain ⟨r, hr, ⟨_, rfl⟩ | ⟨_, rfl⟩⟩ := Runs.mem_advance hr'
    · exact h r' hr
    · exact issued.statement.sealed_apply _ (h r hr) ⟨_, _, hsealed⟩

theorem Created.sealed {runs next : Runs} (h : Created cipher runs next)
    (hsealed : ∀ r ∈ runs, r.Sealed cipher) : ∀ r ∈ next, r.Sealed cipher := by
  cases h with
  | same hsame => exact hsame ▸ hsealed
  | inserted hrun hinsert =>
      obtain ⟨⟨hfree, rfl⟩, _⟩ := insertRun_spec hinsert
      intro r hr
      rcases Table.mem_insert.mp hr with hr | rfl
      · exact hsealed r hr
      · exact hrun.sealed

theorem step_sealed {s next : System} {action : Action}
    (h : ∀ r ∈ s.store.runs, r.Sealed cipher) (hstep : step cipher s action = some next) :
    ∀ r ∈ next.store.runs, r.Sealed cipher := by
  cases action with
  | registerDevice trialExpiresAt now =>
      cases hstep
      exact h
  | upsertForUser userId tokenHash expiresAt createdAt =>
      cases hstep
      split
      next store hupsert =>
        rw [upsertForUser_runs hupsert]
        exact h
      · exact h
  | consume tokenHash deviceId now =>
      cases hstep
      rw [consume_runs]
      exact h
  | disconnectDevice deviceId now =>
      cases hstep
      rw [disconnectDevice_runs]
      exact h
  | createTrial draft request now messageLimit =>
      cases hstep
      exact (createTrial_created _ _ _ _ _ _).sealed h
  | createAccount draft accountUserId request now =>
      cases hstep
      exact (createAccount_created _ _ _ _ _ _).sealed h
  | issue issued =>
      cases hstep
      exact issued.runs_sealed h
  | spawn runId =>
      cases hstep
      exact h
  | dispatch index input =>
      rw [step_dispatch] at hstep
      split at hstep
      · cases hstep
      · split at hstep
        · cases hstep
        next taken _ =>
          cases hstep
          cases hissued : taken.issued with
          | none => exact h
          | some issued => exact issued.runs_sealed h
  | startSupervisor =>
      cases hstep
      exact h
  | sweep index now nonce answer =>
      rw [step_sweep] at hstep
      split at hstep
      · cases hstep
        exact Issued.runs_sealed ⟨sweepStatement now, nonce, answer⟩ h
      · cases hstep
  | requeue index answer =>
      rw [step_requeue] at hstep
      split at hstep
      · cases hstep
        exact h
      · cases hstep
  | restart =>
      cases hstep
      exact h

theorem run_sealed {s : System} {actions : List Action}
    (hrun : Transition.run (step cipher) System.empty actions = some s) :
    ∀ r ∈ s.store.runs, r.Sealed cipher :=
  Transition.run_invariant_all (fun _ _ _ h hstep => step_sealed h hstep)
    (fun r hr => absurd hr (Table.not_mem_empty r)) hrun

theorem TextCipher.RoundTrips.decrypts (hcipher : cipher.RoundTrips) {sealed : String}
    (h : cipher.Produces sealed) : ∃ text, cipher.decrypt sealed = .ok text := by
  obtain ⟨nonce, text, hencrypt⟩ := h
  exact ⟨text, hcipher nonce text sealed hencrypt⟩

theorem decryptOptional_total (hcipher : cipher.RoundTrips) {stored : Option String}
    (h : ∀ sealed, stored = some sealed → cipher.Produces sealed) :
    ∃ text, decryptOptional cipher stored = .ok text := by
  cases stored with
  | none => exact ⟨none, rfl⟩
  | some sealed =>
      obtain ⟨text, htext⟩ := hcipher.decrypts (h sealed rfl)
      exact ⟨some text, by rw [decryptOptional, htext]; rfl⟩

/-- A sealed row decrypts, to the texts it was made of. -/
theorem decryptRun_sealed (hcipher : cipher.RoundTrips) {r : LightToolRun}
    (h : r.Sealed cipher) {userMessage : String} {image : Option String}
    (hmessage : cipher.decrypt r.encryptedUserMessage = .ok userMessage)
    (himage : decryptOptional cipher r.encryptedImageDataUrl = .ok image) :
    ∃ record, decryptRun cipher r = .ok record ∧ record.id = r.id ∧
      record.userMessage = userMessage ∧ record.imageDataUrl = image := by
  obtain ⟨activity, hactivity⟩ := decryptOptional_total hcipher h.activity
  obtain ⟨assistant, hassistant⟩ := decryptOptional_total hcipher h.assistant
  obtain ⟨error, herror⟩ := decryptOptional_total hcipher h.error
  unfold decryptRun
  rw [hmessage, himage, hactivity, hassistant, herror]
  exact ⟨_, rfl, rfl, rfl, rfl⟩

theorem decryptOptional_encrypted (hcipher : cipher.RoundTrips) {nonce : Nat}
    {value stored : Option String} (h : encryptOptional cipher nonce value = .ok stored) :
    decryptOptional cipher stored = .ok value ∧ (stored = none ↔ value = none) := by
  cases value with
  | none =>
      cases h
      exact ⟨rfl, Iff.rfl⟩
  | some text =>
      simp only [encryptOptional] at h
      cases hencrypt : cipher.encrypt nonce text with
      | error detail =>
          rw [hencrypt] at h
          cases h
      | ok sealed =>
          rw [hencrypt] at h
          cases h
          refine ⟨?_, by simp⟩
          rw [decryptOptional, hcipher nonce text sealed hencrypt]
          rfl

/-! ## The two creations as one call -/

/-- A creation on the trial quota, or for an account. -/
inductive RunCall
  | trial (messageLimit : Int)
  | account (accountUserId : Int)
deriving DecidableEq, Repr

def RunCall.accountUserId : RunCall → Option Int
  | .trial _ => none
  | .account accountUserId => some accountUserId

inductive CallAnswer
  | created (runId : String)
  | existing (runId : String)
  | unavailable
  | idempotencyConflict
deriving DecidableEq, Repr

def AnonymousTrialRunCreation.answer : AnonymousTrialRunCreation → CallAnswer
  | .created run _ => .created run.id
  | .existing run _ => .existing run.id
  | .trialUnavailable => .unavailable
  | .idempotencyConflict => .idempotencyConflict

def AccountRunCreation.answer : AccountRunCreation → CallAnswer
  | .created run => .created run.id
  | .existing run => .existing run.id
  | .accountUnavailable => .unavailable
  | .idempotencyConflict => .idempotencyConflict

def RunCall.answer (cipher : TextCipher) (draft : RunDraft) (request : RunRequest) (now : Int)
    (s : Store) : RunCall → Except RepositoryError CallAnswer
  | .trial messageLimit =>
      (createAnonymousTrialRunWithImage cipher draft request now messageLimit s).map
        (fun result => result.1.answer)
  | .account accountUserId =>
      (createAccountRunWithImage cipher draft accountUserId request now s).map
        (fun result => result.1.answer)

def RunCall.action (draft : RunDraft) (request : RunRequest) (now : Int) : RunCall → Action
  | .trial messageLimit => .createTrial draft request now messageLimit
  | .account accountUserId => .createAccount draft accountUserId request now

theorem mapError_eq_ok {ε ε' α : Type} {f : ε → ε'} {x : Except ε α} {a : α}
    (h : x.mapError f = .ok a) : x = .ok a := by
  cases x with
  | error error => cases h
  | ok value =>
      cases h
      rfl

theorem decryptRun_id {r : LightToolRun} {record : LightToolRunRecord}
    (h : decryptRun cipher r = .ok record) : record.id = r.id := by
  obtain ⟨userMessage, _, h⟩ := bind_eq_ok.mp (mapError_eq_ok h)
  obtain ⟨image, _, h⟩ := bind_eq_ok.mp h
  obtain ⟨activity, _, h⟩ := bind_eq_ok.mp h
  obtain ⟨assistant, _, h⟩ := bind_eq_ok.mp h
  obtain ⟨error, _, h⟩ := bind_eq_ok.mp h
  cases h
  rfl

theorem Inserted.mem {draft : RunDraft} {accountUserId : Option Int} {request : RunRequest}
    {now : Int} {s : Store} {run : LightToolRun} {runs : Runs} {record : LightToolRunRecord}
    (h : Inserted cipher draft accountUserId request now s run runs record) : run ∈ runs := by
  obtain ⟨⟨hfree, rfl⟩, _⟩ := insertRun_spec h.inserted
  exact Table.mem_insert.mpr (Or.inr rfl)

/-- A created run stands in the table, as the request asks. -/
theorem RunCall.created_spec (call : RunCall) {draft : RunDraft} {request : RunRequest}
    {now : Int} {s s' : System} {runId : String}
    (h : call.answer cipher draft request now s.store = .ok (.created runId))
    (hstep : step cipher s (call.action draft request now) = some s') :
    ∃ run ∈ s'.store.runs, run.id = runId ∧
      NewRun cipher draft call.accountUserId request now run := by
  cases call with
  | trial messageLimit =>
      cases hresult : createAnonymousTrialRunWithImage cipher draft request now messageLimit
          s.store with
      | error error =>
          simp only [RunCall.answer, hresult] at h
          cases h
      | ok result =>
          obtain ⟨answer, next⟩ := result
          simp only [RunCall.answer, hresult, Except.map, Except.ok.injEq] at h
          simp only [RunCall.action, step, hresult, committed] at hstep
          cases createAnonymousTrialRunWithImage_spec hresult with
          | unavailable => cases h
          | conflict => cases h
          | existing _ => cases h
          | created _ _ hrun =>
              cases h
              cases hstep
              exact ⟨_, hrun.mem, (decryptRun_id hrun.returned).symm, hrun.row⟩
  | account accountUserId =>
      cases hresult : createAccountRunWithImage cipher draft accountUserId request now s.store with
      | error error =>
          simp only [RunCall.answer, hresult] at h
          cases h
      | ok result =>
          obtain ⟨answer, next⟩ := result
          simp only [RunCall.answer, hresult, Except.map, Except.ok.injEq] at h
          simp only [RunCall.action, step, hresult, committed] at hstep
          cases createAccountRunWithImage_spec hresult with
          | unavailable => cases h
          | conflict => cases h
          | existing _ => cases h
          | created _ _ hrun =>
              cases h
              cases hstep
              exact ⟨_, hrun.mem, (decryptRun_id hrun.returned).symm, hrun.row⟩

/-- The law of repetition: the same message is recognised, any other one is refused. -/
def ReplayLaw (request repeated : RunRequest) (runId : String)
    (answer : Except RepositoryError CallAnswer) : Prop :=
  if repeated.userMessage = request.userMessage ∧ repeated.imageDataUrl = request.imageDataUrl then
    answer = .ok (.existing runId)
  else answer = .ok .idempotencyConflict

/-- What a repeated call is compared with. -/
structure Stands (cipher : TextCipher) (s : Store) (request : RunRequest)
    (accountUserId : Option Int) (record : LightToolRunRecord) : Prop where
  device : ∃ d, s.activeDevice request.deviceId = some d ∧ d.userId = accountUserId
  run : ∃ r, s.existingRun request.deviceId request.clientMessageId = some r ∧
    r.accountUserId = accountUserId ∧ decryptRun cipher r = .ok record

theorem RunCall.answer_of_stands (call : RunCall) {draft : RunDraft} {request : RunRequest}
    {now : Int} {s : Store} {record : LightToolRunRecord}
    (h : Stands cipher s request call.accountUserId record) :
    call.answer cipher draft request now s =
      .ok (if sameRequest request record then .existing record.id else .idempotencyConflict) := by
  obtain ⟨d, hdevice, hlinked⟩ := h.device
  obtain ⟨r, hrun, haccount, hrecord⟩ := h.run
  cases call with
  | trial messageLimit =>
      simp only [RunCall.accountUserId] at hlinked haccount
      by_cases hsame : sameRequest request record = true
      · simp [RunCall.answer, createAnonymousTrialRunWithImage, hdevice, hlinked, hrun, haccount,
          hrecord, hsame, Except.map, AnonymousTrialRunCreation.answer, bind, Except.bind, pure,
          Except.pure]
      · simp [RunCall.answer, createAnonymousTrialRunWithImage, hdevice, hlinked, hrun, haccount,
          hrecord, hsame, Except.map, AnonymousTrialRunCreation.answer, bind, Except.bind, pure,
          Except.pure]
  | account accountUserId =>
      simp only [RunCall.accountUserId] at hlinked haccount
      by_cases hsame : sameRequest request record = true
      · simp [RunCall.answer, createAccountRunWithImage, hdevice, hlinked, hrun, haccount,
          hrecord, hsame, Except.map, AccountRunCreation.answer, bind, Except.bind, pure,
          Except.pure]
      · simp [RunCall.answer, createAccountRunWithImage, hdevice, hlinked, hrun, haccount,
          hrecord, hsame, Except.map, AccountRunCreation.answer, bind, Except.bind, pure,
          Except.pure]

/-- With unique keys, the run of a row's key is the row. -/
theorem existingRun_of_mem {s : Store}
    (hdistinct : (s.runs.origins.map RunOrigin.key).Nodup) {r : LightToolRun} (hr : r ∈ s.runs) :
    s.existingRun r.deviceId r.clientMessageId = some r := by
  cases hfound : s.existingRun r.deviceId r.clientMessageId with
  | none => exact absurd ⟨rfl, rfl⟩ (existingRun_eq_none hfound r hr)
  | some other =>
      obtain ⟨hother, hdevice, hmessage⟩ := existingRun_spec hfound
      have hkeys : (s.runs.rows.map (RunOrigin.key ∘ LightToolRun.origin)).Nodup := by
        rw [← List.map_map]
        exact hdistinct
      rw [List.inj_on_of_nodup_map hkeys hother hr (Prod.ext hdevice hmessage)]

/-- The stored image of a run that has been created with `image`, as it decrypts. -/
def keptImage (status : RunStatus) (image : Option String) : Option String :=
  if status.Terminal then none else image

/-- A created run stands until its repetition, without its image once it is over. -/
theorem created_stands (hcipher : cipher.RoundTrips) {before later : List Action}
    {s s₁ s₂ : System} {call : RunCall} {draft : RunDraft} {request : RunRequest} {now : Int}
    {runId : String} (hs : Transition.run (step cipher) System.empty before = some s)
    (hcreated : call.answer cipher draft request now s.store = .ok (.created runId))
    (hstep : step cipher s (call.action draft request now) = some s₁)
    (hlater : Transition.run (step cipher) s₁ later = some s₂)
    (hdevice : ∃ d, s₂.store.activeDevice request.deviceId = some d ∧
      d.userId = call.accountUserId) :
    ∃ r ∈ s₂.store.runs, ∃ record, r.id = runId ∧ record.id = runId ∧
      Stands cipher s₂.store request call.accountUserId record ∧
      record.userMessage = request.userMessage ∧
      record.imageDataUrl = keptImage r.status request.imageDataUrl := by
  have hreach : Transition.run (step cipher) System.empty
      (before ++ call.action draft request now :: later) = some s₂ := by
    refine Transition.run_append.mpr ⟨s, hs, ?_⟩
    rw [Transition.run_cons_of_step hstep]
    exact hlater
  obtain ⟨run, hrun, hid, hnew⟩ := call.created_spec hcreated hstep
  obtain ⟨r, hr, hevolves⟩ := run_rows hlater hrun
  have hlive : ¬ run.status.Terminal := by
    rw [hnew.queued]
    decide
  have hmessage : cipher.decrypt r.encryptedUserMessage = .ok request.userMessage := by
    rw [hevolves.userMessage]
    exact hcipher _ _ _ hnew.userMessage
  have himage : decryptOptional cipher r.encryptedImageDataUrl =
      .ok (keptImage r.status request.imageDataUrl) := by
    rw [hevolves.image hlive, keptImage]
    split
    · rfl
    · exact (decryptOptional_encrypted hcipher hnew.image).1
  obtain ⟨record, hrecord, hrecordId, htext, hurl⟩ :=
    decryptRun_sealed hcipher (run_sealed hreach r hr) hmessage himage
  have hexisting : s₂.store.existingRun request.deviceId request.clientMessageId = some r := by
    have hfound := existingRun_of_mem (run_quota hreach).distinct hr
    rwa [hevolves.deviceId, hevolves.clientMessageId, hnew.deviceId, hnew.clientMessageId]
      at hfound
  have hstands : Stands cipher s₂.store request call.accountUserId record :=
    ⟨hdevice, r, hexisting, hevolves.accountUserId.trans hnew.accountUserId, hrecord⟩
  have hrunId : r.id = runId := hevolves.id.trans hid
  exact ⟨r, hr, record, hrunId, hrecordId.trans hrunId, hstands, htext, hurl⟩

/-- The comparison agrees with the law, but for a terminal run that had an image. -/
theorem sameRequest_kept_iff {request repeated : RunRequest} {record : LightToolRunRecord}
    {status : RunStatus} (hmessage : record.userMessage = request.userMessage)
    (himage : record.imageDataUrl = keptImage status request.imageDataUrl) :
    (sameRequest repeated record = true ↔ repeated.userMessage = request.userMessage ∧
      repeated.imageDataUrl = request.imageDataUrl) ↔
    (status.Terminal → request.imageDataUrl ≠ none →
      repeated.userMessage = request.userMessage →
        repeated.imageDataUrl ≠ request.imageDataUrl ∧ repeated.imageDataUrl ≠ none) := by
  have hcompared : sameRequest repeated record = true ↔
      repeated.userMessage = request.userMessage ∧
        repeated.imageDataUrl = keptImage status request.imageDataUrl := by
    simp only [sameRequest, Bool.and_eq_true, decide_eq_true_eq, hmessage, himage]
    constructor
    · rintro ⟨htext, hurl⟩
      exact ⟨htext.symm, hurl.symm⟩
    · rintro ⟨htext, hurl⟩
      exact ⟨htext.symm, hurl.symm⟩
  rw [hcompared]
  by_cases hdone : status.Terminal
  · rw [keptImage, if_pos hdone]
    grind
  · rw [keptImage, if_neg hdone]
    simp [hdone]

/-- A repetition is answered by the law exactly when its run is not over, or had no image, or
is asked for with another text or another image. -/
theorem replay_law_iff (hcipher : cipher.RoundTrips) {before later : List Action}
    {s s₁ s₂ : System} {call again : RunCall} {draft draft' : RunDraft}
    {request repeated : RunRequest} {now now' : Int} {runId : String}
    (hs : Transition.run (step cipher) System.empty before = some s)
    (hcreated : call.answer cipher draft request now s.store = .ok (.created runId))
    (hstep : step cipher s (call.action draft request now) = some s₁)
    (hlater : Transition.run (step cipher) s₁ later = some s₂)
    (hdevice : ∃ d, s₂.store.activeDevice request.deviceId = some d ∧
      d.userId = call.accountUserId)
    (hagain : again.accountUserId = call.accountUserId)
    (hdeviceId : repeated.deviceId = request.deviceId)
    (hmessageId : repeated.clientMessageId = request.clientMessageId) :
    ReplayLaw request repeated runId (again.answer cipher draft' repeated now' s₂.store) ↔
      ((∃ r ∈ s₂.store.runs, r.id = runId ∧ r.status.Terminal) → request.imageDataUrl ≠ none →
        repeated.userMessage = request.userMessage →
          repeated.imageDataUrl ≠ request.imageDataUrl ∧ repeated.imageDataUrl ≠ none) := by
  obtain ⟨r, hr, record, hid, hrecordId, hstands, htext, hurl⟩ :=
    created_stands hcipher hs hcreated hstep hlater hdevice
  have hterminal : (∃ r ∈ s₂.store.runs, r.id = runId ∧ r.status.Terminal) ↔
      r.status.Terminal := by
    constructor
    · rintro ⟨other, hother, hotherId, hdone⟩
      rwa [Table.eq_of_key_eq hother hr (hotherId.trans hid.symm)] at hdone
    · intro hdone
      exact ⟨r, hr, hid, hdone⟩
  have hagainStands : Stands cipher s₂.store repeated again.accountUserId record := by
    have hdevice := hstands.device
    have hrun := hstands.run
    rw [← hdeviceId, ← hagain] at hdevice
    rw [← hdeviceId, ← hmessageId, ← hagain] at hrun
    exact ⟨hdevice, hrun⟩
  rw [again.answer_of_stands hagainStands, hterminal,
    ← sameRequest_kept_iff htext hurl, hrecordId, ReplayLaw]
  by_cases hcompared : sameRequest repeated record = true
  · simp [hcompared]
  · simp [hcompared]

/-- A photo message is answered, and its request comes once more. -/
def answeredPhotoRun : List Action :=
  [.spawn "run",
    .dispatch 0 (.statement 20 3 .done),
    .dispatch 0 (.history .done),
    .dispatch 0 (.response (.ok "a cat")),
    .dispatch 0 (.statement 30 4 .done)]

def photoRequest : RunRequest := ⟨1, "message", "what is this?", some "data:photo"⟩

def photoDevice : List Action := [.registerDevice 100000 0]

def photoCreation : Action := (RunCall.trial 5).action ⟨"run", 1, 2⟩ photoRequest 10

theorem replay_law_iff_answered_photo :
    let s := Transition.final (step markedCipher) System.empty photoDevice
    let s₁ := Transition.final (step markedCipher) s [photoCreation]
    let s₂ := Transition.final (step markedCipher) s₁ answeredPhotoRun
    ¬ ReplayLaw photoRequest photoRequest "run"
      ((RunCall.trial 5).answer markedCipher ⟨"again", 5, 6⟩ photoRequest 40 s₂.store) := by
  intro s s₁ s₂
  have hs : Transition.run (step markedCipher) System.empty photoDevice = some s :=
    Transition.run_eq_final (by decide +kernel)
  have hstep : step markedCipher s photoCreation = some s₁ := by rfl
  have hlater : Transition.run (step markedCipher) s₁ answeredPhotoRun = some s₂ :=
    Transition.run_eq_final (by decide +kernel)
  have hcreated : (RunCall.trial 5).answer markedCipher ⟨"run", 1, 2⟩ photoRequest 10 s.store =
      .ok (.created "run") := by
    decide +kernel
  have hdevice : ∃ d, s₂.store.activeDevice photoRequest.deviceId = some d ∧
      d.userId = none :=
    ⟨⟨1, none, 100000, 1, none, 10⟩, by decide +kernel, rfl⟩
  have hdone : ∃ r ∈ s₂.store.runs, r.id = "run" ∧ r.status.Terminal := by decide +kernel
  intro hlaw
  exact ((replay_law_iff markedCipher_roundTrips hs hcreated hstep hlater hdevice rfl rfl rfl).mp
    hlaw hdone (by decide) rfl).1 rfl

/-- The repetition of the answered photo message is refused as another message. -/
theorem answered_photo_refused :
    let s₂ := Transition.final (step markedCipher) System.empty
      (photoDevice ++ photoCreation :: answeredPhotoRun)
    Transition.run (step markedCipher) System.empty
        (photoDevice ++ photoCreation :: answeredPhotoRun) = some s₂ ∧
      (RunCall.trial 5).answer markedCipher ⟨"again", 5, 6⟩ photoRequest 40 s₂.store =
        .ok .idempotencyConflict ∧
      (RunCall.trial 5).answer markedCipher ⟨"again", 5, 6⟩
        { photoRequest with imageDataUrl := none } 40 s₂.store = .ok (.existing "run") := by
  refine ⟨Transition.run_eq_final (by decide +kernel), by decide +kernel, by decide +kernel⟩

end Lightfriend.LightTool
