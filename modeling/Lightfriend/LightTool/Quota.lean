import Lightfriend.LightTool.Lifecycle

/-! # The trial quota and the key of a run

What the quota depends on is the origin of every run: its device, the client's id
for the message and the account. No statement of a run's life changes it.
-/

namespace Lightfriend.LightTool

variable {cipher : TextCipher}

/-! ## Origins -/

structure RunOrigin where
  deviceId : Int
  clientMessageId : String
  accountUserId : Option Int
deriving DecidableEq, Repr

def RunOrigin.key (o : RunOrigin) : Int × String := (o.deviceId, o.clientMessageId)

def LightToolRun.origin (r : LightToolRun) : RunOrigin :=
  ⟨r.deviceId, r.clientMessageId, r.accountUserId⟩

def Runs.origins (runs : Runs) : List RunOrigin := runs.rows.map LightToolRun.origin

@[simp] theorem Move.apply_origin (move : Move) (now : Int) (r : LightToolRun) :
    (move.apply now r).origin = r.origin := by
  simp [LightToolRun.origin]

@[simp] theorem Runs.advance_origins (runs : Runs) (move : Move) (now : Int)
    (select : LightToolRun → Bool) : (runs.advance move now select).origins = runs.origins := by
  simp only [Runs.origins, Runs.advance, Table.updateWhere, List.map_map]
  refine List.map_congr_left (fun r _ => ?_)
  simp only [Function.comp_apply]
  split
  · exact move.apply_origin now r
  · rfl

@[simp] theorem Issued.runs_origins (issued : Issued) (runs : Runs) :
    (issued.runs cipher runs).origins = runs.origins := by
  rcases issued.runs_eq cipher runs with ⟨hruns, _⟩ | ⟨sealed, _, hruns, _⟩
  · rw [hruns]
  · rw [hruns, Runs.advance_origins]

/-- The runs a device was given without an account. -/
def trialRuns (deviceId : Int) (origins : List RunOrigin) : Nat :=
  origins.countP (fun o => o.deviceId = deviceId ∧ o.accountUserId = none)

/-- The largest limit a device was given, and at least zero. -/
def largestLimit (deviceId : Int) (limits : List (Int × Int)) : Int :=
  ((limits.filter (fun entry => entry.1 = deviceId)).map Prod.snd).foldr max 0

theorem largestLimit_nonneg (deviceId : Int) (limits : List (Int × Int)) :
    0 ≤ largestLimit deviceId limits := by
  unfold largestLimit
  induction (limits.filter (fun entry => entry.1 = deviceId)).map Prod.snd with
  | nil => exact le_refl 0
  | cons limit rest ih => exact le_max_of_le_right ih

theorem le_largestLimit {deviceId limit : Int} {limits : List (Int × Int)}
    (h : (deviceId, limit) ∈ limits) : limit ≤ largestLimit deviceId limits := by
  refine le_foldr_max (List.mem_map.mpr ⟨(deviceId, limit), ?_, rfl⟩)
  exact List.mem_filter.mpr ⟨h, by simp⟩

theorem largestLimit_append (deviceId : Int) (limits more : List (Int × Int)) :
    largestLimit deviceId limits ≤ largestLimit deviceId (limits ++ more) := by
  unfold largestLimit
  rw [List.filter_append, List.map_append, List.foldr_append]
  generalize (limits.filter (fun entry => entry.1 = deviceId)).map Prod.snd = first
  have hmore : 0 ≤ ((more.filter (fun entry => entry.1 = deviceId)).map Prod.snd).foldr max 0 :=
    largestLimit_nonneg deviceId more
  induction first with
  | nil => exact hmore
  | cons limit rest ih => exact max_le_max (le_refl limit) ih

/-! ## The invariant -/

structure Quota (devices : Devices) (origins : List RunOrigin) (limits : List (Int × Int)) :
    Prop where
  distinct : (origins.map RunOrigin.key).Nodup
  known : ∀ o ∈ origins, ∃ d ∈ devices, d.id = o.deviceId
  used : ∀ d ∈ devices, d.trialMessagesUsed = trialRuns d.id origins
  bounded : ∀ d ∈ devices, d.trialMessagesUsed ≤ largestLimit d.id limits

namespace Quota

variable {devices : Devices} {origins : List RunOrigin} {limits : List (Int × Int)}

theorem limited (h : Quota devices origins limits) (more : List (Int × Int)) :
    Quota devices origins (limits ++ more) where
  distinct := h.distinct
  known := h.known
  used := h.used
  bounded := fun d hd => le_trans (h.bounded d hd) (largestLimit_append d.id limits more)

/-- The account of a device does not matter. -/
theorem linked (h : Quota devices origins limits) (deviceId : Int) (userId : Option Int)
    (now : Int) : Quota (devices.link deviceId userId now) origins limits := by
  have hold : ∀ d' ∈ devices.link deviceId userId now,
      ∃ d ∈ devices, d'.id = d.id ∧ d'.trialMessagesUsed = d.trialMessagesUsed := by
    intro d' hd'
    obtain ⟨d, hd, rfl⟩ := (Table.mem_updateWhere _).mp hd'
    refine ⟨d, hd, ?_⟩
    split
    · exact ⟨rfl, rfl⟩
    · exact ⟨rfl, rfl⟩
  refine ⟨h.distinct, ?_, ?_, ?_⟩
  · intro o ho
    obtain ⟨d, hd, hid⟩ := h.known o ho
    have hkey : (devices.link deviceId userId now).HasKey d.id :=
      Table.hasKey_updateWhere.mpr (Table.hasKey_of_mem hd)
    obtain ⟨d', hd', hid'⟩ := Table.hasKey_iff.mp hkey
    exact ⟨d', hd', hid'.trans hid⟩
  · intro d' hd'
    obtain ⟨d, hd, hid, hused⟩ := hold d' hd'
    rw [hid, hused]
    exact h.used d hd
  · intro d' hd'
    obtain ⟨d, hd, hid, hused⟩ := hold d' hd'
    rw [hid, hused]
    exact h.bounded d hd

/-- A new device has no runs. -/
theorem registered {s : Store} (h : Quota s.devices origins limits) (trialExpiresAt now : Int) :
    Quota (registerDevice trialExpiresAt now s).devices origins limits := by
  have hnew : ∀ d ∈ (registerDevice trialExpiresAt now s).devices, d ∈ s.devices ∨
      (d.id = nextSerial (s.devices.rows.map LightToolDevice.id) ∧ d.trialMessagesUsed = 0) := by
    intro d hd
    rcases Table.mem_insertOrIgnore.mp hd with hd | ⟨_, rfl⟩
    · exact Or.inl hd
    · exact Or.inr ⟨rfl, rfl⟩
  refine ⟨h.distinct, ?_, ?_, ?_⟩
  · intro o ho
    obtain ⟨d, hd, hid⟩ := h.known o ho
    exact ⟨d, Table.mem_insertOrIgnore.mpr (Or.inl hd), hid⟩
  · intro d hd
    rcases hnew d hd with hd | ⟨hid, hused⟩
    · exact h.used d hd
    · have hnone : trialRuns d.id origins = 0 := by
        rw [trialRuns, List.countP_eq_zero]
        intro o ho hmine
        simp only [decide_eq_true_eq] at hmine
        obtain ⟨d', hd', hid'⟩ := h.known o ho
        have hserial := nextSerial_not_mem (s.devices.rows.map LightToolDevice.id)
        exact hserial (List.mem_map.mpr ⟨d', hd', by rw [hid', hmine.1, hid]⟩)
      rw [hused, hnone]
      rfl
  · intro d hd
    rcases hnew d hd with hd | ⟨_, hused⟩
    · exact h.bounded d hd
    · rw [hused]
      exact largestLimit_nonneg d.id limits

/-- A run with a free key; when it has no account, its device pays. -/
theorem inserted (h : Quota devices origins limits) {devices' : Devices} {o : RunOrigin}
    (hfree : o.key ∉ origins.map RunOrigin.key) (hdevice : ∃ d ∈ devices, d.id = o.deviceId)
    (hkept : ∀ d ∈ devices, ∃ d' ∈ devices', d'.id = d.id)
    (hpaid : ∀ d' ∈ devices', ∃ d ∈ devices, d'.id = d.id ∧ d'.trialMessagesUsed =
      d.trialMessagesUsed + if o.deviceId = d.id ∧ o.accountUserId = none then 1 else 0)
    (hbounded : ∀ d' ∈ devices', d'.trialMessagesUsed ≤ largestLimit d'.id limits) :
    Quota devices' (origins ++ [o]) limits := by
  refine ⟨?_, ?_, ?_, hbounded⟩
  · rw [List.map_append, List.nodup_append]
    refine ⟨h.distinct, by simp, ?_⟩
    intro key hkey key' hkey' hsame
    rw [List.map_singleton, List.mem_singleton] at hkey'
    exact hfree (hkey' ▸ hsame ▸ hkey)
  · intro o' ho'
    have hold : ∃ d ∈ devices, d.id = o'.deviceId := by
      rcases List.mem_append.mp ho' with ho' | ho'
      · exact h.known o' ho'
      · rw [List.mem_singleton.mp ho']
        exact hdevice
    obtain ⟨d, hd, hid⟩ := hold
    obtain ⟨d', hd', hid'⟩ := hkept d hd
    exact ⟨d', hd', hid'.trans hid⟩
  · intro d' hd'
    obtain ⟨d, hd, hid, hused⟩ := hpaid d' hd'
    rw [hid, hused, h.used d hd, trialRuns, trialRuns, List.countP_append, List.countP_singleton]
    simp

end Quota

/-! ## Creations -/

theorem insertRun_origins {runs next : Runs} {run : LightToolRun}
    (h : insertRun runs run = .ok next) :
    next.origins = runs.origins ++ [run.origin] ∧
      run.origin.key ∉ runs.origins.map RunOrigin.key := by
  obtain ⟨⟨hfree, rfl⟩, hpair⟩ := insertRun_spec h
  refine ⟨by simp [Runs.origins, Table.insert], ?_⟩
  intro hmem
  simp only [Runs.origins, List.map_map, List.mem_map, Function.comp_apply] at hmem
  obtain ⟨r, hr, hkey⟩ := hmem
  exact hpair r hr (Prod.mk.inj hkey)

theorem NewRun.origin {draft : RunDraft} {accountUserId : Option Int} {request : RunRequest}
    {now : Int} {run : LightToolRun} (h : NewRun cipher draft accountUserId request now run) :
    run.origin = ⟨request.deviceId, request.clientMessageId, accountUserId⟩ := by
  simp [LightToolRun.origin, h.deviceId, h.clientMessageId, h.accountUserId]

theorem trialClaimable_spec {deviceId now messageLimit : Int} {d : LightToolDevice}
    (h : trialClaimable deviceId now messageLimit d = true) :
    d.id = deviceId ∧ d.trialMessagesUsed < messageLimit := by
  simp only [trialClaimable, Bool.decide_and, Bool.and_eq_true, decide_eq_true_eq] at h
  exact ⟨h.1, h.2.2.2.2⟩

theorem Quota.trialCreated {s : Store} {limits : List (Int × Int)} {draft : RunDraft}
    {request : RunRequest} {now messageLimit : Int} {device : LightToolDevice}
    {run : LightToolRun} {runs : Runs} {record : LightToolRunRecord}
    (h : Quota s.devices s.runs.origins limits)
    (hdevice : s.activeDevice request.deviceId = some device)
    (hclaim : trialClaimable request.deviceId now messageLimit device = true)
    (hrun : Inserted cipher draft none request now s run runs record) :
    Quota (s.devices.claimTrialMessage request.deviceId now messageLimit) runs.origins
      (limits ++ [(request.deviceId, messageLimit)]) := by
  obtain ⟨hmem, hid, _⟩ := activeDevice_spec hdevice
  obtain ⟨horigins, hfree⟩ := insertRun_origins hrun.inserted
  have hlimited := h.limited [(request.deviceId, messageLimit)]
  -- the claimed device is the one the run is inserted for
  have hclaimed : ∀ d ∈ s.devices, trialClaimable request.deviceId now messageLimit d = true ↔
      request.deviceId = d.id := by
    intro d hd
    constructor
    · intro hd'
      exact (trialClaimable_spec hd').1.symm
    · intro hsame
      rw [Table.eq_of_key_eq hd hmem (hsame.symm.trans hid.symm)]
      exact hclaim
  rw [horigins]
  refine hlimited.inserted hfree ?_ ?_ ?_ ?_
  · rw [hrun.row.origin]
    exact ⟨device, hmem, hid⟩
  · intro d hd
    have hkey : (s.devices.claimTrialMessage request.deviceId now messageLimit).HasKey d.id :=
      Table.hasKey_updateWhere.mpr (Table.hasKey_of_mem hd)
    exact Table.hasKey_iff.mp hkey
  · intro d' hd'
    obtain ⟨d, hd, rfl⟩ := (Table.mem_updateWhere _).mp hd'
    refine ⟨d, hd, ?_⟩
    have hiff := hclaimed d hd
    rw [hrun.row.origin]
    by_cases hmine : request.deviceId = d.id
    · rw [if_pos (hiff.mpr hmine), if_pos ⟨hmine, rfl⟩]
      exact ⟨rfl, rfl⟩
    · rw [if_neg (fun hd' => hmine (hiff.mp hd')), if_neg (fun hboth => hmine hboth.1)]
      exact ⟨rfl, (Int.add_zero _).symm⟩
  · intro d' hd'
    obtain ⟨d, hd, rfl⟩ := (Table.mem_updateWhere _).mp hd'
    split
    next hd' =>
      obtain ⟨hid', hless⟩ := trialClaimable_spec hd'
      have hlimit : messageLimit ≤ largestLimit request.deviceId
          (limits ++ [(request.deviceId, messageLimit)]) := le_largestLimit (by simp)
      simp only [LightToolDevice.claimMessage]
      rw [hid']
      omega
    · exact hlimited.bounded d hd

theorem Quota.accountCreated {s : Store} {limits : List (Int × Int)} {draft : RunDraft}
    {request : RunRequest} {now accountUser : Int} {device : LightToolDevice}
    {run : LightToolRun} {runs : Runs} {record : LightToolRunRecord}
    (h : Quota s.devices s.runs.origins limits)
    (hdevice : s.activeDevice request.deviceId = some device)
    (hrun : Inserted cipher draft (some accountUser) request now s run runs record) :
    Quota s.devices runs.origins limits := by
  obtain ⟨hmem, hid, _⟩ := activeDevice_spec hdevice
  obtain ⟨horigins, hfree⟩ := insertRun_origins hrun.inserted
  rw [horigins]
  refine h.inserted hfree ?_ (fun d hd => ⟨d, hd, rfl⟩) ?_ h.bounded
  · rw [hrun.row.origin]
    exact ⟨device, hmem, hid⟩
  · intro d hd
    refine ⟨d, hd, rfl, ?_⟩
    rw [hrun.row.origin]
    simp

theorem Quota.trialAnswered {s : Store} {limits : List (Int × Int)}
    (h : Quota s.devices s.runs.origins limits) (draft : RunDraft) (request : RunRequest)
    (now messageLimit : Int) :
    let next := committed
      (createAnonymousTrialRunWithImage cipher draft request now messageLimit s) s
    Quota next.devices next.runs.origins (limits ++ [(request.deviceId, messageLimit)]) := by
  cases hresult : createAnonymousTrialRunWithImage cipher draft request now messageLimit s with
  | error error => exact h.limited _
  | ok result =>
      obtain ⟨answer, next⟩ := result
      cases createAnonymousTrialRunWithImage_spec hresult with
      | unavailable => exact h.limited _
      | conflict => exact h.limited _
      | existing _ => exact h.limited _
      | created hdevice hclaim hrun => exact h.trialCreated hdevice hclaim hrun

theorem Quota.accountAnswered {s : Store} {limits : List (Int × Int)}
    (h : Quota s.devices s.runs.origins limits) (draft : RunDraft) (accountUserId : Int)
    (request : RunRequest) (now : Int) :
    let next := committed
      (createAccountRunWithImage cipher draft accountUserId request now s) s
    Quota next.devices next.runs.origins limits := by
  cases hresult : createAccountRunWithImage cipher draft accountUserId request now s with
  | error error => exact h
  | ok result =>
      obtain ⟨answer, next⟩ := result
      cases createAccountRunWithImage_spec hresult with
      | unavailable => exact h
      | conflict => exact h
      | existing _ => exact h
      | created hdevice _ hrun => exact h.accountCreated hdevice hrun

theorem Quota.upserted {s : Store} {limits : List (Int × Int)}
    (h : Quota s.devices s.runs.origins limits) {userId expiresAt createdAt : Int}
    {tokenHash : String} {next : Store}
    (hupsert : upsertForUser userId tokenHash expiresAt createdAt s = .ok next) :
    Quota next.devices next.runs.origins limits := by
  unfold upsertForUser at hupsert
  split at hupsert
  · cases hupsert
  · cases hupsert
    exact h

theorem Quota.consumed {s : Store} {limits : List (Int × Int)}
    (h : Quota s.devices s.runs.origins limits) (tokenHash : String) (deviceId now : Int) :
    Quota (consume tokenHash deviceId now s).2.devices
      (consume tokenHash deviceId now s).2.runs.origins limits := by
  rw [consume_runs]
  unfold consume
  split
  · exact h
  · split
    · exact h
    · split
      · exact h
      · split
        · split <;> exact h
        · split
          · exact h
          · exact h.linked _ _ _

theorem Quota.disconnected {s : Store} {limits : List (Int × Int)}
    (h : Quota s.devices s.runs.origins limits) (deviceId now : Int) :
    Quota (disconnectDevice deviceId now s).2.devices
      (disconnectDevice deviceId now s).2.runs.origins limits := by
  rw [disconnectDevice_runs]
  unfold disconnectDevice
  split
  · exact h
  · exact h.linked _ _ _

/-! ## Runs of the system -/

def System.Quota (s : System) : Prop :=
  LightTool.Quota s.store.devices s.store.runs.origins s.limits

theorem System.Quota.empty : System.empty.Quota where
  distinct := List.nodup_nil
  known := fun _ ho => absurd ho List.not_mem_nil
  used := fun d hd => absurd hd (Table.not_mem_empty d)
  bounded := fun d hd => absurd hd (Table.not_mem_empty d)

theorem System.Quota.perform {s : System} (h : s.Quota) (issued : Issued) :
    (s.perform cipher issued).Quota := by
  unfold System.Quota System.perform
  rw [Issued.runs_origins]
  exact h

theorem System.Quota.step {s next : System} (h : s.Quota) {action : Action}
    (hstep : step cipher s action = some next) : next.Quota := by
  cases action with
  | registerDevice trialExpiresAt now =>
      cases hstep
      exact h.registered trialExpiresAt now
  | upsertForUser userId tokenHash expiresAt createdAt =>
      cases hstep
      unfold System.Quota
      split
      next store hupsert => exact h.upserted hupsert
      · exact h
  | consume tokenHash deviceId now =>
      cases hstep
      exact h.consumed tokenHash deviceId now
  | disconnectDevice deviceId now =>
      cases hstep
      exact h.disconnected deviceId now
  | createTrial draft request now messageLimit =>
      cases hstep
      exact h.trialAnswered draft request now messageLimit
  | createAccount draft accountUserId request now =>
      cases hstep
      exact h.accountAnswered draft accountUserId request now
  | issue issued =>
      cases hstep
      exact h.perform issued
  | spawn runId =>
      cases hstep
      exact h
  | dispatch index input =>
      rw [step_dispatch] at hstep
      split at hstep
      · cases hstep
      · split at hstep
        · cases hstep
        next taken _ =>
          cases hstep
          have hsame : ∀ dispatchers invocations,
              System.Quota { s with dispatchers, invocations } := fun _ _ => h
          cases hissued : taken.issued with
          | none => exact hsame _ _
          | some issued => exact (hsame _ _).perform issued
  | startSupervisor =>
      cases hstep
      exact h
  | sweep index now nonce answer =>
      rw [step_sweep] at hstep
      split at hstep
      · cases hstep
        have hsame : ∀ supervisors, System.Quota { s with supervisors } := fun _ => h
        exact (hsame _).perform _
      · cases hstep
  | requeue index answer =>
      rw [step_requeue] at hstep
      split at hstep
      · cases hstep
        exact h
      · cases hstep
  | restart =>
      cases hstep
      exact h

theorem run_quota {s : System} {actions : List Action}
    (hrun : Transition.run (step cipher) System.empty actions = some s) : s.Quota :=
  Transition.run_invariant_all (fun _ _ _ h hstep => h.step hstep) System.Quota.empty hrun

/-- The trial answers that create no run. -/
def AnonymousTrialRunCreation.refused : AnonymousTrialRunCreation → Bool
  | .created _ _ => false
  | .existing _ _ => true
  | .trialUnavailable => true
  | .idempotencyConflict => true

def AccountRunCreation.refused : AccountRunCreation → Bool
  | .created _ => false
  | .existing _ => true
  | .accountUnavailable => true
  | .idempotencyConflict => true

theorem trial_refused {draft : RunDraft} {request : RunRequest} {now messageLimit : Int}
    {s s' : Store} {answer : AnonymousTrialRunCreation}
    (h : createAnonymousTrialRunWithImage cipher draft request now messageLimit s =
      .ok (answer, s')) (hrefused : answer.refused = true) : s' = s := by
  cases createAnonymousTrialRunWithImage_spec h with
  | unavailable => rfl
  | conflict => rfl
  | existing _ => rfl
  | created _ _ _ => cases hrefused

theorem account_refused {draft : RunDraft} {accountUserId : Int} {request : RunRequest}
    {now : Int} {s s' : Store} {answer : AccountRunCreation}
    (h : createAccountRunWithImage cipher draft accountUserId request now s = .ok (answer, s'))
    (hrefused : answer.refused = true) : s' = s := by
  cases createAccountRunWithImage_spec h with
  | unavailable => rfl
  | conflict => rfl
  | existing _ => rfl
  | created _ _ _ => cases hrefused

/-- One run for each message of a device, and the quota counts the runs without an account. -/
theorem trial_quota_kept {s : System} {actions : List Action}
    (hrun : Transition.run (step cipher) System.empty actions = some s) :
    (∀ r ∈ s.store.runs, ∀ r' ∈ s.store.runs, r.deviceId = r'.deviceId →
      r.clientMessageId = r'.clientMessageId → r = r') ∧
    (∀ d ∈ s.store.devices, d.trialMessagesUsed =
      (s.store.runs.rows.countP (fun r => r.deviceId = d.id ∧ r.accountUserId = none) : Nat)) ∧
    (∀ d ∈ s.store.devices, d.trialMessagesUsed ≤ largestLimit d.id s.limits) ∧
    (∀ draft request now messageLimit answer next,
      createAnonymousTrialRunWithImage cipher draft request now messageLimit s.store =
        .ok (answer, next) → answer.refused = true → next = s.store) ∧
    (∀ draft accountUserId request now answer next,
      createAccountRunWithImage cipher draft accountUserId request now s.store =
        .ok (answer, next) → answer.refused = true → next = s.store) := by
  have hquota := run_quota hrun
  refine ⟨?_, ?_, hquota.bounded, ?_, ?_⟩
  · intro r hr r' hr' hdevice hmessage
    have hkeys : (s.store.runs.rows.map (RunOrigin.key ∘ LightToolRun.origin)).Nodup := by
      rw [← List.map_map]
      exact hquota.distinct
    exact List.inj_on_of_nodup_map hkeys hr hr' (Prod.ext hdevice hmessage)
  · intro d hd
    rw [hquota.used d hd, trialRuns, Runs.origins, List.countP_map]
    rfl
  · intro draft request now messageLimit answer next h hrefused
    exact trial_refused h hrefused
  · intro draft accountUserId request now answer next h hrefused
    exact account_refused h hrefused

theorem trial_quota_kept_photo_run :
    let s := Transition.final (step markedCipher) System.empty silentPhotoRun
    ∀ d ∈ s.store.devices, d.trialMessagesUsed ≤ largestLimit d.id [(1, 5)] := by
  have hrun := @Transition.run_eq_final _ _ (step markedCipher) System.empty silentPhotoRun
    (by decide +kernel)
  have hlimits : (Transition.final (step markedCipher) System.empty silentPhotoRun).limits =
      [(1, 5)] := by
    decide +kernel
  exact hlimits ▸ (trial_quota_kept hrun).2.2.1

/-- A device registers, and its first message comes with a limit below zero. -/
def negativeLimit : List Action :=
  [.registerDevice 100000 0, .createTrial ⟨"run", 1, 2⟩ ⟨1, "message", "hello", none⟩ 10 (-1)]

/-- The only limit passed is below the number of messages used. -/
theorem used_above_negative_limit :
    let s := Transition.final (step markedCipher) System.empty negativeLimit
    Transition.run (step markedCipher) System.empty negativeLimit = some s ∧
      s.limits = [(1, -1)] ∧
        ∃ d ∈ s.store.devices, d.id = 1 ∧
          ∀ limit ∈ s.limits.map Prod.snd, limit < d.trialMessagesUsed := by
  refine ⟨Transition.run_eq_final (by decide +kernel), by decide +kernel, ?_⟩
  exact ⟨⟨1, none, 100000, 0, none, 0⟩, by decide +kernel, rfl, by decide +kernel⟩

end Lightfriend.LightTool
