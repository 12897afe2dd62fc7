import Lightfriend.Core.Transition
import Lightfriend.LightTool.Dispatch

/-! # The life of a run under any interleaving

The log of the moves and the rows agree: a run has been claimed once when it is no
longer queued, and finished once when it is terminal. A dispatcher asks the
responder only after the one claim of its run.
-/

namespace Lightfriend.LightTool

variable {cipher : TextCipher}

/-! ## What one statement does -/

theorem Issued.runs_eq (cipher : TextCipher) (issued : Issued) (runs : Runs) :
    (issued.runs cipher runs = runs ∧ issued.events cipher runs = []) ∨
    ∃ sealed, cipher.encrypt issued.nonce issued.statement.text = .ok sealed ∧
      issued.runs cipher runs = runs.advance (issued.statement.move sealed) issued.statement.now
        issued.statement.selects ∧
      issued.events cipher runs =
        runs.moved (issued.statement.move sealed) issued.statement.selects := by
  unfold Issued.runs Issued.events Statement.execute
  cases hanswer : issued.answer with
  | refused => exact Or.inl ⟨rfl, rfl⟩
  | done =>
      cases hsealed : cipher.encrypt issued.nonce issued.statement.text with
      | error detail => exact Or.inl ⟨rfl, rfl⟩
      | ok sealed => exact Or.inr ⟨sealed, rfl, rfl, rfl⟩
  | lost =>
      cases hsealed : cipher.encrypt issued.nonce issued.statement.text with
      | error detail => exact Or.inl ⟨rfl, rfl⟩
      | ok sealed => exact Or.inr ⟨sealed, rfl, rfl, rfl⟩

namespace Runs

theorem moved_nodup (runs : Runs) (move : Move) (select : LightToolRun → Bool) :
    (runs.moved move select).Nodup := by
  unfold moved
  split
  · exact List.nodup_nil
  next kind _ =>
    have hids : ((runs.selected move select).map LightToolRun.id).Nodup :=
      runs.unique.sublist (List.filter_sublist.map _)
    have hevents : (runs.selected move select).map (fun r => RunEvent.mk kind r.id) =
        ((runs.selected move select).map LightToolRun.id).map (RunEvent.mk kind) := by
      simp [List.map_map, Function.comp_def]
    rw [hevents]
    exact hids.map (fun a b h => (RunEvent.mk.inj h).2)

theorem mem_moved {runs : Runs} {move : Move} {select : LightToolRun → Bool} {e : RunEvent} :
    e ∈ runs.moved move select ↔
      move.kind = some e.kind ∧ ∃ r ∈ runs.selected move select, r.id = e.runId := by
  unfold moved
  cases hkind : move.kind with
  | none => simp
  | some kind =>
      simp only [List.mem_map, Option.some.injEq]
      constructor
      · rintro ⟨r, hr, rfl⟩
        exact ⟨rfl, r, hr, rfl⟩
      · rintro ⟨rfl, r, hr, hid⟩
        exact ⟨r, hr, by rw [hid]⟩

/-- A statement logs a move of a row once, when it selects the row. -/
theorem count_moved {runs : Runs} {move : Move} {select : LightToolRun → Bool} {r : LightToolRun}
    (hr : r ∈ runs) (kind : RunEventKind) :
    (runs.moved move select).count ⟨kind, r.id⟩ =
      if move.kind = some kind ∧ r ∈ runs.selected move select then 1 else 0 := by
  rw [(runs.moved_nodup move select).count]
  congr 1
  rw [mem_moved, eq_iff_iff]
  constructor
  · rintro ⟨hkind, r', hr', hid⟩
    have hsame := Table.eq_of_key_eq (mem_selected.mp hr').1 hr hid
    exact ⟨hkind, hsame ▸ hr'⟩
  · rintro ⟨hkind, hselected⟩
    exact ⟨hkind, r, hselected, rfl⟩

end Runs

/-! ## The log and the rows -/

/-- The moves of a row that the log holds are those its status tells of. -/
structure Recorded (log : List RunEvent) (r : LightToolRun) : Prop where
  claimed : log.count ⟨.claimed, r.id⟩ = if r.status = .queued then 0 else 1
  completed : log.count ⟨.completed, r.id⟩ = if r.status = .completed then 1 else 0
  failed : log.count ⟨.failed, r.id⟩ + log.count ⟨.interrupted, r.id⟩ =
    if r.status = .failed then 1 else 0

/-- A move in the expected status, and its one event. -/
theorem Recorded.move {log events : List RunEvent} {r : LightToolRun} (h : Recorded log r)
    {move : Move} (now : Int) (hstatus : r.status = move.expected)
    (hevents : ∀ kind, events.count ⟨kind, r.id⟩ = if move.kind = some kind then 1 else 0) :
    Recorded (log ++ events) (move.apply now r) := by
  have hclaimed := h.claimed
  have hcompleted := h.completed
  have hfailed := h.failed
  rw [hstatus] at hclaimed hcompleted hfailed
  constructor
  · rw [Move.apply_id, List.count_append, hclaimed, hevents]
    cases move <;> simp [Move.expected, Move.kind, Move.apply, LightToolRun.failed, hstatus]
  · rw [Move.apply_id, List.count_append, hcompleted, hevents]
    cases move <;> simp [Move.expected, Move.kind, Move.apply, LightToolRun.failed, hstatus]
  · rw [Move.apply_id, List.count_append, List.count_append, hevents, hevents]
    cases move <;> simp [Move.expected, Move.kind, Move.apply, LightToolRun.failed, hstatus] at hfailed ⊢ <;> omega

theorem Recorded.keep {log events : List RunEvent} {r : LightToolRun} (h : Recorded log r)
    (hevents : ∀ kind, events.count ⟨kind, r.id⟩ = 0) : Recorded (log ++ events) r where
  claimed := by rw [List.count_append, hevents, h.claimed, Nat.add_zero]
  completed := by rw [List.count_append, hevents, h.completed, Nat.add_zero]
  failed := by
    rw [List.count_append, List.count_append, hevents, hevents, Nat.add_zero, Nat.add_zero]
    exact h.failed

/-- Rows are well formed, the log tells of them, and it tells of nothing else. -/
structure RunsKept (runs : Runs) (log : List RunEvent) : Prop where
  wellFormed : ∀ r ∈ runs, r.WellFormed
  recorded : ∀ r ∈ runs, Recorded log r
  known : ∀ e ∈ log, ∃ r ∈ runs, r.id = e.runId

theorem RunsKept.issued {runs : Runs} {log : List RunEvent} (h : RunsKept runs log)
    (issued : Issued) :
    RunsKept (issued.runs cipher runs) (log ++ issued.events cipher runs) := by
  rcases issued.runs_eq cipher runs with ⟨hruns, hevents⟩ | ⟨sealed, _, hruns, hevents⟩
  · rw [hruns, hevents, List.append_nil]
    exact h
  · rw [hruns, hevents]
    constructor
    · intro r' hr'
      obtain ⟨r, hr, ⟨_, rfl⟩ | ⟨hselected, rfl⟩⟩ := Runs.mem_advance hr'
      · exact h.wellFormed r' hr
      · exact Move.apply_wellFormed _ _ (Runs.mem_selected.mp hselected).2.2 (h.wellFormed r hr)
    · intro r' hr'
      obtain ⟨r, hr, ⟨hout, rfl⟩ | ⟨hselected, rfl⟩⟩ := Runs.mem_advance hr'
      · refine (h.recorded r' hr).keep (fun kind => ?_)
        rw [Runs.count_moved hr, if_neg (fun hin => hout hin.2)]
      · refine (h.recorded r hr).move _ (Runs.mem_selected.mp hselected).2.2 (fun kind => ?_)
        rw [Runs.count_moved hr]
        simp [hselected]
    · intro e he
      have hold : ∃ r ∈ runs, r.id = e.runId := by
        rcases List.mem_append.mp he with he | he
        · exact h.known e he
        · obtain ⟨_, r, hselected, hid⟩ := Runs.mem_moved.1 he
          exact ⟨r, (Runs.mem_selected.mp hselected).1, hid⟩
      obtain ⟨r, hr, hid⟩ := hold
      obtain ⟨r', hr', hsteps⟩ := Runs.exists_advance (issued.statement.move sealed)
        issued.statement.now issued.statement.selects hr
      exact ⟨r', hr', hsteps.evolves.id.trans hid⟩

/-- A new row: nothing is logged of it yet. -/
theorem RunsKept.inserted {runs next : Runs} {log : List RunEvent} (h : RunsKept runs log)
    {draft : RunDraft} {accountUserId : Option Int} {request : RunRequest} {now : Int}
    {run : LightToolRun} (hrun : NewRun cipher draft accountUserId request now run)
    (hinsert : insertRun runs run = .ok next) : RunsKept next log := by
  obtain ⟨⟨hfree, rfl⟩, _⟩ := insertRun_spec hinsert
  have hsilent : ∀ kind, log.count ⟨kind, run.id⟩ = 0 := by
    intro kind
    rw [List.count_eq_zero]
    intro he
    obtain ⟨r, hr, hid⟩ := h.known _ he
    exact hfree (Table.hasKey_iff.mpr ⟨r, hr, hid⟩)
  constructor
  · intro r hr
    rcases Table.mem_insert.mp hr with hr | rfl
    · exact h.wellFormed r hr
    · exact hrun.wellFormed
  · intro r hr
    rcases Table.mem_insert.mp hr with hr | rfl
    · exact h.recorded r hr
    · constructor <;> simp [hsilent, hrun.queued]
  · intro e he
    obtain ⟨r, hr, hid⟩ := h.known e he
    exact ⟨r, Table.mem_insert.mpr (Or.inl hr), hid⟩

/-- How a transaction leaves the runs: as they were, or with one new row. -/
inductive Created (cipher : TextCipher) (runs next : Runs) : Prop
  | same (h : next = runs)
  | inserted {draft : RunDraft} {accountUserId : Option Int} {request : RunRequest} {now : Int}
      {run : LightToolRun} (hrun : NewRun cipher draft accountUserId request now run)
      (hinsert : insertRun runs run = .ok next)

theorem createTrial_created (cipher : TextCipher) (draft : RunDraft) (request : RunRequest)
    (now messageLimit : Int) (s : Store) :
    Created cipher s.runs (committed
      (createAnonymousTrialRunWithImage cipher draft request now messageLimit s) s).runs := by
  cases h : createAnonymousTrialRunWithImage cipher draft request now messageLimit s with
  | error error => exact .same rfl
  | ok result =>
      obtain ⟨answer, next⟩ := result
      cases createAnonymousTrialRunWithImage_spec h with
      | unavailable => exact .same rfl
      | conflict => exact .same rfl
      | existing _ => exact .same rfl
      | created _ _ hrun => exact .inserted hrun.row hrun.inserted

theorem createAccount_created (cipher : TextCipher) (draft : RunDraft) (accountUserId : Int)
    (request : RunRequest) (now : Int) (s : Store) :
    Created cipher s.runs (committed
      (createAccountRunWithImage cipher draft accountUserId request now s) s).runs := by
  cases h : createAccountRunWithImage cipher draft accountUserId request now s with
  | error error => exact .same rfl
  | ok result =>
      obtain ⟨answer, next⟩ := result
      cases createAccountRunWithImage_spec h with
      | unavailable => exact .same rfl
      | conflict => exact .same rfl
      | existing _ => exact .same rfl
      | created _ _ hrun => exact .inserted hrun.row hrun.inserted

theorem Created.kept {runs next : Runs} {log : List RunEvent} (h : Created cipher runs next)
    (hkept : RunsKept runs log) : RunsKept next log := by
  cases h with
  | same hsame => exact hsame ▸ hkept
  | inserted hrun hinsert => exact hkept.inserted hrun hinsert

theorem Created.keepsRows {runs next : Runs} (h : Created cipher runs next) {r : LightToolRun}
    (hr : r ∈ runs) : r ∈ next := by
  cases h with
  | same hsame => exact hsame ▸ hr
  | inserted hrun hinsert =>
      obtain ⟨⟨hfree, rfl⟩, _⟩ := insertRun_spec hinsert
      exact Table.mem_insert.mpr (Or.inl hr)

theorem upsertForUser_runs {userId expiresAt createdAt : Int} {tokenHash : String}
    {s s' : Store} (h : upsertForUser userId tokenHash expiresAt createdAt s = .ok s') :
    s'.runs = s.runs := by
  unfold upsertForUser at h
  split at h
  · cases h
  · cases h
    rfl

theorem consume_runs (tokenHash : String) (deviceId now : Int) (s : Store) :
    (consume tokenHash deviceId now s).2.runs = s.runs := by
  unfold consume
  split
  · rfl
  · split
    · rfl
    · split
      · rfl
      · split
        · split <;> rfl
        · split <;> rfl

theorem disconnectDevice_runs (deviceId now : Int) (s : Store) :
    (disconnectDevice deviceId now s).2.runs = s.runs := by
  unfold disconnectDevice
  split <;> rfl

/-! ## Executions of the agent -/

def DispatchPhase.isClaimed : DispatchPhase → Bool
  | .claimed _ => true
  | _ => false

/-- The dispatcher has claimed its run and has not asked the responder yet. -/
def Dispatcher.holds (id : String) (d : Dispatcher) : Bool := d.runId = id && d.phase.isClaimed

def DispatchStep.events (cipher : TextCipher) (taken : DispatchStep) (runs : Runs) :
    List RunEvent :=
  match taken.issued with
  | none => []
  | some issued => issued.events cipher runs

theorem returnedRun_eq_some {rows : Except RepositoryError (List LightToolRun)}
    {record : LightToolRunRecord} (h : returnedRun cipher rows = .ok (some record)) :
    ∃ run rest, rows = .ok (run :: rest) := by
  cases rows with
  | error error => cases h
  | ok rows =>
      cases rows with
      | nil => cases h
      | cons run rest => exact ⟨run, rest, rfl⟩

/-- A claim that returns a run has moved the row of that run. -/
theorem claim_logged {runId activityText : String} {now : Int} {nonce : Nat} {answer : DbAnswer}
    {runs : Runs} {record : LightToolRunRecord}
    (h : (Issued.mk (.claimQueuedRun runId activityText now) nonce answer).result cipher runs =
      .ok (some record)) :
    ((Issued.mk (.claimQueuedRun runId activityText now) nonce answer).events cipher runs).count
      ⟨.claimed, runId⟩ = 1 := by
  cases answer with
  | refused => cases h
  | lost => cases h
  | done =>
      obtain ⟨run, rest, hrows⟩ := @returnedRun_eq_some cipher _ _ h
      unfold Statement.execute at hrows
      cases hsealed : cipher.encrypt nonce activityText with
      | error detail =>
          simp only [Statement.text, hsealed] at hrows
          cases hrows
      | ok sealed =>
          simp only [Statement.text, hsealed] at hrows
          have hsome : ∃ r, r ∈ runs.selected (.claim sealed)
              (Statement.claimQueuedRun runId activityText now).selects := by
            by_contra hnone
            have hempty : runs.selected (.claim sealed)
                (Statement.claimQueuedRun runId activityText now).selects = [] :=
              List.eq_nil_iff_forall_not_mem.mpr (fun r hr => hnone ⟨r, hr⟩)
            simp only [Statement.move, hempty, List.map_nil] at hrows
            cases hrows
          obtain ⟨r, hr⟩ := hsome
          obtain ⟨hmem, hid, _⟩ := Runs.mem_selected.mp hr
          have hrun : r.id = runId := of_decide_eq_true hid
          have hcount := @Runs.count_moved runs (.claim sealed)
            (Statement.claimQueuedRun runId activityText now).selects r hmem .claimed
          rw [if_pos ⟨rfl, hr⟩, hrun] at hcount
          simpa only [Issued.events, Statement.text, hsealed, Statement.move] using hcount

/-- The phase after an attempt is one its caller named, or the end. -/
theorem attempt_phase {runs : Runs} {prepared : Except ExecutionError Statement} {nonce : Nat}
    {answer : DbAnswer} {found : LightToolRunRecord → DispatchPhase} {missing : DispatchPhase}
    {invalid : ExecutionError → DispatchPhase} (hfound : ∀ run, (found run).isClaimed = false)
    (hmissing : missing.isClaimed = false) (hinvalid : ∀ error, (invalid error).isClaimed = false) :
    (attempt cipher runs prepared nonce answer found missing invalid).phase.isClaimed = false := by
  cases prepared with
  | error error => exact hinvalid error
  | ok statement =>
      simp only [attempt]
      split
      · exact hfound _
      · exact hmissing
      · rfl

theorem attempt_invocation {runs : Runs} {prepared : Except ExecutionError Statement} {nonce : Nat}
    {answer : DbAnswer} {found : LightToolRunRecord → DispatchPhase} {missing : DispatchPhase}
    {invalid : ExecutionError → DispatchPhase} :
    (attempt cipher runs prepared nonce answer found missing invalid).invocation = none := by
  cases prepared <;> rfl

theorem claim_initialActivity (runId : String) (now : Int) :
    claim runId initialActivity now = .ok (.claimQueuedRun runId initialActivity now) := by
  have htext : normalizeText initialActivity "activity_text" maxRunActivityCharacters =
      .ok initialActivity := by rfl
  rw [claim, htext]
  rfl

theorem attempt_claimed {runs : Runs} {statement : Statement} {nonce : Nat} {answer : DbAnswer}
    (h : (attempt cipher runs (.ok statement) nonce answer .claimed (.done (.ok .notClaimed))
      (fun error => .done (.error error))).phase.isClaimed = true) :
    ∃ record, (Issued.mk statement nonce answer).result cipher runs = .ok (some record) := by
  simp only [attempt] at h
  split at h
  next record hresult => exact ⟨record, hresult⟩
  · cases h
  · cases h

/-- One step of a dispatcher: the responder is asked by a holder only, which then holds no
longer, and a new holder has claimed its run in this step. -/
theorem dispatchStep_executions {runs : Runs} {d : Dispatcher} {input : DispatchInput}
    {taken : DispatchStep} (h : dispatchStep cipher runs d input = some taken) (id : String) :
    taken.invocation.toList.countP (fun i => i.runId = id) +
        (if Dispatcher.holds id ⟨d.runId, taken.phase⟩ then 1 else 0) ≤
      (if d.holds id then 1 else 0) + (taken.events cipher runs).count ⟨.claimed, id⟩ := by
  have hquiet : taken.invocation = none → taken.phase.isClaimed = false →
      taken.invocation.toList.countP (fun i => i.runId = id) +
        (if Dispatcher.holds id ⟨d.runId, taken.phase⟩ then 1 else 0) ≤
      (if d.holds id then 1 else 0) + (taken.events cipher runs).count ⟨.claimed, id⟩ := by
    intro hnone hfree
    rw [hnone]
    simp [Dispatcher.holds, hfree]
  unfold dispatchStep at h
  split at h
  next now nonce answer hphase =>
    -- the claim
    simp only [Option.some.injEq] at h
    subst h
    rw [attempt_invocation]
    by_cases hheld : Dispatcher.holds id ⟨d.runId, (attempt cipher runs
        (claim d.runId initialActivity now) nonce answer .claimed (.done (.ok .notClaimed))
        (fun error => .done (.error error))).phase⟩ = true
    · obtain ⟨hid, hclaimed⟩ := Bool.and_eq_true_iff.mp hheld
      rw [claim_initialActivity] at hclaimed ⊢
      obtain ⟨record, hresult⟩ := attempt_claimed hclaimed
      have hlogged := claim_logged hresult
      rw [of_decide_eq_true hid] at hlogged ⊢
      simp only [DispatchStep.events, attempt, hlogged, Option.toList_none, List.countP_nil,
        Nat.zero_add]
      have hone : ∀ held : Bool, (if held = true then 1 else 0) ≤ 1 := by decide
      exact le_trans (hone _) (Nat.le_add_left 1 _)
    · simp [hheld]
  next run answer hphase =>
    split at h
    · cases h
      exact hquiet rfl rfl
    · cases h
      simp [Dispatcher.holds, DispatchPhase.isClaimed, hphase]
  · cases h
    exact hquiet attempt_invocation (attempt_phase (fun _ => rfl) rfl (fun _ => rfl))
  · cases h
    exact hquiet rfl rfl
  · cases h
    exact hquiet attempt_invocation (attempt_phase (fun _ => rfl) rfl (fun _ => rfl))
  · cases h
    exact hquiet attempt_invocation (attempt_phase (fun _ => rfl) rfl (fun _ => rfl))
  · cases h
    exact hquiet attempt_invocation (attempt_phase (fun _ => rfl) rfl (fun _ => rfl))
  · cases h

/-! ## Runs of the system -/

/-- What holds in every reachable state. -/
structure Kept (s : System) : Prop where
  runs : RunsKept s.store.runs s.log
  executions : ∀ id, s.invocations.countP (fun i => i.runId = id) +
    s.dispatchers.countP (Dispatcher.holds id) ≤ s.log.count ⟨.claimed, id⟩

theorem Kept.empty : Kept System.empty where
  runs :=
    { wellFormed := fun r hr => absurd hr (Table.not_mem_empty r)
      recorded := fun r hr => absurd hr (Table.not_mem_empty r)
      known := fun _ he => absurd he List.not_mem_nil }
  executions := fun _ => le_refl 0

theorem Kept.of_runs {s next : System} (h : Kept s) (hruns : RunsKept next.store.runs next.log)
    (hlog : next.log = s.log) (hinvocations : next.invocations = s.invocations)
    (hdispatchers : ∀ id, next.dispatchers.countP (Dispatcher.holds id) ≤
      s.dispatchers.countP (Dispatcher.holds id)) : Kept next where
  runs := hruns
  executions := by
    intro id
    rw [hinvocations, hlog]
    have hold := h.executions id
    have hless := hdispatchers id
    omega

/-- New dispatchers have claimed nothing. -/
theorem countP_holds_spawned (queued : List (String × Int)) (id : String) :
    (spawnQueued queued).countP (Dispatcher.holds id) = 0 := by
  rw [List.countP_eq_zero]
  intro d hd
  obtain ⟨entry, _, rfl⟩ := List.mem_map.mp hd
  simp [Dispatcher.holds, DispatchPhase.isClaimed]

theorem Kept.perform {s : System} (h : Kept s) (issued : Issued) :
    Kept (s.perform cipher issued) where
  runs := h.runs.issued issued
  executions := by
    intro id
    simp only [System.perform, List.count_append]
    exact le_trans (h.executions id) (Nat.le_add_right _ _)

theorem Kept.dispatch {s : System} (h : Kept s) {index : Nat} {d : Dispatcher}
    (hd : s.dispatchers[index]? = some d) {input : DispatchInput} {taken : DispatchStep}
    (htaken : dispatchStep cipher s.store.runs d input = some taken) :
    Kept (System.performAll cipher taken.issued
      { s with
        dispatchers := s.dispatchers.set index ⟨d.runId, taken.phase⟩
        invocations := s.invocations ++ taken.invocation.toList }) := by
  obtain ⟨hindex, hget⟩ := List.getElem?_eq_some_iff.mp hd
  have hexecutions : ∀ id, (s.invocations ++ taken.invocation.toList).countP (fun i => i.runId = id) +
      (s.dispatchers.set index ⟨d.runId, taken.phase⟩).countP (Dispatcher.holds id) ≤
        (s.log ++ taken.events cipher s.store.runs).count ⟨.claimed, id⟩ := by
    intro id
    have hstep := dispatchStep_executions htaken id
    have hold := h.executions id
    have hheld : (if d.holds id then 1 else 0) ≤ s.dispatchers.countP (Dispatcher.holds id) := by
      split
      next hholds =>
        exact List.countP_pos_iff.mpr ⟨d, List.mem_of_getElem? hd, hholds⟩
      · exact Nat.zero_le _
    rw [List.countP_append, List.count_append, List.countP_set hindex, hget]
    omega
  cases hissued : taken.issued with
  | none =>
      simp only [DispatchStep.events, hissued, List.append_nil] at hexecutions
      exact ⟨h.runs, hexecutions⟩
  | some issued =>
      simp only [DispatchStep.events, hissued] at hexecutions
      exact ⟨h.runs.issued issued, hexecutions⟩

theorem Kept.step {s next : System} (h : Kept s) {action : Action}
    (hstep : step cipher s action = some next) : Kept next := by
  cases action with
  | registerDevice trialExpiresAt now =>
      cases hstep
      exact h.of_runs h.runs rfl rfl (fun _ => le_refl _)
  | upsertForUser userId tokenHash expiresAt createdAt =>
      cases hstep
      refine h.of_runs ?_ rfl rfl (fun _ => le_refl _)
      split
      next store hupsert =>
        rw [upsertForUser_runs hupsert]
        exact h.runs
      · exact h.runs
  | consume tokenHash deviceId now =>
      cases hstep
      refine h.of_runs ?_ rfl rfl (fun _ => le_refl _)
      rw [consume_runs]
      exact h.runs
  | disconnectDevice deviceId now =>
      cases hstep
      refine h.of_runs ?_ rfl rfl (fun _ => le_refl _)
      rw [disconnectDevice_runs]
      exact h.runs
  | createTrial draft request now messageLimit =>
      cases hstep
      exact h.of_runs ((createTrial_created _ _ _ _ _ _).kept h.runs) rfl rfl (fun _ => le_refl _)
  | createAccount draft accountUserId request now =>
      cases hstep
      exact h.of_runs ((createAccount_created _ _ _ _ _ _).kept h.runs) rfl rfl
        (fun _ => le_refl _)
  | issue issued =>
      cases hstep
      exact h.perform issued
  | spawn runId =>
      cases hstep
      refine h.of_runs h.runs rfl rfl (fun id => ?_)
      simp [Dispatcher.holds, DispatchPhase.isClaimed]
  | dispatch index input =>
      rw [step_dispatch] at hstep
      split at hstep
      · cases hstep
      next d hd =>
        split at hstep
        · cases hstep
        next taken htaken =>
          cases hstep
          exact h.dispatch hd htaken
  | startSupervisor =>
      cases hstep
      exact h.of_runs h.runs rfl rfl (fun _ => le_refl _)
  | sweep index now nonce answer =>
      rw [step_sweep] at hstep
      split at hstep
      · cases hstep
        have hsame : ∀ supervisors, Kept { s with supervisors } :=
          fun supervisors => h.of_runs h.runs rfl rfl (fun _ => le_refl _)
        exact (hsame _).perform _
      · cases hstep
  | requeue index answer =>
      rw [step_requeue] at hstep
      split at hstep
      · cases hstep
        refine h.of_runs h.runs rfl rfl (fun id => ?_)
        rw [List.countP_append]
        unfold requeued
        split
        · rw [countP_holds_spawned, Nat.add_zero]
        · simp
      · cases hstep
  | restart =>
      cases hstep
      refine h.of_runs h.runs rfl rfl (fun id => ?_)
      simp

/-- No step of the system removes a row, and each moves it by at most one statement. -/
theorem step_rows {s next : System} {action : Action} (hstep : step cipher s action = some next)
    {r : LightToolRun} (hr : r ∈ s.store.runs) : ∃ r' ∈ next.store.runs, r.Steps r' := by
  have hperform : ∀ (issued : Issued), ∃ r' ∈ issued.runs cipher s.store.runs, r.Steps r' := by
    intro issued
    rcases issued.runs_eq cipher s.store.runs with ⟨hruns, _⟩ | ⟨_, _, hruns, _⟩
    · rw [hruns]
      exact ⟨r, hr, .stay⟩
    · rw [hruns]
      exact Runs.exists_advance _ _ _ hr
  cases action with
  | registerDevice trialExpiresAt now =>
      cases hstep
      exact ⟨r, hr, .stay⟩
  | upsertForUser userId tokenHash expiresAt createdAt =>
      cases hstep
      refine ⟨r, ?_, .stay⟩
      split
      next store hupsert =>
        rw [upsertForUser_runs hupsert]
        exact hr
      · exact hr
  | consume tokenHash deviceId now =>
      cases hstep
      refine ⟨r, ?_, .stay⟩
      rw [consume_runs]
      exact hr
  | disconnectDevice deviceId now =>
      cases hstep
      refine ⟨r, ?_, .stay⟩
      rw [disconnectDevice_runs]
      exact hr
  | createTrial draft request now messageLimit =>
      cases hstep
      exact ⟨r, (createTrial_created _ _ _ _ _ _).keepsRows hr, .stay⟩
  | createAccount draft accountUserId request now =>
      cases hstep
      exact ⟨r, (createAccount_created _ _ _ _ _ _).keepsRows hr, .stay⟩
  | issue issued =>
      cases hstep
      exact hperform issued
  | spawn runId =>
      cases hstep
      exact ⟨r, hr, .stay⟩
  | dispatch index input =>
      rw [step_dispatch] at hstep
      split at hstep
      · cases hstep
      · split at hstep
        · cases hstep
        next taken _ =>
          cases hstep
          cases hissued : taken.issued with
          | none => exact ⟨r, hr, .stay⟩
          | some issued => exact hperform issued
  | startSupervisor =>
      cases hstep
      exact ⟨r, hr, .stay⟩
  | sweep index now nonce answer =>
      rw [step_sweep] at hstep
      split at hstep
      · cases hstep
        exact hperform _
      · cases hstep
  | requeue index answer =>
      rw [step_requeue] at hstep
      split at hstep
      · cases hstep
        exact ⟨r, hr, .stay⟩
      · cases hstep
  | restart =>
      cases hstep
      exact ⟨r, hr, .stay⟩

/-- Every row of a state lives on in the later ones. -/
theorem run_rows {s t : System} {actions : List Action}
    (hrun : Transition.run (step cipher) s actions = some t) {r : LightToolRun}
    (hr : r ∈ s.store.runs) : ∃ r' ∈ t.store.runs, r.Evolves r' := by
  induction actions generalizing s r with
  | nil =>
      simp only [Transition.run_nil, Option.some.injEq] at hrun
      exact ⟨r, hrun ▸ hr, .refl r⟩
  | cons action rest ih =>
      obtain ⟨next, hstep, htail⟩ := Transition.run_cons_spec hrun
      obtain ⟨middle, hmiddle, hsteps⟩ := step_rows hstep hr
      obtain ⟨r', hr', hevolves⟩ := ih htail hmiddle
      exact ⟨r', hr', hsteps.evolves.trans hevolves⟩

theorem run_kept {s : System} {actions : List Action}
    (hrun : Transition.run (step cipher) System.empty actions = some s) : Kept s :=
  Transition.run_invariant_all (fun _ _ _ h hstep => h.step hstep) Kept.empty hrun

theorem step_log {s next : System} {action : Action} (hstep : step cipher s action = some next) :
    ∃ events, next.log = s.log ++ events := by
  cases action with
  | dispatch index input =>
      rw [step_dispatch] at hstep
      split at hstep
      · cases hstep
      · split at hstep
        · cases hstep
        next taken _ =>
          cases hstep
          cases hissued : taken.issued with
          | none => exact ⟨[], (List.append_nil _).symm⟩
          | some issued => exact ⟨_, rfl⟩
  | issue issued =>
      cases hstep
      exact ⟨_, rfl⟩
  | sweep index now nonce answer =>
      rw [step_sweep] at hstep
      split at hstep
      · cases hstep
        exact ⟨_, rfl⟩
      · cases hstep
  | requeue index answer =>
      rw [step_requeue] at hstep
      split at hstep
      · cases hstep
        exact ⟨[], (List.append_nil _).symm⟩
      · cases hstep
  | registerDevice | upsertForUser | consume | disconnectDevice | createTrial | createAccount
  | spawn | startSupervisor | restart =>
      cases hstep
      exact ⟨[], (List.append_nil _).symm⟩

theorem run_log {s t : System} {actions : List Action}
    (hrun : Transition.run (step cipher) s actions = some t) : ∀ e ∈ s.log, e ∈ t.log := by
  induction actions generalizing s with
  | nil =>
      simp only [Transition.run_nil, Option.some.injEq] at hrun
      subst hrun
      exact fun e he => he
  | cons action rest ih =>
      obtain ⟨next, hstep, htail⟩ := Transition.run_cons_spec hrun
      obtain ⟨events, hlog⟩ := step_log hstep
      exact fun e he => ih htail e (hlog ▸ List.mem_append_left events he)

theorem Recorded.claimed_le_one {log : List RunEvent} {r : LightToolRun} (h : Recorded log r) :
    log.count ⟨.claimed, r.id⟩ ≤ 1 := by
  rw [h.claimed]
  split <;> omega

/-- A run is claimed at most once. -/
theorem Kept.claimed_le_one {s : System} (h : Kept s) (id : String) :
    s.log.count ⟨.claimed, id⟩ ≤ 1 := by
  by_cases hmem : (⟨.claimed, id⟩ : RunEvent) ∈ s.log
  · obtain ⟨r, hr, rfl⟩ := h.runs.known _ hmem
    exact (h.runs.recorded r hr).claimed_le_one
  · rw [List.count_eq_zero.mpr hmem]
    exact Nat.zero_le 1

/-- An interrupted run is failed, and its worker stored nothing. -/
theorem Kept.interrupted {s : System} (h : Kept s) {id : String}
    (hmem : (⟨.interrupted, id⟩ : RunEvent) ∈ s.log) :
    (∃ r ∈ s.store.runs, r.id = id ∧ r.status = .failed) ∧
      (⟨.completed, id⟩ : RunEvent) ∉ s.log ∧ (⟨.failed, id⟩ : RunEvent) ∉ s.log := by
  obtain ⟨r, hr, rfl⟩ := h.runs.known _ hmem
  have hrecorded := h.runs.recorded r hr
  have hpos : 0 < s.log.count ⟨.interrupted, r.id⟩ := List.count_pos_iff.mpr hmem
  have hstatus : r.status = .failed := by
    by_contra hnot
    have hnone := hrecorded.failed
    rw [if_neg hnot] at hnone
    omega
  have hfailed := hrecorded.failed
  have hcompleted := hrecorded.completed
  rw [if_pos hstatus] at hfailed
  rw [hstatus, if_neg (by decide)] at hcompleted
  exact ⟨⟨r, hr, rfl, hstatus⟩, List.count_eq_zero.mp hcompleted,
    List.count_eq_zero.mp (by omega)⟩

/-- The life of every run, under any interleaving of creations, dispatchers and supervisors. -/
theorem run_lifecycle {before later : List Action} {s t : System}
    (hs : Transition.run (step cipher) System.empty before = some s)
    (ht : Transition.run (step cipher) s later = some t) :
    (∀ r ∈ t.store.runs, r.WellFormed) ∧
    (∀ action next, step cipher t action = some next → ∀ r ∈ t.store.runs,
      ∃ r' ∈ next.store.runs, r'.id = r.id ∧
        (r'.status = r.status ∨ r.status.Edge r'.status)) ∧
    (∀ r ∈ s.store.runs, ∃ r' ∈ t.store.runs, r'.id = r.id ∧ r.status.Moves r'.status ∧
      (r.status.Terminal → r' = r)) ∧
    (∀ id, t.log.count ⟨.claimed, id⟩ ≤ 1 ∧
      t.invocations.countP (fun i => i.runId = id) ≤ 1) ∧
    (∀ id, (⟨.interrupted, id⟩ : RunEvent) ∈ s.log →
      (∃ r ∈ s.store.runs, r.id = id ∧ r.status = .failed ∧ r ∈ t.store.runs) ∧
        (⟨.completed, id⟩ : RunEvent) ∉ t.log ∧ (⟨.failed, id⟩ : RunEvent) ∉ t.log) := by
  have hkept : Kept t :=
    Transition.run_invariant_all (fun _ _ _ h hstep => h.step hstep) (run_kept hs) ht
  refine ⟨hkept.runs.wellFormed, ?_, ?_, ?_, ?_⟩
  · intro action next hstep r hr
    obtain ⟨r', hr', hsteps⟩ := step_rows hstep hr
    exact ⟨r', hr', hsteps.evolves.id, hsteps.status⟩
  · intro r hr
    obtain ⟨r', hr', hevolves⟩ := run_rows ht hr
    exact ⟨r', hr', hevolves.id, hevolves.status, hevolves.final⟩
  · intro id
    have hclaimed := hkept.claimed_le_one id
    have hexecuted := hkept.executions id
    exact ⟨hclaimed, by omega⟩
  · intro id hinterrupted
    obtain ⟨⟨r, hr, hid, hstatus⟩, _⟩ := (run_kept hs).interrupted hinterrupted
    obtain ⟨r', hr', hevolves⟩ := run_rows ht hr
    have hsame := hevolves.final (Or.inr hstatus)
    exact ⟨⟨r, hr, hid, hstatus, hsame ▸ hr'⟩, (hkept.interrupted (run_log ht _ hinterrupted)).2⟩

/-- A cipher that puts as many marks as its nonce says before the text. -/
def markedCipher : TextCipher where
  encrypt nonce text := .ok (String.ofList (List.replicate nonce '*' ++ '.' :: text.toList))
  decrypt sealed := .ok (String.ofList ((sealed.toList.dropWhile (fun c => c = '*')).drop 1))

theorem markedCipher_roundTrips : markedCipher.RoundTrips := by
  intro nonce text sealed h
  cases h
  simp [markedCipher]

/-- A photo message of an unlinked device, claimed by a dispatcher. -/
def claimedPhotoRun : List Action :=
  [.registerDevice 100000 0,
    .createTrial ⟨"run", 1, 2⟩ ⟨1, "message", "what is this?", some "data:photo"⟩ 10 5,
    .spawn "run",
    .dispatch 0 (.statement 20 3 .done),
    .dispatch 0 (.history .done)]

/-- The worker is silent for too long, and a supervisor fails its run. -/
def silentPhotoRun : List Action :=
  claimedPhotoRun ++
    [.startSupervisor,
      .sweep 0 1000 4 .done,
      .requeue 0 .done]

/-- The reply of the silent worker. -/
def latePhotoReply : List Action :=
  [.dispatch 0 (.response (.ok "a cat")),
    .dispatch 0 (.statement 1010 5 .done)]

theorem run_lifecycle_late_reply :
    let s := Transition.final (step markedCipher) System.empty silentPhotoRun
    let t := Transition.final (step markedCipher) s latePhotoReply
    (⟨.interrupted, "run"⟩ : RunEvent) ∈ s.log ∧
      (⟨.completed, "run"⟩ : RunEvent) ∉ t.log ∧
      t.invocations.countP (fun i => i.runId = "run") ≤ 1 := by
  have hruns : (Transition.run (step markedCipher) System.empty silentPhotoRun).isSome = true ∧
      (Transition.run (step markedCipher)
        (Transition.final (step markedCipher) System.empty silentPhotoRun)
        latePhotoReply).isSome = true ∧
      (⟨.interrupted, "run"⟩ : RunEvent) ∈
        (Transition.final (step markedCipher) System.empty silentPhotoRun).log := by
    decide +kernel
  obtain ⟨hearly, hlate, hmem⟩ := hruns
  obtain ⟨_, _, _, hcounts, hinterrupted⟩ :=
    run_lifecycle (Transition.run_eq_final hearly) (Transition.run_eq_final hlate)
  exact ⟨hmem, (hinterrupted "run" hmem).2.1, (hcounts "run").2⟩

end Lightfriend.LightTool
