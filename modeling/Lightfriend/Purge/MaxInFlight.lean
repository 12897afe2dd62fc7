import Lightfriend.Purge.Slot

/-! # The bound on submitted purges

A cycle counts the submitted rows of both queues once and spends the difference
to `purge_max_in_flight` in its two submission loops. What a stage may still
submit is its `slotsLeft`; no step raises the submitted rows by more than it
lowers them, except the count itself.
-/

namespace Lightfriend.Purge

/-! ## What a stage may still submit -/

/-- The submissions a cycle may still record from this stage on. -/
def Stage.slotsLeft : Stage → Nat
  | listDue slots => slots
  | listDueRooms slots due => slots + due.length
  | submit due dueRooms => due.length + dueRooms.length
  | prepare _ _ due dueRooms => 1 + (due.length + dueRooms.length)
  | send _ _ _ due dueRooms => 1 + (due.length + dueRooms.length)
  | probe _ _ due dueRooms => 1 + (due.length + dueRooms.length)
  | sendRoom _ _ dueRooms => 1 + dueRooms.length
  | settle _ due dueRooms => 1 + (due.length + dueRooms.length)
  | _ => 0

/-- The event a statement submits, if it submits one. -/
def EventStatement.submittedIds : EventStatement → List String
  | submitted _ eventId _ => [eventId]
  | _ => []

def RoomStatement.submittedIds : RoomStatement → List Int
  | submitted _ id _ _ _ => [id]
  | _ => []

/-- The rows a step may submit. -/
def Plan.submissions (p : Plan) : Nat := p.events.submittedIds.length + p.rooms.submittedIds.length

/-! ## Counting the submitted rows -/

theorem EventStatement.countSubmitted_apply_le (store : OntologyStore) (t : EventTable)
    (stmt : EventStatement) :
    (stmt.apply store t).countWhere (fun r => r.status = .purgeSubmitted) ≤
      t.countWhere (fun r => r.status = .purgeSubmitted) + stmt.submittedIds.length := by
  apply Table.countWhere_le
  intro r hr hstatus
  rcases submitted_of_apply hr (of_decide_eq_true hstatus) with hold | ⟨now, purgeId, rfl, _⟩
  · exact Or.inr ⟨r, hold, hstatus, rfl⟩
  · exact Or.inl List.mem_cons_self

theorem RoomStatement.countSubmitted_apply_le (t : RoomHistoryTable) (stmt : RoomStatement) :
    (stmt.apply t).countWhere (fun r => r.status = .submitted) ≤
      t.countWhere (fun r => r.status = .submitted) + stmt.submittedIds.length := by
  apply Table.countWhere_le
  intro r hr hstatus
  rcases submitted_of_apply hr (of_decide_eq_true hstatus) with
    ⟨old, hold, hsub, hid, _⟩ | ⟨now, attempt, cutoffTs, purgeId, rfl, _⟩
  · exact Or.inr ⟨old, hold, decide_eq_true hsub, hid⟩
  · exact Or.inl List.mem_cons_self

theorem countSubmittedPurgeTasks_eq (s : PurgeState) :
    s.countSubmittedPurgeTasks = s.events.countWhere (fun r => r.status = .purgeSubmitted) +
      s.rooms.countWhere (fun r => r.status = .submitted) := rfl

theorem countSubmittedPurgeTasks_perform_le (s : PurgeState) (p : Plan) :
    (s.perform p).countSubmittedPurgeTasks ≤ s.countSubmittedPurgeTasks + p.submissions := by
  have hevents := p.events.countSubmitted_apply_le s.messages s.events
  have hrooms := p.rooms.countSubmitted_apply_le s.rooms
  rw [countSubmittedPurgeTasks_eq, countSubmittedPurgeTasks_eq, Plan.submissions]
  simp only [PurgeState.perform]
  omega

/-! ## What a step spends -/

theorem EventStatement.submittedIds_of_isIngest {stmt : EventStatement}
    (h : stmt.isIngest = true) : stmt.submittedIds = [] := by
  cases stmt <;> first | rfl | cases h

theorem RoomStatement.submittedIds_of_isCensus {stmt : RoomStatement} (h : stmt.IsCensus) :
    stmt.submittedIds = [] := by
  cases stmt <;> first | rfl | cases h

/-- One repository call submits at most one row, and only `record_submitted` does. -/
theorem PurgeWrite.submittedIds_le (write : PurgeWrite) (now : Int) :
    (write.onEvents now).submittedIds.length + (write.onRooms now).submittedIds.length ≤
      if write.isSubmission then 1 else 0 := by
  cases write <;> simp [onEvents, onRooms, EventStatement.submittedIds,
    RoomStatement.submittedIds, isSubmission]

theorem recordPurgeFailure_isSubmission (maxAttempts : Int) (candidate : CleanupEvent)
    (attempt : Int) (error : String) :
    (recordPurgeFailure maxAttempts candidate attempt error).isSubmission = false := by
  unfold recordPurgeFailure
  split <;> rfl

/-- The answer to a poll frees a slot or keeps it, and never takes one. -/
theorem pollSubmittedPurge_isSubmission {codec : PurgeCodec} {maxAttempts : Int}
    {candidate : CleanupEvent} {outcome : HttpOutcome} {write : PurgeWrite}
    (h : pollSubmittedPurge codec maxAttempts candidate outcome = some write) :
    write.isSubmission = false := by
  rcases pollSubmittedPurge_spec h with ⟨rfl, _⟩ | ⟨error, rfl⟩
  · rfl
  · exact recordPurgeFailure_isSubmission _ _ _ _

theorem pollSubmittedRoomHistoryPurge_isSubmission {codec : PurgeCodec} {maxAttempts : Int}
    {candidate : RoomHistoryPurge} {outcome : HttpOutcome} {write : PurgeWrite}
    (h : pollSubmittedRoomHistoryPurge codec maxAttempts candidate outcome = some write) :
    write.isSubmission = false := by
  rcases pollSubmittedRoomHistoryPurge_spec h with ⟨rfl, _⟩ | ⟨error, rfl⟩
  · rfl
  · rfl

/-- A statement on the way is no submission unless the cycle is in its submission loops. -/
def Stage.PollsOnly (stage : Stage) : Prop :=
  ∀ write submitted submittedRooms, stage = .pollWrite write submitted submittedRooms →
    write.isSubmission = false

theorem Planned.pollsOnly {codec : PurgeCodec} {s : PurgeState} {a : Action} {p : Plan}
    (h : Planned codec s a p) (hpolls : s.stage.PollsOnly) : p.stage.PollsOnly := by
  intro write submitted submittedRooms hstage
  cases h with
  | ingest stmt hingest => exact hpolls write submitted submittedRooms hstage
  | storeMessage msg => exact hpolls write submitted submittedRooms hstage
  | census stmt hcensus => exact hpolls write submitted submittedRooms hstage
  | reorderEvents rows => exact hpolls write submitted submittedRooms hstage
  | reorderRooms rows => exact hpolls write submitted submittedRooms hstage
  | finish purgeId outcome => exact hpolls write submitted submittedRooms hstage
  | polled outcome candidate rest restRooms polled hfrom hpoll =>
      cases hstage
      exact pollSubmittedPurge_isSubmission hpoll
  | polledRoom outcome candidate restRooms polled hfrom hpoll =>
      cases hstage
      exact pollSubmittedRoomHistoryPurge_isSubmission hpoll
  | begin config now runBackfill hfrom =>
      cases henabled : config.enabled <;> simp [henabled] at hstage
  | requeueRooms now runBackfill hfrom => cases runBackfill <;> simp at hstage
  | audit now verified summary candidate queue scanned recorded hfrom =>
      simp only at hstage
      split at hstage <;> cases hstage
  | sent outcome accepted candidate attempt request due dueRooms hfrom =>
      simp only [afterSubmit] at hstage
      split at hstage
      · cases hstage
      · split at hstage <;> cases hstage
  | _ => cases hstage

theorem afterSubmit_slotsLeft (codec : PurgeCodec) (maxAttempts : Int) (candidate : CleanupEvent)
    (attempt : Int) (due : List CleanupEvent) (dueRooms : List RoomHistoryPurge)
    (outcome : HttpOutcome) :
    (afterSubmit codec maxAttempts candidate attempt due dueRooms outcome).slotsLeft =
      1 + (due.length + dueRooms.length) := by
  unfold afterSubmit
  split
  · rfl
  · split <;> rfl

/-- Every step but the count pays for its submissions with the slots of its stage. -/
theorem Planned.spends {codec : PurgeCodec} {s : PurgeState} {a : Action} {p : Plan}
    (h : Planned codec s a p) (hpolls : s.stage.PollsOnly) :
    p.submissions + p.stage.slotsLeft ≤ s.stage.slotsLeft ∨
      (p.submissions = 0 ∧ s.stage = .count ∧
        p.stage = .listDue (availablePurgeSubmissionSlots s.cycle.config.purgeMaxInFlight
          s.countSubmittedPurgeTasks)) := by
  cases h with
  | count now hfrom => exact Or.inr ⟨rfl, hfrom, rfl⟩
  | ingest stmt hingest =>
      have hnone := EventStatement.submittedIds_of_isIngest hingest
      exact Or.inl (by simp [Plan.submissions, hnone, RoomStatement.submittedIds])
  | census stmt hcensus =>
      have hnone := RoomStatement.submittedIds_of_isCensus hcensus
      exact Or.inl (by simp [Plan.submissions, hnone, EventStatement.submittedIds])
  | storeMessage msg => exact Or.inl (Nat.zero_add _).le
  | reorderEvents rows => exact Or.inl (Nat.zero_add _).le
  | reorderRooms rows => exact Or.inl (Nat.zero_add _).le
  | finish purgeId outcome => exact Or.inl (Nat.zero_add _).le
  | begin config now runBackfill hfrom =>
      refine Or.inl ?_
      cases config.enabled <;>
        simp [Plan.submissions, EventStatement.submittedIds, RoomStatement.submittedIds,
          Stage.slotsLeft]
  | requeueRooms now runBackfill hfrom =>
      refine Or.inl ?_
      cases runBackfill <;>
        simp [Plan.submissions, EventStatement.submittedIds, RoomStatement.submittedIds,
          Stage.slotsLeft]
  | audit now verified summary candidate queue scanned recorded hfrom =>
      refine Or.inl ?_
      simp only [Plan.submissions, EventStatement.submittedIds, RoomStatement.submittedIds]
      split <;> simp [Stage.slotsLeft]
  | enqueue now candidate kind summary queue hfrom =>
      refine Or.inl ?_
      cases kind <;>
        simp [Plan.submissions, enqueueStatement, EventStatement.submittedIds,
          RoomStatement.submittedIds, Stage.slotsLeft]
  | pollWrite now ok write submitted submittedRooms hfrom =>
      have hnone := hpolls write submitted submittedRooms hfrom
      have hwrite := write.submittedIds_le now
      rw [hnone] at hwrite
      simp only [Bool.false_eq_true, if_false] at hwrite
      refine Or.inl ?_
      cases ok with
      | true =>
          simp only [Plan.submissions, Stage.slotsLeft, if_true]
          omega
      | false => exact Nat.zero_le _
  | listDue now slots hfrom =>
      have hlength : (s.dueBoundaries slots).length ≤ min slots s.cycle.config.batchSize :=
        EventTable.listDueRoomBoundaries_length_le _ _ _ _
      refine Or.inl ?_
      simp only [hfrom, Plan.submissions, EventStatement.submittedIds,
        RoomStatement.submittedIds, Stage.slotsLeft, List.length_nil]
      omega
  | listDueRooms now slots due hfrom =>
      have hlength : (s.dueRoomHistory slots).length ≤
          min slots s.cycle.config.portalCensusPurgeBatchSize :=
        RoomHistoryTable.listDue_length_le _ _ _
      refine Or.inl ?_
      simp only [hfrom, Plan.submissions, EventStatement.submittedIds,
        RoomStatement.submittedIds, Stage.slotsLeft, List.length_nil]
      omega
  | sent outcome accepted candidate attempt request due dueRooms hfrom =>
      refine Or.inl ?_
      rw [hfrom, afterSubmit_slotsLeft]
      exact (Nat.zero_add _).le
  | settle now ok write due dueRooms hfrom =>
      have hwrite := write.submittedIds_le now
      have hone : (if write.isSubmission = true then 1 else 0) ≤ 1 := by
        split <;> omega
      refine Or.inl ?_
      rw [hfrom]
      cases ok with
      | true =>
          simp only [Plan.submissions, Stage.slotsLeft, if_true]
          omega
      | false =>
          simp only [Plan.submissions, EventStatement.submittedIds,
            RoomStatement.submittedIds, Stage.slotsLeft, Bool.false_eq_true, if_false,
            List.length_nil]
          omega
  | failed a candidate attempt error due dueRooms hfrom =>
      refine Or.inl ?_
      rcases hfrom with hfrom | hfrom <;> rw [hfrom] <;> exact (Nat.zero_add _).le
  | ended now hfrom => exact Or.inl (Nat.zero_le _)
  | attempt now candidate due dueRooms hfrom =>
      refine Or.inl ?_
      simp only [hfrom, Plan.submissions, EventStatement.submittedIds,
        RoomStatement.submittedIds, Stage.slotsLeft, List.length_nil, List.length_cons]
      omega
  | attemptFailed now candidate due dueRooms hfrom =>
      refine Or.inl ?_
      simp only [hfrom, Plan.submissions, EventStatement.submittedIds,
        RoomStatement.submittedIds, Stage.slotsLeft, List.length_nil, List.length_cons]
      omega
  | attemptRoom now candidate dueRooms hfrom =>
      refine Or.inl ?_
      simp only [hfrom, Plan.submissions, EventStatement.submittedIds,
        RoomStatement.submittedIds, Stage.slotsLeft, List.length_nil, List.length_cons]
      omega
  | attemptRoomFailed now candidate dueRooms hfrom =>
      refine Or.inl ?_
      simp only [hfrom, Plan.submissions, EventStatement.submittedIds,
        RoomStatement.submittedIds, Stage.slotsLeft, List.length_nil, List.length_cons]
      omega
  | prepared now candidate attempt request due dueRooms hfrom hrequest =>
      exact Or.inl (hfrom ▸ (Nat.zero_add _).le)
  | probed now candidate attempt due dueRooms hfrom hnewer =>
      exact Or.inl (hfrom ▸ (Nat.zero_add _).le)
  | sentRoom outcome accepted candidate attempt dueRooms hfrom =>
      refine Or.inl ?_
      simp only [hfrom, Plan.submissions, EventStatement.submittedIds,
        RoomStatement.submittedIds, Stage.slotsLeft, List.length_nil]
      omega
  | _ => exact Or.inl (Nat.zero_le _)

/-! ## Over a run -/

/-- Every cycle runs with `purge_max_in_flight = n`. -/
def configuredWith (n : Nat) (_ : PurgeState) : Action → Prop
  | .begin config _ _ => config.purgeMaxInFlight = n
  | _ => True

instance (n : Nat) (s : PurgeState) : ∀ a, Decidable (configuredWith n s a)
  | .begin config _ _ => inferInstanceAs (Decidable (config.purgeMaxInFlight = n))
  | .ingest _ | .storeMessage _ | .census _ | .reorderEvents _ | .reorderRooms _ | .finish _ _
  | .stop | .advance _ | .audit _ _ _ | .poll _ | .submit _ _ | .readFailed _ | .write _ _ =>
      isTrue trivial

/-- The slots of the stage fit under the bound beside the rows that are submitted already. A
cycle that found more than `n` rows has none left. -/
structure SlotBudget (n : Nat) (s : PurgeState) : Prop where
  config : s.stage = .idle ∨ s.cycle.config.purgeMaxInFlight = n
  polls : s.stage.PollsOnly
  budget : s.stage.slotsLeft = 0 ∨ s.countSubmittedPurgeTasks + s.stage.slotsLeft ≤ n

theorem SlotBudget.of_idle {n : Nat} {s : PurgeState} (h : s.stage = .idle) : SlotBudget n s where
  config := Or.inl h
  polls := by
    intro write submitted submittedRooms hstage
    rw [h] at hstage
    cases hstage
  budget := Or.inl (by rw [h]; rfl)

theorem Planned.cycle_config {codec : PurgeCodec} {s : PurgeState} {a : Action} {p : Plan}
    {n : Nat} (h : Planned codec s a p) (hok : configuredWith n s a)
    (hconfig : s.stage = .idle ∨ s.cycle.config.purgeMaxInFlight = n) :
    p.stage = .idle ∨ (p.cycle.getD s.cycle).config.purgeMaxInFlight = n := by
  cases h with
  | begin config now runBackfill hfrom => exact Or.inr hok
  | stop => exact Or.inl rfl
  | ended now hfrom => exact Or.inl rfl
  | ingest stmt hingest => exact hconfig
  | storeMessage msg => exact hconfig
  | census stmt hcensus => exact hconfig
  | reorderEvents rows => exact hconfig
  | reorderRooms rows => exact hconfig
  | finish purgeId outcome => exact hconfig
  | failed a candidate attempt error due dueRooms hfrom =>
      refine Or.inr (hconfig.resolve_left ?_)
      rcases hfrom with hfrom | hfrom <;> rw [hfrom] <;> exact Stage.noConfusion
  | _ =>
      refine Or.inr (hconfig.resolve_left ?_)
      simp_all

theorem SlotBudget.step {codec : PurgeCodec} {n : Nat} {s next : PurgeState} {a : Action}
    (h : SlotBudget n s) (hok : configuredWith n s a) (hstep : step codec s a = some next) :
    SlotBudget n next ∧
      (s.countSubmittedPurgeTasks ≤ n → next.countSubmittedPurgeTasks ≤ n) := by
  obtain ⟨p, hp, rfl⟩ := step_spec hstep
  have hcount := countSubmittedPurgeTasks_perform_le s p
  have hstage : (s.perform p).stage = p.stage := rfl
  have hbudget := h.budget
  rcases hp.spends h.polls with hspends | ⟨hnone, hfrom, hslots⟩
  · refine ⟨⟨hp.cycle_config hok h.config, hp.pollsOnly h.polls, ?_⟩, ?_⟩
    · rw [hstage]
      omega
    · omega
  · have hconfig : s.cycle.config.purgeMaxInFlight = n :=
      h.config.resolve_left (by simp [hfrom])
    refine ⟨⟨hp.cycle_config hok h.config, hp.pollsOnly h.polls, ?_⟩, ?_⟩
    · rw [hstage, hslots, hconfig]
      simp only [Stage.slotsLeft, availablePurgeSubmissionSlots]
      omega
    · omega

theorem SlotBudget.run {codec : PurgeCodec} {n : Nat} {start final : PurgeState}
    {actions : List Action} (h : SlotBudget n start)
    (hconfig : Transition.Meets (Purge.step codec) (configuredWith n) start actions)
    (hrun : Transition.run (Purge.step codec) start actions = some final) :
    SlotBudget n final ∧
      (start.countSubmittedPurgeTasks ≤ n → final.countSubmittedPurgeTasks ≤ n) := by
  have hkeep : ∀ (s : PurgeState) (a : Action) (next : PurgeState),
      (SlotBudget n s ∧ (start.countSubmittedPurgeTasks ≤ n → s.countSubmittedPurgeTasks ≤ n)) →
        configuredWith n s a → Purge.step codec s a = some next →
          SlotBudget n next ∧
            (start.countSubmittedPurgeTasks ≤ n → next.countSubmittedPurgeTasks ≤ n) :=
    fun s a next hs hok hstep =>
      ⟨(hs.1.step hok hstep).1, fun hstart => (hs.1.step hok hstep).2 (hs.2 hstart)⟩
  exact Transition.run_invariant hkeep ⟨h, id⟩ hconfig hrun

/-- Once at most `n` rows are submitted, at most `n` rows are. -/
theorem submitted_rows_le_max_in_flight {codec : PurgeCodec} {n : Nat}
    {start middle final : PurgeState} {before after : List Action} (hidle : start.stage = .idle)
    (hconfig : Transition.Meets (step codec) (configuredWith n) start (before ++ after))
    (hbefore : Transition.run (step codec) start before = some middle)
    (hcount : middle.countSubmittedPurgeTasks ≤ n)
    (hafter : Transition.run (step codec) middle after = some final) :
    final.countSubmittedPurgeTasks ≤ n := by
  obtain ⟨hfirst, hrest⟩ := hconfig.append
  have hmiddle : SlotBudget n middle := ((SlotBudget.of_idle hidle).run hfirst hbefore).1
  exact (hmiddle.run (hrest middle hbefore) hafter).2 hcount

/-! ## A full run -/

namespace SlotExample

def codec : PurgeCodec where
  decodeSubmit := fun _ => .ok ⟨"p1"⟩
  decodeStatus := PollExample.codec.decodeStatus

def config : EventPurgeConfig := { EventPurgeConfig.default with purgeMaxInFlight := 1 }

/-- Two rooms are due. -/
def ingested : List Action :=
  [.ingest (.enqueued 10 1 1 "whatsapp" "!r:s" "$e1" true),
    .ingest (.enqueued 11 1 2 "whatsapp" "!q:s" "$e2" true)]

/-- A cycle that submits one of them. -/
def cycle : List Action :=
  .begin config 200 false :: List.replicate 9 (.advance 200) ++
    [.write 200 true, .advance 200, .submit (.response 200 (.ok "")) (some "p1"), .write 200 true]

def reached (s : PurgeState) (actions : List Action) : PurgeState :=
  Transition.final (step codec) s actions

end SlotExample

open SlotExample in
theorem submitted_rows_le_max_in_flight_cycle :
    (reached (reached PurgeState.initial ingested) cycle).countSubmittedPurgeTasks ≤ 1 :=
  @submitted_rows_le_max_in_flight codec 1 PurgeState.initial _ _ ingested cycle rfl
    (by decide) (Transition.run_eq_final (by decide)) (by decide)
    (Transition.run_eq_final (by decide))

open SlotExample in
example : (reached (reached PurgeState.initial ingested) cycle).countSubmittedPurgeTasks = 1 := by
  decide

end Lightfriend.Purge
