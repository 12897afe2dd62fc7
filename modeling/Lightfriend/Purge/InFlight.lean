import Lightfriend.Purge.Slot

/-! # One purge in flight per room

The steps of the worker and of the parties around it keep the slots of every
room apart. The condition `singleFlight` excludes the steps that free a slot
whose task still runs, and the step that lists a room in both queues.
-/

namespace Lightfriend.Purge

/-! ## An accepted submission -/

theorem FlightInv.accept {s : PurgeState} {p : Plan} (h : FlightInv s)
    (hfrom : s.stage.NoSubmission) {task : PurgeTask} (hhomeserver : p.homeserver = .accept task)
    (hfresh : p.homeserver.Fresh s.tasks) (hevents : p.events = .keep) (hrooms : p.rooms = .keep)
    (hfree : Free s task.roomId) (slot : String ⊕ Int)
    (hslot : Pending (s.perform p) task.roomId slot (some task.purgeId))
    (honly : ∀ room slot' owner, Pending (s.perform p) room slot' owner →
      room = task.roomId ∧ slot' = slot ∧ owner = some task.purgeId)
    (hstage : (∀ room, room ≠ task.roomId → Free s room → Free (s.perform p) room) →
      StageFlight (s.perform p) p.stage) : FlightInv (s.perform p) := by
  have hsame : (s.perform p).events = s.events ∧ (s.perform p).rooms = s.rooms := by
    simp [PurgeState.perform, hevents, hrooms, EventStatement.apply, RoomStatement.apply]
  have hback : ∀ room slot' owner, Occupies (s.perform p) room slot' owner →
      Occupies s room slot' owner ∨
        (room = task.roomId ∧ slot' = slot ∧ owner = some task.purgeId) := by
    intro room slot' owner hocc
    cases hocc with
    | event hr hstatus => exact Or.inl (.event (hsame.1 ▸ hr) hstatus)
    | purge hr hstatus => exact Or.inl (.purge (hsame.2 ▸ hr) hstatus)
    | pending hp => exact Or.inr (honly _ _ _ hp)
  constructor
  · exact HomeserverEvent.taskIdsUnique_onTasks h.ids hfresh
  · intro other hother hnone
    have htasks : (s.perform p).tasks = task :: s.tasks := by
      simp [PurgeState.perform, hhomeserver, HomeserverEvent.onTasks]
    rw [htasks] at hother
    rcases List.mem_cons.mp hother with rfl | hold
    · exact ⟨slot, .pending hslot⟩
    · obtain ⟨old, hocc⟩ := h.owned other hold hnone
      generalize hroom : other.roomId = room at hocc ⊢
      generalize howner : some other.purgeId = owner at hocc ⊢
      cases hocc with
      | event hr hstatus => exact ⟨_, .event (hsame.1.symm ▸ hr) hstatus⟩
      | purge hr hstatus => exact ⟨_, .purge (hsame.2.symm ▸ hr) hstatus⟩
      | pending hp => exact absurd hp hfrom.not_pending
  · intro room slot' owner slot'' owner' hfirst hsecond
    rcases hback _ _ _ hfirst with hfirst | ⟨rfl, rfl, rfl⟩
    · rcases hback _ _ _ hsecond with hsecond | ⟨rfl, rfl, rfl⟩
      · exact h.single _ _ _ _ _ hfirst hsecond
      · exact absurd hfirst (hfree _ _)
    · rcases hback _ _ _ hsecond with hsecond | ⟨_, rfl, rfl⟩
      · exact absurd hsecond (hfree _ _)
      · exact ⟨rfl, rfl⟩
  · refine hstage (fun room hne hroom slot' owner hocc => ?_)
    rcases hback _ _ _ hocc with hocc | ⟨heq, _, _⟩
    · exact hroom _ _ hocc
    · exact hne heq

/-- The row that was about to be submitted is submitted: the slot stays the same. -/
theorem FlightInv.record {s s' : PurgeState} (h : FlightInv s) (htasks : s'.tasks = s.tasks)
    (hsame : ∀ room slot task, Occupies s' room slot task ↔ Occupies s room slot task)
    (hstage : (∀ room, Free s room → Free s' room) → StageFlight s' s'.stage) : FlightInv s' where
  ids := htasks ▸ h.ids
  owned := by
    intro task htask hnone
    rw [htasks] at htask
    obtain ⟨slot, hslot⟩ := h.owned task htask hnone
    exact ⟨slot, (hsame _ _ _).mpr hslot⟩
  single := fun room slot task slot' task' hfirst hsecond =>
    h.single room slot task slot' task' ((hsame _ _ _).mp hfirst) ((hsame _ _ _).mp hsecond)
  stage := hstage (fun _ hfree slot task hocc => hfree slot task ((hsame _ _ _).mp hocc))

theorem FlightInv.recordEvent {s : PurgeState} (h : FlightInv s) {eventId purgeId : String}
    {due : List CleanupEvent} {dueRooms : List RoomHistoryPurge}
    (hstage : s.stage = .settle (.eventSubmitted eventId purgeId) due dueRooms) (now : Int) :
    FlightInv (s.perform
      { events := .submitted now eventId purgeId, stage := .submit due dueRooms }) := by
  have hflight := h.stage
  rw [hstage] at hflight
  obtain ⟨⟨row, hrow, hid⟩, hdue⟩ := hflight
  have hpending : Pending s row.roomId (.inl row.eventId) (some purgeId) :=
    hid ▸ Pending.of_event hstage hrow hid
  refine h.record rfl ?_ ?_
  · intro room slot task
    constructor
    · intro hocc
      cases hocc with
      | event hr hstatus =>
          rcases EventStatement.submitted_of_apply hr hstatus with hold |
            ⟨_, _, hstmt, htask, old, hold, hoid, horoom⟩
          · exact .event hold hstatus
          · cases hstmt
            rw [htask, ← hoid, ← horoom]
            have heq := Table.eq_of_key_eq hold hrow (hoid.trans hid.symm)
            rw [heq]
            exact .pending hpending
      | purge hr hstatus => exact .purge hr hstatus
      | pending hp => exact absurd hp (by intro hp; cases hp <;> contradiction)
    · intro hocc
      have hset : ∀ r ∈ s.events, (if r.eventId = eventId then r.submit now purgeId else r) ∈
          (s.perform { events := .submitted now eventId purgeId
                       stage := .submit due dueRooms }).events :=
        fun r hr => EventStatement.mem_apply.mpr (Or.inl ⟨r, hr, rfl⟩)
      have hnew : ∀ r ∈ s.events, r.eventId = eventId →
          Occupies (s.perform { events := .submitted now eventId purgeId
                                stage := .submit due dueRooms }) r.roomId (.inl r.eventId)
            (some purgeId) := by
        intro r hr hrid
        have hmem := hset r hr
        rw [if_pos hrid] at hmem
        exact .event hmem rfl
      cases hocc with
      | @event r hr hstatus =>
          by_cases hrid : r.eventId = eventId
          · have heq := Table.eq_of_key_eq hr hrow (hrid.trans hid.symm)
            have htask := (h.single _ _ _ _ _ (.event hr hstatus)
              (.pending (heq ▸ hpending))).2
            rw [htask]
            exact hnew r hr hrid
          · have hmem := hset r hr
            rw [if_neg hrid] at hmem
            exact .event hmem hstatus
      | purge hr hstatus => exact .purge hr hstatus
      | pending hp =>
          obtain ⟨rfl, rfl, r, hr, hrid, rfl⟩ := hp.event_spec hstage
          have hslot := hnew r hr hrid
          rwa [hrid] at hslot
  · intro hfree
    exact {
      rows := fun c hc => EventStatement.exists_row_apply _ (hdue.rows c hc)
      purges := hdue.purges
      free := fun room hroom => hfree room (hdue.free room hroom)
      nodup := hdue.nodup }

theorem FlightInv.recordPurge {s : PurgeState} (h : FlightInv s) {id n cutoffTs : Int}
    {purgeId : String} {due : List CleanupEvent} {dueRooms : List RoomHistoryPurge}
    (hstage : s.stage = .settle (.roomSubmitted id n cutoffTs purgeId) due dueRooms) (now : Int) :
    FlightInv (s.perform
      { rooms := .submitted now id n cutoffTs purgeId, stage := .submit due dueRooms }) := by
  have hflight := h.stage
  rw [hstage] at hflight
  obtain ⟨⟨row, hrow, hid⟩, hdue⟩ := hflight
  have hpending : Pending s row.roomId (.inr row.id) (some purgeId) :=
    .purge hrow (hstage.trans (by rw [hid]))
  have hcensus : ¬ (RoomStatement.submitted now id n cutoffTs purgeId).IsCensus := fun hc => hc
  refine h.record rfl ?_ ?_
  · intro room slot task
    constructor
    · intro hocc
      cases hocc with
      | event hr hstatus => exact .event hr hstatus
      | purge hr hstatus =>
          rcases RoomStatement.submitted_of_apply hr hstatus with
            ⟨old, hold, hostatus, hoid, horoom, hopurge⟩ |
            ⟨_, _, _, _, hstmt, htask, old, hold, hoid, horoom⟩
          · rw [← hoid, ← horoom, ← hopurge]
            exact .purge hold hostatus
          · cases hstmt
            rw [htask, ← hoid, ← horoom]
            have heq := Table.eq_of_key_eq hold hrow (hoid.trans hid.symm)
            rw [heq]
            exact .pending hpending
      | pending hp => exact absurd hp (by intro hp; cases hp <;> contradiction)
    · intro hocc
      have hset : ∀ r ∈ s.rooms, (if r.id = id then r.submit now n cutoffTs purgeId else r) ∈
          (s.perform { rooms := .submitted now id n cutoffTs purgeId
                       stage := .submit due dueRooms }).rooms :=
        fun r hr => (RoomStatement.mem_apply hcensus).mpr ⟨r, hr, rfl⟩
      have hnew : ∀ r ∈ s.rooms, r.id = id →
          Occupies (s.perform { rooms := .submitted now id n cutoffTs purgeId
                                stage := .submit due dueRooms }) r.roomId (.inr r.id)
            (some purgeId) := by
        intro r hr hrid
        have hmem := hset r hr
        rw [if_pos hrid] at hmem
        exact .purge hmem rfl
      cases hocc with
      | event hr hstatus => exact .event hr hstatus
      | @purge r hr hstatus =>
          by_cases hrid : r.id = id
          · have heq := Table.eq_of_key_eq hr hrow (hrid.trans hid.symm)
            have htask := (h.single _ _ _ _ _ (.purge hr hstatus)
              (.pending (heq ▸ hpending))).2
            rw [htask]
            exact hnew r hr hrid
          · have hmem := hset r hr
            rw [if_neg hrid] at hmem
            exact .purge hmem hstatus
      | pending hp =>
          obtain ⟨rfl, rfl, r, hr, hrid, rfl⟩ := hp.purge_spec hstage
          have hslot := hnew r hr hrid
          rwa [hrid] at hslot
  · intro hfree
    exact {
      rows := hdue.rows
      purges := fun c hc => RoomStatement.exists_row_apply _ (hdue.purges c hc)
      free := fun room hroom => hfree room (hdue.free room hroom)
      nodup := hdue.nodup }

/-! ## The steps of a run -/

section Steps

variable {codec : PurgeCodec} {s : PurgeState}

theorem noSubmission_failure (maxAttempts : Int) (c : CleanupEvent) (attempt : Int)
    (error : String) (due : List CleanupEvent) (dueRooms : List RoomHistoryPurge) :
    (Stage.settle (recordPurgeFailure maxAttempts c attempt error) due dueRooms).NoSubmission := by
  intro write _ _ hstage
  cases hstage
  unfold recordPurgeFailure
  split <;> rfl

theorem WriteSafe.noSubmission {write : PurgeWrite} (h : WriteSafe s write) :
    write.isSubmission = false := by
  cases write with
  | eventSubmitted eventId purgeId => exact h.elim
  | roomSubmitted id n cutoffTs purgeId => exact h.elim
  | _ => rfl

theorem ingest_calm {stmt : EventStatement} (hingest : stmt.isIngest = true)
    (hguard : singleFlight codec s (.ingest stmt) = true) : EventsCalm s stmt where
  submits := by
    intro now eventId purgeId heq
    rw [heq] at hingest
    cases hingest
  frees := by
    intro r hr hstatus hrel
    simp only [singleFlight, List.all_eq_true] at hguard
    simpa [hstatus, hrel] using hguard r hr

theorem census_calm {stmt : RoomStatement} (hcensus : stmt.IsCensus) : RoomsCalm s stmt := by
  cases stmt with
  | portalCensus userId service roomIds cutoffTs discoveredAt =>
      exact ⟨by simp, by simp [RoomStatement.releases]⟩
  | serverCensus userId service roomIds cutoffTs discoveredAt =>
      exact ⟨by simp, by simp [RoomStatement.releases]⟩
  | _ => exact hcensus.elim

theorem audit_calm {now : Int} {c : EventTable.HistoricalBackfillCandidate} {verified : Bool}
    {summary : String} (hnot : NotSubmitted s.events c.eventId) :
    EventsCalm s (.audit now c verified summary) where
  submits := by simp
  frees := fun r hr hstatus hrel => absurd hstatus (hnot r hr (of_decide_eq_true hrel))

theorem enqueueStatement_calm (now : Int) (c : EventTable.HistoricalBackfillCandidate)
    (kind : BackfillExecution) (summary : String) :
    EventsCalm s (enqueueStatement now c kind summary) := by
  cases kind with
  | verified => exact ⟨by simp [enqueueStatement], by simp [enqueueStatement, EventStatement.releases]⟩
  | forcedUnverified =>
      exact ⟨by simp [enqueueStatement], by simp [enqueueStatement, EventStatement.releases]⟩

theorem FlightInv.sent (h : FlightInv s) {outcome : HttpOutcome} {accepted : Option String}
    {c : CleanupEvent} {attempt : Int} {request : PurgeBoundary} {due : List CleanupEvent}
    {dueRooms : List RoomHistoryPurge} (hstage : s.stage = .send c attempt request due dueRooms)
    (hhonest : honestSubmit codec s.tasks outcome accepted = true)
    (hanswered : answered codec outcome accepted = true) (maxAttempts : Int) :
    FlightInv (s.perform
      { homeserver := acceptance c.roomId request accepted
        stage := afterSubmit codec maxAttempts c attempt due dueRooms outcome }) := by
  have hdue : Due s (c :: due) dueRooms := by
    have hflight := h.stage
    rwa [hstage] at hflight
  have hfrom : s.stage.NoSubmission := by simp [Stage.NoSubmission, hstage]
  cases hparse : parseSubmitResponse codec outcome with
  | error error =>
      have hnone : accepted = none := by
        cases accepted with
        | none => rfl
        | some purgeId => simp [answered, hparse] at hanswered
      subst hnone
      have hafter : ∃ stage, afterSubmit codec maxAttempts c attempt due dueRooms outcome = stage ∧
          stage.NoSubmission ∧ StageFlight s stage := by
        unfold afterSubmit
        simp only [hparse]
        split
        · exact ⟨_, rfl, by simp [Stage.NoSubmission], hdue⟩
        · have hsafe := hdue.failure_safe maxAttempts attempt error.display
          exact ⟨_, rfl, noSubmission_failure _ _ _ _ _ _,
            (settleSafe_iff hsafe.noSubmission).mpr hsafe, hdue.tail⟩
      obtain ⟨stage, heq, hto, hflight⟩ := hafter
      rw [heq]
      exact h.worker (Calm.idle rfl rfl (by simp [acceptance])) hfrom hto hflight
  | ok submitted =>
      have haccepted := accepted_of_ok hhonest hparse
      subst haccepted
      have hafter : afterSubmit codec maxAttempts c attempt due dueRooms outcome =
          .settle (.eventSubmitted c.eventId submitted.purgeId) due dueRooms := by
        unfold afterSubmit
        rw [hparse]
      rw [hafter]
      obtain ⟨row, hrow, hid, hroom⟩ := hdue.rows c List.mem_cons_self
      refine h.accept hfrom rfl (acceptance_fresh hhonest _ _) rfl rfl hdue.head_free
        (.inl c.eventId) ?_ ?_ ?_
      · have hnew := Pending.of_event (s := s.perform
          { homeserver := acceptance c.roomId request (some submitted.purgeId)
            stage := .settle (.eventSubmitted c.eventId submitted.purgeId) due dueRooms })
          rfl hrow hid
        rwa [hroom] at hnew
      · intro room slot owner hp
        obtain ⟨rfl, rfl, r, hr, hrid, rfl⟩ := hp.event_spec rfl
        have heq := Table.eq_of_key_eq (t := s.events) hr hrow (hrid.trans hid.symm)
        exact ⟨heq ▸ hroom, rfl, rfl⟩
      · intro hfree
        refine ⟨⟨row, hrow, hid⟩, hdue.tail.rows, hdue.tail.purges, ?_, hdue.tail.nodup⟩
        intro room hmem
        refine hfree room (fun heq => ?_) (hdue.tail.free room hmem)
        change room = c.roomId at heq
        exact (List.nodup_cons.mp hdue.nodup).1 (heq ▸ hmem)

theorem FlightInv.sentRoom (h : FlightInv s) {outcome : HttpOutcome} {accepted : Option String}
    {c : RoomHistoryPurge} {attempt : Int} {dueRooms : List RoomHistoryPurge}
    (hstage : s.stage = .sendRoom c attempt dueRooms)
    (hhonest : honestSubmit codec s.tasks outcome accepted = true)
    (hanswered : answered codec outcome accepted = true) (maxAttempts : Int) :
    FlightInv (s.perform
      { homeserver := roomAcceptance codec c outcome accepted
        stage := .settle (afterSubmitRoom codec maxAttempts c attempt outcome) [] dueRooms }) := by
  have hdue : Due s [] (c :: dueRooms) := by
    have hflight := h.stage
    rwa [hstage] at hflight
  have hfrom : s.stage.NoSubmission := by simp [Stage.NoSubmission, hstage]
  have hfresh := roomAcceptance_fresh hhonest c
  cases hparse : parseSubmitResponse codec outcome with
  | error error =>
      have hnone : accepted = none := by
        cases accepted with
        | none => rfl
        | some purgeId => simp [answered, hparse] at hanswered
      subst hnone
      have hquiet : ∀ task, roomAcceptance codec c outcome none ≠ .accept task := by
        intro task
        unfold roomAcceptance
        simp only [hparse, acceptance]
        split <;> simp
      have hsafe : WriteSafe s (afterSubmitRoom codec maxAttempts c attempt outcome) :=
        hdue.room_safe hparse
      refine h.worker (Calm.idle rfl rfl hquiet) hfrom ?_
        ⟨(settleSafe_iff hsafe.noSubmission).mpr hsafe, hdue.tailRoom⟩
      intro write _ _ hs
      cases hs
      exact hsafe.noSubmission
  | ok submitted =>
      have haccepted := accepted_of_ok hhonest hparse
      subst haccepted
      have hafter : afterSubmitRoom codec maxAttempts c attempt outcome =
          .roomSubmitted c.id attempt c.cutoffTs submitted.purgeId := by
        unfold afterSubmitRoom
        rw [hparse]
      have haccept : roomAcceptance codec c outcome (some submitted.purgeId) =
          acceptance c.roomId (purgeHistoryTimestampRequest (roomHistoryTimestampMs c.cutoffTs))
            (some submitted.purgeId) := by
        unfold roomAcceptance
        rw [hparse]
      rw [haccept] at hfresh
      rw [hafter, haccept]
      obtain ⟨row, hrow, hid, hroom⟩ := hdue.purges c List.mem_cons_self
      refine h.accept hfrom rfl hfresh rfl rfl hdue.headRoom_free (.inr c.id) ?_ ?_ ?_
      · have hnew := Pending.of_purge (s := s.perform
          { homeserver := acceptance c.roomId
              (purgeHistoryTimestampRequest (roomHistoryTimestampMs c.cutoffTs))
              (some submitted.purgeId)
            stage := .settle (.roomSubmitted c.id attempt c.cutoffTs submitted.purgeId) []
              dueRooms }) rfl hrow hid
        rwa [hroom] at hnew
      · intro room slot owner hp
        obtain ⟨rfl, rfl, r, hr, hrid, rfl⟩ := hp.purge_spec rfl
        have heq := Table.eq_of_key_eq (t := s.rooms) hr hrow (hrid.trans hid.symm)
        exact ⟨heq ▸ hroom, rfl, rfl⟩
      · intro hfree
        refine ⟨⟨row, hrow, hid⟩, hdue.tailRoom.rows, hdue.tailRoom.purges, ?_,
          hdue.tailRoom.nodup⟩
        intro room hmem
        refine hfree room (fun heq => ?_) (hdue.tailRoom.free room hmem)
        change room = c.roomId at heq
        exact (List.nodup_cons.mp hdue.nodup).1 (heq ▸ hmem)

theorem FlightInv.settle (h : FlightInv s) {write : PurgeWrite} {due : List CleanupEvent}
    {dueRooms : List RoomHistoryPurge} (hstage : s.stage = .settle write due dueRooms) (now : Int)
    {ok : Bool} (hok : (ok || !write.isSubmission) = true) :
    FlightInv (s.perform
      { events := if ok then write.onEvents now else .keep
        rooms := if ok then write.onRooms now else .keep
        stage := .submit due dueRooms }) := by
  have hflight := h.stage
  rw [hstage] at hflight
  cases hsub : write.isSubmission with
  | false =>
      have hfrom : s.stage.NoSubmission := by
        intro other _ _ hs
        rw [hstage] at hs
        cases hs
        exact hsub
      exact h.worker (((settleSafe_iff hsub).mp hflight.1).calm now ok _) hfrom
        (by simp [Stage.NoSubmission]) hflight.2
  | true =>
      have htrue : ok = true := by simpa [hsub] using hok
      subst htrue
      cases write with
      | eventSubmitted eventId purgeId => exact h.recordEvent hstage now
      | roomSubmitted id n cutoffTs purgeId => exact h.recordPurge hstage now
      | _ => cases hsub

/-- A poll that writes to an event has been told that its task is over. -/
theorem ownerDone_of_polled (hids : TaskIdsUnique s.tasks) {outcome : HttpOutcome}
    {candidate : CleanupEvent} {submitted : List CleanupEvent}
    {submittedRooms : List RoomHistoryPurge}
    (hstage : s.stage = .poll (candidate :: submitted) submittedRooms)
    (hhonest : honest codec s (.poll outcome) = true)
    (hguard : singleFlight codec s (.poll outcome) = true) {maxAttempts : Int} {write : PurgeWrite}
    (hpoll : pollSubmittedPurge codec maxAttempts candidate outcome = some write) :
    OwnerDone s.tasks candidate.lastAdminCommandEventId := by
  rw [honest_poll hstage] at hhonest
  rw [singleFlight_poll hstage] at hguard
  rcases hguard with hnamed | hdone
  · by_cases htask : candidate.lastAdminCommandEventId = none
    · rw [htask]
      trivial
    · refine ownerDone_of_named hids hhonest hnamed (Bool.eq_false_iff.mpr fun hactive => ?_)
      rw [pollSubmittedPurge_active htask hactive] at hpoll
      cases hpoll
  · exact hdone

/-- The same of a room history, which is left alone without a verdict too. -/
theorem ownerDone_of_polledRoom (hids : TaskIdsUnique s.tasks) {outcome : HttpOutcome}
    {candidate : RoomHistoryPurge} {submittedRooms : List RoomHistoryPurge}
    (hstage : s.stage = .poll [] (candidate :: submittedRooms))
    (hhonest : honest codec s (.poll outcome) = true)
    (hguard : singleFlight codec s (.poll outcome) = true) {maxAttempts : Int} {write : PurgeWrite}
    (hpoll : pollSubmittedRoomHistoryPurge codec maxAttempts candidate outcome = some write) :
    OwnerDone s.tasks candidate.purgeId := by
  rw [honest_pollRoom hstage] at hhonest
  rw [singleFlight_pollRoom hstage] at hguard
  by_cases htask : candidate.purgeId = none
  · rw [htask]
    trivial
  · rcases hguard with (hnamed | hverdict) | hdone
    · refine ownerDone_of_named hids hhonest hnamed (Bool.eq_false_iff.mpr fun hactive => ?_)
      rw [pollSubmittedRoomHistoryPurge_active htask hactive] at hpoll
      cases hpoll
    · rw [pollSubmittedRoomHistoryPurge_noVerdict htask hverdict] at hpoll
      cases hpoll
    · exact hdone

/-- A step of the worker or around it keeps one purge in flight per room. -/
theorem flightInv_planned {a : Action} {p : Plan} (h : FlightInv s) (hplan : Planned codec s a p)
    (hhonest : honest codec s a = true) (hguard : singleFlight codec s a = true) :
    FlightInv (s.perform p) := by
  have hflight := h.stage
  cases hplan with
  | ingest stmt hingest =>
      exact h.outside ⟨ingest_calm hingest hguard, .keep s, by simp⟩ rfl
  | storeMessage msg => exact h.outside (.idle rfl rfl (by simp)) rfl
  | census stmt hcensus =>
      exact h.outside ⟨.keep s, census_calm hcensus, by simp⟩ rfl
  | reorderEvents rows =>
      exact h.outside ⟨⟨by simp, by simp [EventStatement.releases]⟩, .keep s, by simp⟩ rfl
  | reorderRooms rows =>
      exact h.outside ⟨.keep s, ⟨by simp, by simp [RoomStatement.releases]⟩, by simp⟩ rfl
  | finish purgeId outcome => exact h.outside (.idle rfl rfl (by simp)) rfl
  | begin config now runBackfill hstage =>
      have hnew : StageFlight s (if config.enabled then .recover runBackfill else .idle) ∧
          (if config.enabled then Stage.recover runBackfill else .idle).NoSubmission := by
        split <;> exact ⟨trivial, by simp [Stage.NoSubmission]⟩
      exact h.worker (.idle rfl rfl (by simp)) (by simp [Stage.NoSubmission, hstage]) hnew.2 hnew.1
  | stop =>
      have hfrom : s.stage.NoSubmission := by
        intro write due dueRooms hstage
        simpa [singleFlight, hstage] using hguard
      exact h.worker (.idle rfl rfl (by simp)) hfrom (by simp [Stage.NoSubmission]) trivial
  | recover now runBackfill hstage =>
      exact h.worker ⟨⟨by simp, by simp [EventStatement.releases]⟩, .keep s, by simp⟩
        (by simp [Stage.NoSubmission, hstage]) (by simp [Stage.NoSubmission]) trivial
  | requeue now runBackfill hstage =>
      exact h.worker ⟨⟨by simp, by simp [EventStatement.releases]⟩, .keep s, by simp⟩
        (by simp [Stage.NoSubmission, hstage]) (by simp [Stage.NoSubmission]) trivial
  | requeueRooms now runBackfill hstage =>
      have hnew : StageFlight s (if runBackfill then .listBackfill else .listSubmitted) ∧
          (if runBackfill then Stage.listBackfill else .listSubmitted).NoSubmission := by
        split <;> exact ⟨trivial, by simp [Stage.NoSubmission]⟩
      exact h.worker ⟨.keep s, ⟨by simp, by simp [RoomStatement.releases]⟩, by simp⟩
        (by simp [Stage.NoSubmission, hstage]) hnew.2 hnew.1
  | listBackfill now hstage =>
      exact h.worker (.idle rfl rfl (by simp)) (by simp [Stage.NoSubmission, hstage])
        (by simp [Stage.NoSubmission]) backfillCandidates_notSubmitted
  | audit now verified summary candidate queue scanned recorded hstage =>
      rw [hstage] at hflight
      have hqueue : ∀ c ∈ queue, NotSubmitted s.events c.eventId :=
        fun c hc => hflight c (List.mem_cons_of_mem _ hc)
      refine h.worker ⟨audit_calm (hflight candidate List.mem_cons_self), .keep s, by simp⟩
        (by simp [Stage.NoSubmission, hstage]) ?_ ?_
      · split <;> simp [Stage.NoSubmission]
      · split
        · exact hqueue
        · exact hqueue
  | backfillDone now hstage =>
      exact h.worker (.idle rfl rfl (by simp)) (by simp [Stage.NoSubmission, hstage])
        (by simp [Stage.NoSubmission]) trivial
  | enqueue now candidate kind summary queue hstage =>
      rw [hstage] at hflight
      exact h.worker ⟨enqueueStatement_calm now candidate kind summary, .keep s, by simp⟩
        (by simp [Stage.NoSubmission, hstage]) (by simp [Stage.NoSubmission]) hflight
  | listSubmitted now hstage =>
      refine h.worker (.idle rfl rfl (by simp)) (by simp [Stage.NoSubmission, hstage])
        (by simp [Stage.NoSubmission]) ?_
      intro c hc
      obtain ⟨hmem, hstatus⟩ := EventTable.listSubmitted_spec hc
      exact h.heldEvent hmem hstatus
  | listSubmittedRooms now submitted hstage =>
      rw [hstage] at hflight
      refine h.worker (.idle rfl rfl (by simp)) (by simp [Stage.NoSubmission, hstage])
        (by simp [Stage.NoSubmission]) ⟨hflight, ?_⟩
      intro c hc
      obtain ⟨hmem, hstatus⟩ := RoomHistoryTable.listSubmitted_spec hc
      exact h.heldPurge hmem hstatus
  | pollKept outcome candidate submitted submittedRooms hstage hpoll =>
      rw [hstage] at hflight
      exact h.worker (.idle rfl rfl (by simp)) (by simp [Stage.NoSubmission, hstage])
        (by simp [Stage.NoSubmission])
        ⟨fun c hc => hflight.1 c (List.mem_cons_of_mem _ hc), hflight.2⟩
  | polled outcome candidate submitted submittedRooms write hstage hpoll =>
      have hdone := ownerDone_of_polled h.ids hstage hhonest hguard hpoll
      rw [hstage] at hflight
      have hheld := hflight.1 candidate List.mem_cons_self
      exact h.worker (.idle rfl rfl (by simp)) (by simp [Stage.NoSubmission, hstage])
        (by simp [Stage.NoSubmission])
        ⟨hheld.writeSafe hdone hpoll, fun c hc => hflight.1 c (List.mem_cons_of_mem _ hc),
          hflight.2⟩
  | pollRoomKept outcome candidate submittedRooms hstage hpoll =>
      rw [hstage] at hflight
      exact h.worker (.idle rfl rfl (by simp)) (by simp [Stage.NoSubmission, hstage])
        (by simp [Stage.NoSubmission])
        ⟨hflight.1, fun c hc => hflight.2 c (List.mem_cons_of_mem _ hc)⟩
  | polledRoom outcome candidate submittedRooms write hstage hpoll =>
      have hdone := ownerDone_of_polledRoom h.ids hstage hhonest hguard hpoll
      rw [hstage] at hflight
      have hheld := hflight.2 candidate List.mem_cons_self
      exact h.worker (.idle rfl rfl (by simp)) (by simp [Stage.NoSubmission, hstage])
        (by simp [Stage.NoSubmission])
        ⟨hheld.writeSafe hdone hpoll, by simp,
          fun c hc => hflight.2 c (List.mem_cons_of_mem _ hc)⟩
  | pollWrite now ok write submitted submittedRooms hstage =>
      rw [hstage] at hflight
      exact h.worker (hflight.1.calm now ok _) (by simp [Stage.NoSubmission, hstage])
        (by simp [Stage.NoSubmission]) hflight.2
  | pollDone now hstage =>
      exact h.worker (.idle rfl rfl (by simp)) (by simp [Stage.NoSubmission, hstage])
        (by simp [Stage.NoSubmission]) trivial
  | count now hstage =>
      exact h.worker (.idle rfl rfl (by simp)) (by simp [Stage.NoSubmission, hstage])
        (by simp [Stage.NoSubmission]) trivial
  | listDue now slots hstage =>
      have hfrom : s.stage.NoSubmission := by simp [Stage.NoSubmission, hstage]
      exact h.worker (.idle rfl rfl (by simp)) hfrom (by simp [Stage.NoSubmission])
        (dueBoundaries_due hfrom slots)
  | listDueRooms now slots due hstage =>
      rw [hstage] at hflight
      have hfrom : s.stage.NoSubmission := by simp [Stage.NoSubmission, hstage]
      simp only [singleFlight, hstage, List.all_eq_true, Bool.not_eq_true',
        List.contains_eq_mem, decide_eq_false_iff_not] at hguard
      exact h.worker (.idle rfl rfl (by simp)) hfrom (by simp [Stage.NoSubmission])
        (dueRoomHistory_due hfrom hflight hguard)
  | attempt now candidate due dueRooms hstage =>
      rw [hstage] at hflight
      refine h.worker ⟨⟨by simp, ?_⟩, .keep s, by simp⟩ (by simp [Stage.NoSubmission, hstage])
        (by simp [Stage.NoSubmission]) hflight
      intro r hr hstatus hrel
      exact absurd hstatus (hflight.head_notSubmitted r hr (of_decide_eq_true hrel))
  | attemptFailed now candidate due dueRooms hstage =>
      rw [hstage] at hflight
      exact h.worker (.idle rfl rfl (by simp)) (by simp [Stage.NoSubmission, hstage])
        (by simp [Stage.NoSubmission]) hflight.tail
  | attemptRoom now candidate dueRooms hstage =>
      rw [hstage] at hflight
      refine h.worker ⟨.keep s, ⟨by simp, ?_⟩, by simp⟩ (by simp [Stage.NoSubmission, hstage])
        (by simp [Stage.NoSubmission]) hflight
      intro r hr hstatus hrel
      exact absurd hstatus (hflight.headRoom_notSubmitted r hr (of_decide_eq_true hrel))
  | attemptRoomFailed now candidate dueRooms hstage =>
      rw [hstage] at hflight
      exact h.worker (.idle rfl rfl (by simp)) (by simp [Stage.NoSubmission, hstage])
        (by simp [Stage.NoSubmission]) hflight.tailRoom
  | prepared now candidate attempt request due dueRooms hstage hrequest =>
      rw [hstage] at hflight
      exact h.worker (.idle rfl rfl (by simp)) (by simp [Stage.NoSubmission, hstage])
        (by simp [Stage.NoSubmission]) hflight
  | sent outcome accepted candidate attempt request due dueRooms hstage =>
      simp only [honest, hstage] at hhonest
      simp only [singleFlight, hstage] at hguard
      exact h.sent hstage hhonest hguard _
  | sentRoom outcome accepted candidate attempt dueRooms hstage =>
      simp only [honest, hstage] at hhonest
      simp only [singleFlight, hstage] at hguard
      exact h.sentRoom hstage hhonest hguard _
  | failed _ candidate attempt error due dueRooms hstage =>
      have hdue : Due s (candidate :: due) dueRooms := by
        rcases hstage with hstage | hstage
        · rwa [hstage] at hflight
        · rwa [hstage] at hflight
      have hsafe := hdue.failure_safe s.cycle.config.maxAttempts attempt error
      refine h.worker (.idle rfl rfl (by simp)) ?_ (noSubmission_failure _ _ _ _ _ _)
        ⟨(settleSafe_iff hsafe.noSubmission).mpr hsafe, hdue.tail⟩
      rcases hstage with hstage | hstage <;> simp [Stage.NoSubmission, hstage]
  | probed now candidate attempt due dueRooms hstage hnewer =>
      rw [hstage] at hflight
      exact h.worker (.idle rfl rfl (by simp)) (by simp [Stage.NoSubmission, hstage])
        (by simp [Stage.NoSubmission, recordPurgeSucceeded, PurgeWrite.isSubmission])
        ⟨hflight.succeeded_safe, hflight.tail⟩
  | settle now ok write due dueRooms hstage =>
      simp only [singleFlight, hstage] at hguard
      exact h.settle hstage now hguard
  | ended now hstage =>
      refine h.worker (.idle rfl rfl (by simp)) ?_ (by simp [Stage.NoSubmission]) trivial
      rcases hstage with ⟨submitted, hstage⟩ | hstage | ⟨candidate, kind, summary, queue, hstage⟩ <;>
        simp [Stage.NoSubmission, hstage]

theorem flightInv_initial : FlightInv PurgeState.initial where
  ids := List.nodup_nil
  owned := by simp [PurgeState.initial]
  single := by
    intro room slot task slot' task' hocc
    cases hocc with
    | event hr hstatus => exact absurd hr (Table.not_mem_empty _)
    | purge hr hstatus => exact absurd hr (Table.not_mem_empty _)
    | pending hp => exact absurd hp (by intro hp; cases hp <;> contradiction)
  stage := trivial

end Steps

/-! ## Every run -/

/-- In every run under an honest homeserver whose steps meet `singleFlight`, a room has at most
one unfinished task. -/
theorem one_purge_in_flight {codec : PurgeCodec} {actions : List Action} {s : PurgeState}
    (hguard : Transition.Meets (step codec)
      (fun s a => honest codec s a = true ∧ singleFlight codec s a = true) PurgeState.initial actions)
    (hrun : Transition.run (step codec) PurgeState.initial actions = some s) (room : String) :
    (unfinishedIn s.tasks room).length ≤ 1 := by
  have hinv : FlightInv s := by
    refine Transition.run_invariant ?_ flightInv_initial hguard hrun
    intro s a next hinv hok hstep
    obtain ⟨p, hplan, rfl⟩ := step_spec hstep
    exact flightInv_planned hinv hplan hok.1 hok.2
  exact hinv.unfinished_le_one room

/-! ## Two runs -/

namespace FlightExample

def codec : PurgeCodec where
  decodeSubmit := fun body =>
    if body = "\x7b\"purge_id\":\"p2\"\x7d" then .ok ⟨"p2"⟩
    else PollExample.codec.decodeSubmit body
  decodeStatus := PollExample.codec.decodeStatus

/-- A cycle up to the lists of due rooms, with nothing to poll. -/
def cycle (now : Int) : List Action :=
  .begin EventPurgeConfig.default now false :: List.replicate 9 (.advance now)

def accepted (body purgeId : String) : Action := .submit (.response 200 (.ok body)) (some purgeId)

def boundary : List Action :=
  [.ingest (.enqueued 10 1 1 "whatsapp" "!r:s" "$e1" true)]

/-- The boundary is submitted and its task is running. -/
def running : List Action :=
  boundary ++ cycle 200 ++
  [.write 200 true, .advance 200, accepted "\x7b\"purge_id\":\"p1\"\x7d" "p1", .write 200 true]

/-- A census names the room of the boundary, and one cycle submits both. -/
def both : List Action :=
  boundary ++ [.census (.portalCensus 1 "whatsapp" ["!r:s"] 50 50)] ++ cycle 200 ++
  [.write 200 true, .advance 200, accepted "\x7b\"purge_id\":\"p1\"\x7d" "p1", .write 200 true,
    .write 200 true, accepted "\x7b\"purge_id\":\"p2\"\x7d" "p2"]

def reached (actions : List Action) : PurgeState :=
  Transition.final (step codec) PurgeState.initial actions

end FlightExample

open FlightExample in
theorem one_purge_in_flight_while_running :
    (unfinishedIn (reached running).tasks "!r:s").length ≤ 1 :=
  @one_purge_in_flight codec running _ (by decide) (Transition.run_eq_final (by decide)) "!r:s"

open FlightExample in
/-- Both due lists are read before either is submitted, so a room in both gets two tasks. -/
theorem two_purges_in_flight :
    ¬ ∀ (codec : PurgeCodec) (actions : List Action) (s : PurgeState),
      Transition.Meets (step codec) (fun s a => honest codec s a = true) PurgeState.initial
        actions →
      Transition.run (step codec) PurgeState.initial actions = some s →
      ∀ room, (unfinishedIn s.tasks room).length ≤ 1 := by
  intro h
  have hle := h codec both (reached both) (by decide)
    (Transition.run_eq_final (by decide)) "!r:s"
  have htwo : (unfinishedIn (reached both).tasks "!r:s").length = 2 := by decide
  omega

end Lightfriend.Purge
