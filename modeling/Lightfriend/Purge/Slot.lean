import Lightfriend.Purge.Homeserver

/-! # The slots of a room

Every unfinished task of the homeserver is answered for by a slot: a submitted
row of either queue, or the row whose task id the worker is about to record. A
room has at most one slot, so it has at most one unfinished task. A calm step
submits nothing and frees only slots whose task is finished, so it keeps that.
-/

namespace Lightfriend.Purge

/-! ## Slots -/

/-- The row whose task id is about to be recorded. -/
inductive Pending (s : PurgeState) : String → String ⊕ Int → Option String → Prop
  | event {r : CleanupEvent} {purgeId : String} {due : List CleanupEvent}
      {dueRooms : List RoomHistoryPurge} (hr : r ∈ s.events)
      (hstage : s.stage = .settle (.eventSubmitted r.eventId purgeId) due dueRooms) :
      Pending s r.roomId (.inl r.eventId) (some purgeId)
  | purge {r : RoomHistoryPurge} {attempt cutoffTs : Int} {purgeId : String}
      {due : List CleanupEvent} {dueRooms : List RoomHistoryPurge} (hr : r ∈ s.rooms)
      (hstage : s.stage = .settle (.roomSubmitted r.id attempt cutoffTs purgeId) due dueRooms) :
      Pending s r.roomId (.inr r.id) (some purgeId)

theorem Pending.of_event {s : PurgeState} {eventId purgeId : String} {due : List CleanupEvent}
    {dueRooms : List RoomHistoryPurge}
    (hstage : s.stage = .settle (.eventSubmitted eventId purgeId) due dueRooms) {r : CleanupEvent}
    (hr : r ∈ s.events) (hid : r.eventId = eventId) :
    Pending s r.roomId (.inl eventId) (some purgeId) := by
  rw [← hid] at hstage ⊢
  exact .event hr hstage

theorem Pending.of_purge {s : PurgeState} {id attempt cutoffTs : Int} {purgeId : String}
    {due : List CleanupEvent} {dueRooms : List RoomHistoryPurge}
    (hstage : s.stage = .settle (.roomSubmitted id attempt cutoffTs purgeId) due dueRooms)
    {r : RoomHistoryPurge} (hr : r ∈ s.rooms) (hid : r.id = id) :
    Pending s r.roomId (.inr id) (some purgeId) := by
  rw [← hid] at hstage ⊢
  exact .purge hr hstage

theorem Pending.event_spec {s : PurgeState} {room : String} {slot : String ⊕ Int}
    {task : Option String} (h : Pending s room slot task) {eventId purgeId : String}
    {due : List CleanupEvent} {dueRooms : List RoomHistoryPurge}
    (hstage : s.stage = .settle (.eventSubmitted eventId purgeId) due dueRooms) :
    slot = .inl eventId ∧ task = some purgeId ∧
      ∃ r ∈ s.events, r.eventId = eventId ∧ r.roomId = room := by
  cases h with
  | event hr hs =>
      rw [hstage] at hs
      cases hs
      exact ⟨rfl, rfl, _, hr, rfl, rfl⟩
  | purge hr hs =>
      rw [hstage] at hs
      cases hs

theorem Pending.purge_spec {s : PurgeState} {room : String} {slot : String ⊕ Int}
    {task : Option String} (h : Pending s room slot task) {id attempt cutoffTs : Int}
    {purgeId : String} {due : List CleanupEvent} {dueRooms : List RoomHistoryPurge}
    (hstage : s.stage = .settle (.roomSubmitted id attempt cutoffTs purgeId) due dueRooms) :
    slot = .inr id ∧ task = some purgeId ∧ ∃ r ∈ s.rooms, r.id = id ∧ r.roomId = room := by
  cases h with
  | event hr hs =>
      rw [hstage] at hs
      cases hs
  | purge hr hs =>
      rw [hstage] at hs
      cases hs
      exact ⟨rfl, rfl, _, hr, rfl, rfl⟩

/-- A slot of a room, with the task it answers for. -/
inductive Occupies (s : PurgeState) : String → String ⊕ Int → Option String → Prop
  | event {r : CleanupEvent} (hr : r ∈ s.events) (h : r.status = .purgeSubmitted) :
      Occupies s r.roomId (.inl r.eventId) r.lastAdminCommandEventId
  | purge {r : RoomHistoryPurge} (hr : r ∈ s.rooms) (h : r.status = .submitted) :
      Occupies s r.roomId (.inr r.id) r.purgeId
  | pending {room : String} {slot : String ⊕ Int} {task : Option String}
      (h : Pending s room slot task) : Occupies s room slot task

def Free (s : PurgeState) (room : String) : Prop := ∀ slot task, ¬ Occupies s room slot task

/-- A slot may be freed: its task, if it has one, is finished. -/
def OwnerDone (tasks : List PurgeTask) : Option String → Prop
  | none => True
  | some purgeId => TaskFinished tasks purgeId

instance (tasks : List PurgeTask) : ∀ task, Decidable (OwnerDone tasks task)
  | none => inferInstanceAs (Decidable True)
  | some purgeId => inferInstanceAs (Decidable (TaskFinished tasks purgeId))

/-! ## The condition on a step -/

def PurgeWrite.isSubmission : PurgeWrite → Bool
  | eventSubmitted _ _ => true
  | roomSubmitted _ _ _ _ => true
  | _ => false

/-- The answer of an accepted submission arrives. -/
def answered (codec : PurgeCodec) (outcome : HttpOutcome) (accepted : Option String) : Bool :=
  match accepted, parseSubmitResponse codec outcome with
  | some _, .error _ => false
  | _, _ => true

/-- The poll named one of the statuses of the protocol, or the task is gone. -/
def namesOutcome (codec : PurgeCodec) (outcome : HttpOutcome) : Bool :=
  match parseStatusResponse codec outcome with
  | .ok status => ["complete", "failed", "active"].contains status.status
  | .error error => purgeTaskStatusIsMissing error.status

/-- The steps after which no slot was freed early and no room was listed twice: a statement of
the handler leaves submitted rows with a running task alone; no room is due in both queues; the
answer of an accepted submission arrives and is recorded; and while its task runs, an event row
is not polled without a named outcome, nor a room-history row with an unknown status. -/
def singleFlight (codec : PurgeCodec) (s : PurgeState) (a : Action) : Bool :=
  match a, s.stage with
  | .ingest stmt, _ =>
      s.events.rows.all (fun r =>
        !(decide (r.status = .purgeSubmitted) && stmt.releases r) ||
          decide (OwnerDone s.tasks r.lastAdminCommandEventId))
  | .advance _, .listDueRooms slots due =>
      (s.dueRoomHistory slots).all (fun r => !(due.map CleanupEvent.roomId).contains r.roomId)
  | .submit outcome accepted, .send _ _ _ _ _ => answered codec outcome accepted
  | .submit outcome accepted, .sendRoom _ _ _ => answered codec outcome accepted
  | .poll outcome, .poll (candidate :: _) _ =>
      namesOutcome codec outcome ||
        decide (OwnerDone s.tasks candidate.lastAdminCommandEventId)
  | .poll outcome, .poll [] (candidate :: _) =>
      (namesOutcome codec outcome || !hasVerdict codec outcome) ||
        decide (OwnerDone s.tasks candidate.purgeId)
  | .write _ ok, .settle write _ _ => ok || !write.isSubmission
  | .stop, .settle write _ _ => !write.isSubmission
  | _, _ => true

theorem singleFlight_poll {codec : PurgeCodec} {s : PurgeState} {candidate : CleanupEvent}
    {submitted : List CleanupEvent} {submittedRooms : List RoomHistoryPurge}
    (hstage : s.stage = .poll (candidate :: submitted) submittedRooms) (outcome : HttpOutcome) :
    singleFlight codec s (.poll outcome) = true ↔
      namesOutcome codec outcome = true ∨
        OwnerDone s.tasks candidate.lastAdminCommandEventId := by
  simp only [singleFlight, hstage, Bool.or_eq_true, decide_eq_true_eq]

theorem singleFlight_pollRoom {codec : PurgeCodec} {s : PurgeState} {candidate : RoomHistoryPurge}
    {submittedRooms : List RoomHistoryPurge}
    (hstage : s.stage = .poll [] (candidate :: submittedRooms)) (outcome : HttpOutcome) :
    singleFlight codec s (.poll outcome) = true ↔
      (namesOutcome codec outcome = true ∨ hasVerdict codec outcome = false) ∨
        OwnerDone s.tasks candidate.purgeId := by
  simp only [singleFlight, hstage, Bool.or_eq_true, Bool.not_eq_true', decide_eq_true_eq]

/-! ## The invariant -/

def NotSubmitted (events : EventTable) (eventId : String) : Prop :=
  ∀ r ∈ events, r.eventId = eventId → r.status ≠ .purgeSubmitted

/-- A candidate about to be polled is the only submitted event row of its room. -/
structure HeldEvent (events : EventTable) (c : CleanupEvent) : Prop where
  task : ∀ r ∈ events, r.status = .purgeSubmitted → r.eventId = c.eventId →
    r.lastAdminCommandEventId = c.lastAdminCommandEventId
  alone : ∀ r ∈ events, r.status = .purgeSubmitted → r.roomId = c.roomId → r.eventId = c.eventId

structure HeldPurge (rooms : RoomHistoryTable) (c : RoomHistoryPurge) : Prop where
  row : ∃ r ∈ rooms, r.id = c.id ∧ r.roomId = c.roomId
  task : ∀ r ∈ rooms, r.status = .submitted → r.id = c.id → r.purgeId = c.purgeId
  alone : ∀ r ∈ rooms, r.status = .submitted → r.roomId = c.roomId → r.id = c.id

/-- Candidates about to be submitted: their rooms are distinct and free. -/
structure Due (s : PurgeState) (due : List CleanupEvent) (dueRooms : List RoomHistoryPurge) :
    Prop where
  rows : ∀ c ∈ due, ∃ r ∈ s.events, r.eventId = c.eventId ∧ r.roomId = c.roomId
  purges : ∀ c ∈ dueRooms, ∃ r ∈ s.rooms, r.id = c.id ∧ r.roomId = c.roomId
  free : ∀ room ∈ due.map CleanupEvent.roomId ++ dueRooms.map RoomHistoryPurge.roomId, Free s room
  nodup : (due.map CleanupEvent.roomId ++ dueRooms.map RoomHistoryPurge.roomId).Nodup

/-- A pending write frees only slots whose task is finished. -/
def WriteSafe (s : PurgeState) : PurgeWrite → Prop
  | .eventAttempt eventId _ => ∀ r ∈ s.events, r.status = .purgeSubmitted →
      r.eventId = eventId → OwnerDone s.tasks r.lastAdminCommandEventId
  | .eventRetrying eventId _ _ => ∀ r ∈ s.events, r.status = .purgeSubmitted →
      r.eventId = eventId → OwnerDone s.tasks r.lastAdminCommandEventId
  | .eventExhausted eventId _ _ => ∀ r ∈ s.events, r.status = .purgeSubmitted →
      r.eventId = eventId → OwnerDone s.tasks r.lastAdminCommandEventId
  | .eventSucceededThrough _ roomId _ => ∀ r ∈ s.events, r.status = .purgeSubmitted →
      r.roomId = roomId → OwnerDone s.tasks r.lastAdminCommandEventId
  | .roomAttempt id _ => ∀ r ∈ s.rooms, r.status = .submitted → r.id = id →
      OwnerDone s.tasks r.purgeId
  | .roomFailure id _ _ _ => ∀ r ∈ s.rooms, r.status = .submitted → r.id = id →
      OwnerDone s.tasks r.purgeId
  | .roomSucceeded id => ∃ row ∈ s.rooms, row.id = id ∧ ∀ r ∈ s.rooms, r.status = .submitted →
      r.roomId = row.roomId → OwnerDone s.tasks r.purgeId
  | .roomNoopSucceeded id _ _ => ∃ row ∈ s.rooms, row.id = id ∧ ∀ r ∈ s.rooms,
      r.status = .submitted → r.roomId = row.roomId → OwnerDone s.tasks r.purgeId
  | .eventSubmitted _ _ => False
  | .roomSubmitted _ _ _ _ => False

def SettleSafe (s : PurgeState) : PurgeWrite → Prop
  | .eventSubmitted eventId _ => ∃ r ∈ s.events, r.eventId = eventId
  | .roomSubmitted id _ _ _ => ∃ r ∈ s.rooms, r.id = id
  | write => WriteSafe s write

def StageFlight (s : PurgeState) : Stage → Prop
  | .backfill queue => ∀ c ∈ queue, NotSubmitted s.events c.eventId
  | .enqueue _ _ _ queue => ∀ c ∈ queue, NotSubmitted s.events c.eventId
  | .listSubmittedRooms submitted => ∀ c ∈ submitted, HeldEvent s.events c
  | .poll submitted submittedRooms =>
      (∀ c ∈ submitted, HeldEvent s.events c) ∧ ∀ c ∈ submittedRooms, HeldPurge s.rooms c
  | .pollWrite write submitted submittedRooms =>
      WriteSafe s write ∧ (∀ c ∈ submitted, HeldEvent s.events c) ∧
        ∀ c ∈ submittedRooms, HeldPurge s.rooms c
  | .listDueRooms _ due => Due s due []
  | .submit due dueRooms => Due s due dueRooms
  | .prepare candidate _ due dueRooms => Due s (candidate :: due) dueRooms
  | .send candidate _ _ due dueRooms => Due s (candidate :: due) dueRooms
  | .probe candidate _ due dueRooms => Due s (candidate :: due) dueRooms
  | .sendRoom candidate _ dueRooms => Due s [] (candidate :: dueRooms)
  | .settle write due dueRooms => SettleSafe s write ∧ Due s due dueRooms
  | _ => True

structure FlightInv (s : PurgeState) : Prop where
  ids : TaskIdsUnique s.tasks
  owned : ∀ task ∈ s.tasks, task.outcome = none →
    ∃ slot, Occupies s task.roomId slot (some task.purgeId)
  single : ∀ room slot task slot' task', Occupies s room slot task →
    Occupies s room slot' task' → slot = slot' ∧ task = task'
  stage : StageFlight s s.stage

/-- A room has at most one unfinished task. -/
theorem FlightInv.unfinished_le_one {s : PurgeState} (h : FlightInv s) (room : String) :
    (unfinishedIn s.tasks room).length ≤ 1 := by
  have hnodup : (unfinishedIn s.tasks room).Nodup :=
    (List.Nodup.of_map PurgeTask.purgeId h.ids).filter _
  have hsame : ∀ a ∈ unfinishedIn s.tasks room, ∀ b ∈ unfinishedIn s.tasks room, a = b := by
    intro a ha b hb
    simp only [unfinishedIn, List.mem_filter, Bool.and_eq_true, decide_eq_true_eq] at ha hb
    obtain ⟨ha, haroom, hanone⟩ := ha
    obtain ⟨hb, hbroom, hbnone⟩ := hb
    obtain ⟨slot, hslot⟩ := h.owned a ha hanone
    obtain ⟨slot', hslot'⟩ := h.owned b hb hbnone
    rw [haroom] at hslot
    rw [hbroom] at hslot'
    have htask := (h.single _ _ _ _ _ hslot hslot').2
    exact eq_of_purgeId_eq h.ids ha hb (Option.some.inj htask)
  match hlist : unfinishedIn s.tasks room with
  | [] => simp
  | [_] => simp
  | a :: b :: rest =>
      rw [hlist] at hnodup hsame
      have heq := hsame a (by simp) b (by simp)
      simp [heq] at hnodup

/-! ## Steps that submit nothing -/

theorem Free.event {s : PurgeState} {r : CleanupEvent} (h : Free s r.roomId) (hr : r ∈ s.events) :
    r.status ≠ .purgeSubmitted := fun hstatus => h _ _ (.event hr hstatus)

theorem Free.purge {s : PurgeState} {r : RoomHistoryPurge} (h : Free s r.roomId)
    (hr : r ∈ s.rooms) : r.status ≠ .submitted := fun hstatus => h _ _ (.purge hr hstatus)

/-- The worker is not about to record a task. -/
def Stage.NoSubmission (stage : Stage) : Prop :=
  ∀ write due dueRooms, stage = .settle write due dueRooms → write.isSubmission = false

theorem Stage.NoSubmission.not_pending {s : PurgeState} (h : s.stage.NoSubmission)
    {room : String} {slot : String ⊕ Int} {task : Option String} :
    ¬ Pending s room slot task := by
  intro hpending
  cases hpending with
  | event hr hstage => exact absurd (h _ _ _ hstage) (by simp [PurgeWrite.isSubmission])
  | purge hr hstage => exact absurd (h _ _ _ hstage) (by simp [PurgeWrite.isSubmission])

structure EventsCalm (s : PurgeState) (stmt : EventStatement) : Prop where
  submits : ∀ now eventId purgeId, stmt ≠ .submitted now eventId purgeId
  frees : ∀ r ∈ s.events, r.status = .purgeSubmitted → stmt.releases r = true →
    OwnerDone s.tasks r.lastAdminCommandEventId

structure RoomsCalm (s : PurgeState) (stmt : RoomStatement) : Prop where
  submits : ∀ now id n cutoffTs purgeId, stmt ≠ .submitted now id n cutoffTs purgeId
  frees : ∀ r ∈ s.rooms, r.status = .submitted → stmt.releases s.rooms r = true →
    OwnerDone s.tasks r.purgeId

/-- The step submits nothing, accepts no task and frees only slots whose task is finished. -/
structure Calm (s : PurgeState) (p : Plan) : Prop where
  events : EventsCalm s p.events
  rooms : RoomsCalm s p.rooms
  homeserver : ∀ task, p.homeserver ≠ .accept task

theorem EventsCalm.keep (s : PurgeState) : EventsCalm s .keep where
  submits := by simp
  frees := by simp [EventStatement.releases]

theorem RoomsCalm.keep (s : PurgeState) : RoomsCalm s .keep where
  submits := by simp
  frees := by simp [RoomStatement.releases]

theorem HomeserverEvent.unfinished_onTasks {tasks : List PurgeTask} {e : HomeserverEvent}
    (he : ∀ task, e ≠ .accept task) {task : PurgeTask} (htask : task ∈ e.onTasks tasks)
    (hnone : task.outcome = none) : task ∈ tasks := by
  cases e with
  | accept other => exact absurd rfl (he other)
  | finish purgeId outcome =>
      obtain ⟨old, hold, hset⟩ := List.mem_map.mp htask
      change finishTask purgeId outcome old = task at hset
      rw [← hset] at hnone ⊢
      rw [(outcome_of_finishTask hnone).2]
      exact hold
  | quiet => exact htask
  | reportClean report => exact htask

theorem ownerDone_onTasks {tasks : List PurgeTask} {e : HomeserverEvent}
    (he : ∀ task, e ≠ .accept task) {task : Option String} (h : OwnerDone tasks task) :
    OwnerDone (e.onTasks tasks) task := by
  cases task with
  | none => trivial
  | some purgeId =>
      intro after hafter hid hnone
      exact h after (e.unfinished_onTasks he hafter hnone) hid hnone

/-- What a calm step leaves of the queues: no new submitted row, and every row. -/
structure Shrinks (s s' : PurgeState) : Prop where
  events : ∀ r ∈ s'.events, r.status = .purgeSubmitted → r ∈ s.events
  rooms : ∀ r ∈ s'.rooms, r.status = .submitted → ∃ old ∈ s.rooms, old.status = .submitted ∧
    old.id = r.id ∧ old.roomId = r.roomId ∧ old.purgeId = r.purgeId
  eventRows : ∀ eventId roomId, (∃ r ∈ s.events, r.eventId = eventId ∧ r.roomId = roomId) →
    ∃ r ∈ s'.events, r.eventId = eventId ∧ r.roomId = roomId
  purgeRows : ∀ id roomId, (∃ r ∈ s.rooms, r.id = id ∧ r.roomId = roomId) →
    ∃ r ∈ s'.rooms, r.id = id ∧ r.roomId = roomId
  done : ∀ task, OwnerDone s.tasks task → OwnerDone s'.tasks task

theorem Calm.shrinks {s : PurgeState} {p : Plan} (h : Calm s p) : Shrinks s (s.perform p) where
  events := by
    intro r hr hstatus
    rcases EventStatement.submitted_of_apply hr hstatus with hold | ⟨now, purgeId, hstmt, _⟩
    · exact hold
    · exact absurd hstmt (h.events.submits _ _ _)
  rooms := by
    intro r hr hstatus
    rcases RoomStatement.submitted_of_apply hr hstatus with hold | ⟨now, n, cutoffTs, purgeId, hstmt, _⟩
    · exact hold
    · exact absurd hstmt (h.rooms.submits _ _ _ _ _)
  eventRows := fun _ _ hrow => EventStatement.exists_row_apply _ hrow
  purgeRows := fun _ _ hrow => RoomStatement.exists_row_apply _ hrow
  done := fun _ hdone => ownerDone_onTasks h.homeserver hdone

theorem NotSubmitted.shrinks {s s' : PurgeState} (h : Shrinks s s') {eventId : String}
    (hnot : NotSubmitted s.events eventId) : NotSubmitted s'.events eventId :=
  fun r hr hid hstatus => hnot r (h.events r hr hstatus) hid hstatus

theorem HeldEvent.shrinks {s s' : PurgeState} (h : Shrinks s s') {c : CleanupEvent}
    (hheld : HeldEvent s.events c) : HeldEvent s'.events c where
  task := fun r hr hstatus => hheld.task r (h.events r hr hstatus) hstatus
  alone := fun r hr hstatus => hheld.alone r (h.events r hr hstatus) hstatus

theorem HeldPurge.shrinks {s s' : PurgeState} (h : Shrinks s s') {c : RoomHistoryPurge}
    (hheld : HeldPurge s.rooms c) : HeldPurge s'.rooms c where
  row := h.purgeRows _ _ hheld.row
  task := by
    intro r hr hstatus hid
    obtain ⟨old, hold, hostatus, hoid, _, hopurge⟩ := h.rooms r hr hstatus
    rw [← hopurge]
    exact hheld.task old hold hostatus (hoid.trans hid)
  alone := by
    intro r hr hstatus hroom
    obtain ⟨old, hold, hostatus, hoid, horoom, _⟩ := h.rooms r hr hstatus
    rw [← hoid]
    exact hheld.alone old hold hostatus (horoom.trans hroom)

theorem WriteSafe.shrinks {s s' : PurgeState} (h : Shrinks s s') {write : PurgeWrite}
    (hsafe : WriteSafe s write) : WriteSafe s' write := by
  have hevents : ∀ q : CleanupEvent → Prop,
      (∀ r ∈ s.events, r.status = .purgeSubmitted → q r →
        OwnerDone s.tasks r.lastAdminCommandEventId) →
      ∀ r ∈ s'.events, r.status = .purgeSubmitted → q r →
        OwnerDone s'.tasks r.lastAdminCommandEventId :=
    fun q hq r hr hstatus hqr => h.done _ (hq r (h.events r hr hstatus) hstatus hqr)
  have hrooms : ∀ q : Int → String → Prop,
      (∀ r ∈ s.rooms, r.status = .submitted → q r.id r.roomId → OwnerDone s.tasks r.purgeId) →
      ∀ r ∈ s'.rooms, r.status = .submitted → q r.id r.roomId →
        OwnerDone s'.tasks r.purgeId := by
    intro q hq r hr hstatus hqr
    obtain ⟨old, hold, hostatus, hoid, horoom, hopurge⟩ := h.rooms r hr hstatus
    rw [← hopurge]
    rw [← hoid, ← horoom] at hqr
    exact h.done _ (hq old hold hostatus hqr)
  have hsucceeded : ∀ id, (∃ row ∈ s.rooms, row.id = id ∧ ∀ r ∈ s.rooms, r.status = .submitted →
        r.roomId = row.roomId → OwnerDone s.tasks r.purgeId) →
      ∃ row ∈ s'.rooms, row.id = id ∧ ∀ r ∈ s'.rooms, r.status = .submitted →
        r.roomId = row.roomId → OwnerDone s'.tasks r.purgeId := by
    intro id hrow
    obtain ⟨row, hrow, hid, hall⟩ := hrow
    obtain ⟨row', hrow', hid', hroom'⟩ := h.purgeRows id row.roomId ⟨row, hrow, hid, rfl⟩
    refine ⟨row', hrow', hid', ?_⟩
    rw [hroom']
    exact hrooms (fun _ room => room = row.roomId) hall
  cases write with
  | eventAttempt eventId n => exact hevents (fun r => r.eventId = eventId) hsafe
  | eventRetrying eventId n error => exact hevents (fun r => r.eventId = eventId) hsafe
  | eventExhausted eventId n error => exact hevents (fun r => r.eventId = eventId) hsafe
  | eventSucceededThrough boundary roomId enqueuedAt =>
      exact hevents (fun r => r.roomId = roomId) hsafe
  | roomAttempt id n => exact hrooms (fun i _ => i = id) hsafe
  | roomFailure id n maxAttempts error => exact hrooms (fun i _ => i = id) hsafe
  | roomSucceeded id => exact hsucceeded id hsafe
  | roomNoopSucceeded id n cutoffTs => exact hsucceeded id hsafe
  | eventSubmitted eventId purgeId => exact hsafe
  | roomSubmitted id n cutoffTs purgeId => exact hsafe

theorem settleSafe_iff {s : PurgeState} {write : PurgeWrite} (h : write.isSubmission = false) :
    SettleSafe s write ↔ WriteSafe s write := by
  cases write with
  | eventSubmitted eventId purgeId => cases h
  | roomSubmitted id n cutoffTs purgeId => cases h
  | _ => exact Iff.rfl

theorem SettleSafe.shrinks {s s' : PurgeState} (h : Shrinks s s') {write : PurgeWrite}
    (hsafe : SettleSafe s write) : SettleSafe s' write := by
  cases write with
  | eventSubmitted eventId purgeId =>
      obtain ⟨r, hr, hid⟩ := hsafe
      obtain ⟨r', hr', hid', _⟩ := h.eventRows eventId r.roomId ⟨r, hr, hid, rfl⟩
      exact ⟨r', hr', hid'⟩
  | roomSubmitted id n cutoffTs purgeId =>
      obtain ⟨r, hr, hid⟩ := hsafe
      obtain ⟨r', hr', hid', _⟩ := h.purgeRows id r.roomId ⟨r, hr, hid, rfl⟩
      exact ⟨r', hr', hid'⟩
  | _ =>
      rw [settleSafe_iff rfl] at hsafe ⊢
      exact hsafe.shrinks h

theorem Due.shrinks {s s' : PurgeState} (h : Shrinks s s')
    (hfree : ∀ room, Free s room → Free s' room) {due : List CleanupEvent}
    {dueRooms : List RoomHistoryPurge} (hdue : Due s due dueRooms) : Due s' due dueRooms where
  rows := fun c hc => h.eventRows _ _ (hdue.rows c hc)
  purges := fun c hc => h.purgeRows _ _ (hdue.purges c hc)
  free := fun room hroom => hfree room (hdue.free room hroom)
  nodup := hdue.nodup

theorem StageFlight.shrinks {s s' : PurgeState} (h : Shrinks s s')
    (hfree : ∀ room, Free s room → Free s' room) {stage : Stage} (hstage : StageFlight s stage) :
    StageFlight s' stage := by
  cases stage with
  | backfill queue => exact fun c hc => (hstage c hc).shrinks h
  | enqueue candidate kind summary queue => exact fun c hc => (hstage c hc).shrinks h
  | listSubmittedRooms submitted => exact fun c hc => (hstage c hc).shrinks h
  | poll submitted submittedRooms =>
      exact ⟨fun c hc => (hstage.1 c hc).shrinks h, fun c hc => (hstage.2 c hc).shrinks h⟩
  | pollWrite write submitted submittedRooms =>
      exact ⟨hstage.1.shrinks h, fun c hc => (hstage.2.1 c hc).shrinks h,
        fun c hc => (hstage.2.2 c hc).shrinks h⟩
  | listDueRooms slots due => exact Due.shrinks h hfree hstage
  | submit due dueRooms => exact Due.shrinks h hfree hstage
  | prepare candidate attempt due dueRooms => exact Due.shrinks h hfree hstage
  | send candidate attempt request due dueRooms => exact Due.shrinks h hfree hstage
  | probe candidate attempt due dueRooms => exact Due.shrinks h hfree hstage
  | sendRoom candidate attempt dueRooms => exact Due.shrinks h hfree hstage
  | settle write due dueRooms => exact ⟨hstage.1.shrinks h, hstage.2.shrinks h hfree⟩
  | _ => trivial

/-! ## Calm steps keep the invariant -/

theorem FlightInv.calm {s : PurgeState} {p : Plan} (h : FlightInv s) (hcalm : Calm s p)
    (hpending : ∀ room slot task, Pending (s.perform p) room slot task ↔ Pending s room slot task)
    (hstage : Shrinks s (s.perform p) → (∀ room, Free s room → Free (s.perform p) room) →
      StageFlight (s.perform p) p.stage) : FlightInv (s.perform p) := by
  have hshrinks := hcalm.shrinks
  have hback : ∀ room slot task, Occupies (s.perform p) room slot task →
      Occupies s room slot task := by
    intro room slot task hoccupies
    cases hoccupies with
    | event hr hstatus => exact .event (hshrinks.events _ hr hstatus) hstatus
    | purge hr hstatus =>
        obtain ⟨old, hold, hostatus, hid, hroom, hpurge⟩ := hshrinks.rooms _ hr hstatus
        rw [← hid, ← hroom, ← hpurge]
        exact .purge hold hostatus
    | pending hp => exact .pending ((hpending _ _ _).mp hp)
  constructor
  · refine HomeserverEvent.taskIdsUnique_onTasks h.ids ?_
    cases he : p.homeserver with
    | accept task => exact absurd he (hcalm.homeserver task)
    | _ => trivial
  · intro task htask hnone
    have hold := HomeserverEvent.unfinished_onTasks hcalm.homeserver htask hnone
    have hrunning : ¬ OwnerDone s.tasks (some task.purgeId) := fun hdone => hdone task hold rfl hnone
    obtain ⟨slot, hslot⟩ := h.owned task hold hnone
    generalize hroom : task.roomId = room at hslot ⊢
    generalize howner : some task.purgeId = owner at hslot hrunning ⊢
    cases hslot with
    | event hr hstatus =>
        have hkeep : p.events.releases _ = false :=
          Bool.eq_false_iff.mpr (fun hrel => hrunning (hcalm.events.frees _ hr hstatus hrel))
        refine ⟨_, .event (EventStatement.mem_apply.mpr (Or.inl ⟨_, hr, ?_⟩)) hstatus⟩
        exact (EventStatement.rewrite_of_submitted hr hstatus hkeep).symm
    | purge hr hstatus =>
        have hkeep : p.rooms.releases s.rooms _ = false :=
          Bool.eq_false_iff.mpr (fun hrel => hrunning (hcalm.rooms.frees _ hr hstatus hrel))
        obtain ⟨r', hr', hstatus', hid', hroom', hpurge'⟩ :=
          RoomStatement.submitted_apply hr hstatus hkeep
        rw [← hroom', ← hpurge']
        exact ⟨_, .purge hr' hstatus'⟩
    | pending hp => exact ⟨_, .pending ((hpending _ _ _).mpr hp)⟩
  · intro room slot task slot' task' hfirst hsecond
    exact h.single room slot task slot' task' (hback _ _ _ hfirst) (hback _ _ _ hsecond)
  · exact hstage hshrinks (fun room hfree slot task hocc => hfree slot task (hback _ _ _ hocc))

/-- The parties around the worker leave its stage as it is. -/
theorem FlightInv.outside {s : PurgeState} {p : Plan} (h : FlightInv s) (hcalm : Calm s p)
    (hsame : p.stage = s.stage) : FlightInv (s.perform p) := by
  have hshrinks := hcalm.shrinks
  have hsettle : ∀ write due dueRooms, s.stage = .settle write due dueRooms →
      SettleSafe s write := by
    intro write due dueRooms hstage
    have hflight := h.stage
    rw [hstage] at hflight
    exact hflight.1
  refine h.calm hcalm ?_ ?_
  · intro room slot task
    constructor
    · intro hpending
      cases hpending with
      | event hr hstage =>
          have hstage := hsame.symm.trans hstage
          obtain ⟨row, hrow, hid⟩ := hsettle _ _ _ hstage
          obtain ⟨row', hrow', hid', hroom'⟩ := hshrinks.eventRows _ _ ⟨row, hrow, hid, rfl⟩
          have heq := Table.eq_of_key_eq hr hrow' hid'.symm
          rw [heq, hroom', hid', ← hid]
          exact .event hrow (hstage.trans (by rw [hid]))
      | purge hr hstage =>
          have hstage := hsame.symm.trans hstage
          obtain ⟨row, hrow, hid⟩ := hsettle _ _ _ hstage
          obtain ⟨row', hrow', hid', hroom'⟩ := hshrinks.purgeRows _ _ ⟨row, hrow, hid, rfl⟩
          have heq := Table.eq_of_key_eq hr hrow' hid'.symm
          rw [heq, hroom', hid', ← hid]
          exact .purge hrow (hstage.trans (by rw [hid]))
    · intro hpending
      cases hpending with
      | event hr hstage =>
          obtain ⟨row', hrow', hid', hroom'⟩ := hshrinks.eventRows _ _ ⟨_, hr, rfl, rfl⟩
          rw [← hid', ← hroom']
          exact .event hrow' (hsame.trans (hstage.trans (by rw [hid'])))
      | purge hr hstage =>
          obtain ⟨row', hrow', hid', hroom'⟩ := hshrinks.purgeRows _ _ ⟨_, hr, rfl, rfl⟩
          rw [← hid', ← hroom']
          exact .purge hrow' (hsame.trans (hstage.trans (by rw [hid'])))
  · intro hshrinks hfree
    rw [hsame]
    exact h.stage.shrinks hshrinks hfree

/-- A calm step of the worker outside the recording of a submission. -/
theorem FlightInv.worker {s : PurgeState} {p : Plan} (h : FlightInv s) (hcalm : Calm s p)
    (hfrom : s.stage.NoSubmission) (hto : p.stage.NoSubmission)
    (hstage : StageFlight s p.stage) : FlightInv (s.perform p) := by
  refine h.calm hcalm (fun room slot task => ?_)
    (fun hshrinks hfree => hstage.shrinks hshrinks hfree)
  have hto' : (s.perform p).stage.NoSubmission := hto
  exact iff_of_false hto'.not_pending hfrom.not_pending

/-! ## What frees a slot -/

theorem Calm.idle {s : PurgeState} {p : Plan} (hevents : p.events = .keep)
    (hrooms : p.rooms = .keep) (hhomeserver : ∀ task, p.homeserver ≠ .accept task) : Calm s p where
  events := hevents ▸ EventsCalm.keep s
  rooms := hrooms ▸ RoomsCalm.keep s
  homeserver := hhomeserver

theorem WriteSafe.events {s : PurgeState} {write : PurgeWrite} (h : WriteSafe s write)
    (now : Int) : EventsCalm s (write.onEvents now) := by
  cases write with
  | eventAttempt eventId n =>
      exact ⟨by simp [PurgeWrite.onEvents], fun r hr hs hrel => h r hr hs (of_decide_eq_true hrel)⟩
  | eventRetrying eventId n error =>
      exact ⟨by simp [PurgeWrite.onEvents], fun r hr hs hrel => h r hr hs (of_decide_eq_true hrel)⟩
  | eventExhausted eventId n error =>
      exact ⟨by simp [PurgeWrite.onEvents], fun r hr hs hrel => h r hr hs (of_decide_eq_true hrel)⟩
  | eventSucceededThrough boundary roomId enqueuedAt =>
      refine ⟨by simp [PurgeWrite.onEvents], fun r hr hs hrel => h r hr hs ?_⟩
      simp only [PurgeWrite.onEvents, EventStatement.releases, EventTable.completes,
        Bool.and_eq_true, decide_eq_true_eq] at hrel
      exact hrel.1.1
  | eventSubmitted eventId purgeId => exact h.elim
  | _ => exact EventsCalm.keep s

theorem WriteSafe.rooms {s : PurgeState} {write : PurgeWrite} (h : WriteSafe s write)
    (now : Int) : RoomsCalm s (write.onRooms now) := by
  have hcovered : ∀ id cutoffTs, (∃ row ∈ s.rooms, row.id = id ∧ ∀ r ∈ s.rooms,
        r.status = .submitted → r.roomId = row.roomId → OwnerDone s.tasks r.purgeId) →
      ∀ completed, s.rooms.find? id = some completed → ∀ r ∈ s.rooms, r.status = .submitted →
        r.coveredBy completed.roomId cutoffTs = true → OwnerDone s.tasks r.purgeId := by
    intro id cutoffTs hrow completed hfind r hr hstatus hcov
    obtain ⟨row, hrow, hid, hall⟩ := hrow
    obtain ⟨hcompleted, hcid⟩ := Table.find?_eq_some_iff.mp hfind
    rw [Table.eq_of_key_eq hcompleted hrow (hcid.trans hid.symm)] at hcov
    simp only [RoomHistoryPurge.coveredBy, Bool.and_eq_true, decide_eq_true_eq] at hcov
    exact hall r hr hstatus hcov.1
  cases write with
  | roomAttempt id n =>
      exact ⟨by simp [PurgeWrite.onRooms], fun r hr hs hrel => h r hr hs (of_decide_eq_true hrel)⟩
  | roomFailure id n maxAttempts error =>
      exact ⟨by simp [PurgeWrite.onRooms], fun r hr hs hrel => h r hr hs (of_decide_eq_true hrel)⟩
  | roomSucceeded id =>
      refine ⟨by simp [PurgeWrite.onRooms], fun r hr hs hrel => ?_⟩
      simp only [PurgeWrite.onRooms, RoomStatement.releases] at hrel
      cases hfind : s.rooms.find? id with
      | none => simp [hfind] at hrel
      | some completed =>
          rw [hfind] at hrel
          exact hcovered id _ h completed hfind r hr hs hrel
  | roomNoopSucceeded id n cutoffTs =>
      refine ⟨by simp [PurgeWrite.onRooms], fun r hr hs hrel => ?_⟩
      simp only [PurgeWrite.onRooms, RoomStatement.releases] at hrel
      cases hfind : s.rooms.find? id with
      | none => simp [hfind] at hrel
      | some completed =>
          rw [hfind] at hrel
          exact hcovered id _ h completed hfind r hr hs hrel
  | roomSubmitted id n cutoffTs purgeId => exact h.elim
  | _ => exact RoomsCalm.keep s

/-- A write that frees only finished slots makes a calm step, executed or not. -/
theorem WriteSafe.calm {s : PurgeState} {write : PurgeWrite} (h : WriteSafe s write) (now : Int)
    (ok : Bool) (stage : Stage) :
    Calm s { events := if ok then write.onEvents now else .keep
             rooms := if ok then write.onRooms now else .keep
             stage := stage } := by
  cases ok with
  | true => exact ⟨h.events now, h.rooms now, by simp⟩
  | false => exact Calm.idle rfl rfl (by simp)

/-! ## Polls -/

theorem TaskCompleted.finished {tasks : List PurgeTask} (hids : TaskIdsUnique tasks)
    {purgeId : String} (h : TaskCompleted tasks purgeId) : TaskFinished tasks purgeId := by
  obtain ⟨task, htask, hid, hdone⟩ := h
  intro other hother hoid hnone
  rw [eq_of_purgeId_eq hids hother htask (hoid.trans hid.symm), hdone] at hnone
  cases hnone

theorem ownerDone_of_named {codec : PurgeCodec} {tasks : List PurgeTask} {task : Option String}
    {outcome : HttpOutcome} (hids : TaskIdsUnique tasks)
    (hhonest : honestPoll codec tasks task outcome = true)
    (hnamed : namesOutcome codec outcome = true)
    (hactive : reportsStatus codec "active" outcome = false) : OwnerDone tasks task := by
  cases task with
  | none => trivial
  | some purgeId =>
      cases hparse : parseStatusResponse codec outcome with
      | error error =>
          simp only [namesOutcome, honestPoll, hparse] at hnamed hhonest
          show TaskFinished tasks purgeId
          simpa [hnamed] using hhonest
      | ok status =>
          rw [reportsStatus_of_ok hparse, beq_eq_false_iff_ne] at hactive
          simp only [namesOutcome, honestPoll, hparse] at hnamed hhonest
          by_cases hcomplete : status.status = "complete"
          · rw [if_pos hcomplete, decide_eq_true_eq] at hhonest
            exact hhonest.finished hids
          · have hfailed : status.status = "failed" := by
              simpa [hcomplete, hactive] using hnamed
            rw [if_neg hcomplete, if_pos hfailed, decide_eq_true_eq] at hhonest
            exact hhonest

theorem HeldEvent.writeSafe {s : PurgeState} {c : CleanupEvent} (h : HeldEvent s.events c)
    (hdone : OwnerDone s.tasks c.lastAdminCommandEventId) {codec : PurgeCodec} {maxAttempts : Int}
    {outcome : HttpOutcome} {write : PurgeWrite}
    (hpoll : pollSubmittedPurge codec maxAttempts c outcome = some write) : WriteSafe s write := by
  have hrow : ∀ r ∈ s.events, r.status = .purgeSubmitted → r.eventId = c.eventId →
      OwnerDone s.tasks r.lastAdminCommandEventId := by
    intro r hr hstatus hid
    rw [h.task r hr hstatus hid]
    exact hdone
  rcases pollSubmittedPurge_spec hpoll with ⟨rfl, _, _⟩ | ⟨error, rfl⟩
  · exact fun r hr hstatus hroom => hrow r hr hstatus (h.alone r hr hstatus hroom)
  · unfold recordPurgeFailure
    split
    · exact hrow
    · exact hrow

theorem HeldPurge.writeSafe {s : PurgeState} {c : RoomHistoryPurge} (h : HeldPurge s.rooms c)
    (hdone : OwnerDone s.tasks c.purgeId) {codec : PurgeCodec} {maxAttempts : Int}
    {outcome : HttpOutcome} {write : PurgeWrite}
    (hpoll : pollSubmittedRoomHistoryPurge codec maxAttempts c outcome = some write) :
    WriteSafe s write := by
  have hrow : ∀ r ∈ s.rooms, r.status = .submitted → r.id = c.id → OwnerDone s.tasks r.purgeId := by
    intro r hr hstatus hid
    rw [h.task r hr hstatus hid]
    exact hdone
  rcases pollSubmittedRoomHistoryPurge_spec hpoll with ⟨rfl, _, _⟩ | ⟨error, rfl⟩
  · obtain ⟨row, hmem, hid, hroom⟩ := h.row
    exact ⟨row, hmem, hid, fun r hr hstatus hr' =>
      hrow r hr hstatus (h.alone r hr hstatus (hr'.trans hroom))⟩
  · exact hrow

/-! ## Selections -/

theorem notSubmitted_of_awaitsAudit {t : EventTable} {recheckCutoff : Int}
    {c : EventTable.HistoricalBackfillCandidate}
    (h : EventTable.awaitsAudit t recheckCutoff c = true) : NotSubmitted t c.eventId := by
  intro r hr hid hstatus
  have hfind : t.find? c.eventId = some r := Table.find?_eq_some_iff.mpr ⟨hr, hid⟩
  simp [EventTable.awaitsAudit, hfind, hstatus] at h

theorem backfillCandidates_notSubmitted {s : PurgeState} :
    ∀ c ∈ s.backfillCandidates, NotSubmitted s.events c.eventId := by
  intro c hc
  have hmem := List.mem_of_mem_take hc
  rw [mem_orderBy, List.mem_filter, Bool.and_eq_true] at hmem
  exact notSubmitted_of_awaitsAudit hmem.2.1

theorem FlightInv.heldEvent {s : PurgeState} (h : FlightInv s) {c : CleanupEvent}
    (hc : c ∈ s.events) (hstatus : c.status = .purgeSubmitted) : HeldEvent s.events c where
  task := by
    intro r hr _ hid
    rw [Table.eq_of_key_eq hr hc hid]
  alone := by
    intro r hr hrs hroom
    have hslot : Occupies s c.roomId (.inl r.eventId) r.lastAdminCommandEventId :=
      hroom ▸ .event hr hrs
    exact Sum.inl.inj (h.single _ _ _ _ _ hslot (.event hc hstatus)).1

theorem FlightInv.heldPurge {s : PurgeState} (h : FlightInv s) {c : RoomHistoryPurge}
    (hc : c ∈ s.rooms) (hstatus : c.status = .submitted) : HeldPurge s.rooms c where
  row := ⟨c, hc, rfl, rfl⟩
  task := by
    intro r hr _ hid
    rw [Table.eq_of_key_eq hr hc hid]
  alone := by
    intro r hr hrs hroom
    have hslot : Occupies s c.roomId (.inr r.id) r.purgeId := hroom ▸ .purge hr hrs
    exact Sum.inr.inj (h.single _ _ _ _ _ hslot (.purge hc hstatus)).1

theorem dueBoundaries_due {s : PurgeState} (hstage : s.stage.NoSubmission) (slots : Nat) :
    Due s (s.dueBoundaries slots) [] where
  rows := fun c hc => ⟨c, (EventTable.listDueRoomBoundaries_spec hc).1, rfl, rfl⟩
  purges := by simp
  free := by
    intro room hroom slot task hocc
    simp only [List.map_nil, List.append_nil, List.mem_map] at hroom
    obtain ⟨c, hc, rfl⟩ := hroom
    obtain ⟨_, _, _, hactive, hrows⟩ := EventTable.listDueRoomBoundaries_spec hc
    generalize hroom : c.roomId = room at hocc hactive hrows
    cases hocc with
    | event hr hstatus => exact (hrows _ hr rfl).2 hstatus
    | purge hr hstatus =>
        exact hactive (RoomHistoryTable.mem_activeRooms.mpr ⟨_, hr, hstatus, rfl⟩)
    | pending hp => exact hstage.not_pending hp
  nodup := by
    rw [List.map_nil, List.append_nil]
    exact EventTable.listDueRoomBoundaries_nodup _ _ _ _

theorem dueRoomHistory_due {s : PurgeState} (hstage : s.stage.NoSubmission) {slots : Nat}
    {due : List CleanupEvent} (hdue : Due s due [])
    (hapart : ∀ r ∈ s.dueRoomHistory slots, r.roomId ∉ due.map CleanupEvent.roomId) :
    Due s due (s.dueRoomHistory slots) where
  rows := hdue.rows
  purges := fun c hc => ⟨c, (RoomHistoryTable.listDue_spec hc).1, rfl, rfl⟩
  free := by
    intro room hroom
    rcases List.mem_append.mp hroom with hroom | hroom
    · exact hdue.free room (List.mem_append_left _ hroom)
    · intro slot task hocc
      obtain ⟨c, hc, rfl⟩ := List.mem_map.mp hroom
      obtain ⟨_, _, hactive, hbusy⟩ := RoomHistoryTable.listDue_spec hc
      generalize c.roomId = room at hocc hactive hbusy
      cases hocc with
      | event hr hstatus =>
          refine hbusy (List.mem_map.mpr ⟨_, List.mem_filter.mpr ⟨hr, ?_⟩, rfl⟩)
          simp [hstatus]
      | purge hr hstatus =>
          exact hactive (RoomHistoryTable.mem_activeRooms.mpr ⟨_, hr, hstatus, rfl⟩)
      | pending hp => exact hstage.not_pending hp
  nodup := by
    have hfirst : (due.map CleanupEvent.roomId).Nodup := by simpa using hdue.nodup
    refine List.nodup_append.mpr ⟨hfirst, RoomHistoryTable.listDue_nodup _ _ _, ?_⟩
    intro a ha b hb hab
    obtain ⟨r, hr, rfl⟩ := List.mem_map.mp hb
    exact hapart r hr (hab ▸ ha)

/-! ## Candidates about to be submitted -/

section Due

variable {s : PurgeState} {c : CleanupEvent} {p : RoomHistoryPurge} {due : List CleanupEvent}
  {dueRooms : List RoomHistoryPurge}

theorem Due.tail (h : Due s (c :: due) dueRooms) : Due s due dueRooms where
  rows := fun d hd => h.rows d (List.mem_cons_of_mem _ hd)
  purges := h.purges
  free := fun room hroom => h.free room (List.mem_cons_of_mem _ hroom)
  nodup := (List.nodup_cons.mp h.nodup).2

theorem Due.tailRoom (h : Due s [] (p :: dueRooms)) : Due s [] dueRooms where
  rows := by simp
  purges := fun d hd => h.purges d (List.mem_cons_of_mem _ hd)
  free := fun room hroom => h.free room (List.mem_cons_of_mem _ hroom)
  nodup := (List.nodup_cons.mp h.nodup).2

theorem Due.head_free (h : Due s (c :: due) dueRooms) : Free s c.roomId :=
  h.free _ (by simp)

theorem Due.headRoom_free (h : Due s [] (p :: dueRooms)) : Free s p.roomId :=
  h.free _ (by simp)

theorem Due.head_notSubmitted (h : Due s (c :: due) dueRooms) : NotSubmitted s.events c.eventId := by
  intro r hr hid
  obtain ⟨row, hrow, hrid, hroom⟩ := h.rows c List.mem_cons_self
  have heq := Table.eq_of_key_eq hr hrow (hid.trans hrid.symm)
  have hfree := h.head_free
  rw [← hroom, ← heq] at hfree
  exact hfree.event hr

theorem Due.headRoom_notSubmitted (h : Due s [] (p :: dueRooms)) :
    ∀ r ∈ s.rooms, r.id = p.id → r.status ≠ .submitted := by
  intro r hr hid
  obtain ⟨row, hrow, hrid, hroom⟩ := h.purges p List.mem_cons_self
  have heq := Table.eq_of_key_eq hr hrow (hid.trans hrid.symm)
  have hfree := h.headRoom_free
  rw [← hroom, ← heq] at hfree
  exact hfree.purge hr

theorem Due.failure_safe (h : Due s (c :: due) dueRooms) (maxAttempts attempt : Int)
    (error : String) : WriteSafe s (recordPurgeFailure maxAttempts c attempt error) := by
  have hrow : ∀ r ∈ s.events, r.status = .purgeSubmitted → r.eventId = c.eventId →
      OwnerDone s.tasks r.lastAdminCommandEventId :=
    fun r hr hstatus hid => absurd hstatus (h.head_notSubmitted r hr hid)
  unfold recordPurgeFailure
  split
  · exact hrow
  · exact hrow

theorem Due.succeeded_safe (h : Due s (c :: due) dueRooms) :
    WriteSafe s (recordPurgeSucceeded c) := by
  intro r hr hstatus hroom
  have hfree := h.head_free
  change r.roomId = c.roomId at hroom
  rw [← hroom] at hfree
  exact absurd hstatus (hfree.event hr)

/-- A request that was not accepted frees nothing. -/
theorem Due.room_safe (h : Due s [] (p :: dueRooms)) {codec : PurgeCodec}
    {maxAttempts attempt : Int} {outcome : HttpOutcome} {error : PurgeApiError}
    (hparse : parseSubmitResponse codec outcome = .error error) :
    WriteSafe s (afterSubmitRoom codec maxAttempts p attempt outcome) := by
  unfold afterSubmitRoom
  simp only [hparse]
  split
  · obtain ⟨row, hrow, hid, hroom⟩ := h.purges p List.mem_cons_self
    refine ⟨row, hrow, hid, fun r hr hstatus hr' => ?_⟩
    have hfree := h.headRoom_free
    rw [← hroom, ← hr'] at hfree
    exact absurd hstatus (hfree.purge hr)
  · exact fun r hr hstatus hid => absurd hstatus (h.headRoom_notSubmitted r hr hid)

end Due

end Lightfriend.Purge
