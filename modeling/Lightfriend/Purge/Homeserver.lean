import Lightfriend.Purge.Worker

/-! # The homeserver behind the worker

What the worker may rely on: the task id of an accepted submission is the one
in the answer and was never used before, and a task is reported complete,
failed or gone only when it is. The tasks of a run only grow, and a finished
task stays finished.
-/

namespace Lightfriend.Purge

/-! ## Tasks -/

def TaskIdsUnique (tasks : List PurgeTask) : Prop := (tasks.map PurgeTask.purgeId).Nodup

def TaskFinished (tasks : List PurgeTask) (purgeId : String) : Prop :=
  ∀ task ∈ tasks, task.purgeId = purgeId → task.outcome ≠ none

def TaskCompleted (tasks : List PurgeTask) (purgeId : String) : Prop :=
  ∃ task ∈ tasks, task.purgeId = purgeId ∧ task.outcome = some .complete

/-- The task `purgeId` was accepted for this room and boundary. -/
def TaskFor (tasks : List PurgeTask) (purgeId roomId : String) (boundary : PurgeBoundary) : Prop :=
  ∃ task ∈ tasks, task.purgeId = purgeId ∧ task.roomId = roomId ∧ task.boundary = boundary

instance (tasks : List PurgeTask) (purgeId : String) : Decidable (TaskFinished tasks purgeId) :=
  inferInstanceAs (Decidable (∀ task ∈ tasks, task.purgeId = purgeId → task.outcome ≠ none))

instance (tasks : List PurgeTask) (purgeId : String) : Decidable (TaskCompleted tasks purgeId) :=
  inferInstanceAs (Decidable (∃ task ∈ tasks, task.purgeId = purgeId ∧ task.outcome = some .complete))

def unfinishedIn (tasks : List PurgeTask) (roomId : String) : List PurgeTask :=
  tasks.filter (fun task => decide (task.roomId = roomId) && decide (task.outcome = none))

theorem eq_of_purgeId_eq {tasks : List PurgeTask} (h : TaskIdsUnique tasks) {a b : PurgeTask}
    (ha : a ∈ tasks) (hb : b ∈ tasks) (hid : a.purgeId = b.purgeId) : a = b :=
  List.inj_on_of_nodup_map h ha hb hid

namespace HomeserverEvent

/-- The event accepts no task under an id that is taken. -/
def Fresh (tasks : List PurgeTask) : HomeserverEvent → Prop
  | accept task => ∀ other ∈ tasks, other.purgeId ≠ task.purgeId
  | _ => True

def finishTask (purgeId : String) (outcome : TaskOutcome) (task : PurgeTask) : PurgeTask :=
  if task.purgeId = purgeId ∧ task.outcome = none then { task with outcome := some outcome }
  else task

theorem finishTask_purgeId (purgeId : String) (outcome : TaskOutcome) (task : PurgeTask) :
    (finishTask purgeId outcome task).purgeId = task.purgeId := by
  unfold finishTask
  split <;> rfl

theorem finishTask_roomId (purgeId : String) (outcome : TaskOutcome) (task : PurgeTask) :
    (finishTask purgeId outcome task).roomId = task.roomId := by
  unfold finishTask
  split <;> rfl

theorem finishTask_boundary (purgeId : String) (outcome : TaskOutcome) (task : PurgeTask) :
    (finishTask purgeId outcome task).boundary = task.boundary := by
  unfold finishTask
  split <;> rfl

theorem finishTask_outcome {purgeId : String} {outcome result : TaskOutcome} {task : PurgeTask}
    (h : task.outcome = some result) :
    (finishTask purgeId outcome task).outcome = some result := by
  unfold finishTask
  rw [if_neg (by simp [h])]
  exact h

theorem outcome_of_finishTask {purgeId : String} {outcome : TaskOutcome} {task : PurgeTask}
    (h : (finishTask purgeId outcome task).outcome = none) :
    task.outcome = none ∧ finishTask purgeId outcome task = task := by
  unfold finishTask at h ⊢
  split at h
  · cases h
  next hnot => exact ⟨h, if_neg hnot⟩

theorem taskIdsUnique_onTasks {tasks : List PurgeTask} {e : HomeserverEvent}
    (h : TaskIdsUnique tasks) (hfresh : e.Fresh tasks) : TaskIdsUnique (e.onTasks tasks) := by
  cases e with
  | accept task =>
      refine List.nodup_cons.mpr ⟨?_, h⟩
      intro hmem
      obtain ⟨other, hother, hid⟩ := List.mem_map.mp hmem
      exact hfresh other hother hid
  | finish purgeId outcome =>
      have hids : (onTasks tasks (finish purgeId outcome)).map PurgeTask.purgeId =
          tasks.map PurgeTask.purgeId := by
        simp only [onTasks, List.map_map]
        exact List.map_congr_left (fun task _ => finishTask_purgeId purgeId outcome task)
      rw [TaskIdsUnique, hids]
      exact h
  | quiet => exact h
  | reportClean report => exact h

theorem taskFor_onTasks {tasks : List PurgeTask} {e : HomeserverEvent} {purgeId roomId : String}
    {boundary : PurgeBoundary} (h : TaskFor tasks purgeId roomId boundary) :
    TaskFor (e.onTasks tasks) purgeId roomId boundary := by
  obtain ⟨task, htask, hid, hroom, hboundary⟩ := h
  cases e with
  | accept other => exact ⟨task, List.mem_cons_of_mem _ htask, hid, hroom, hboundary⟩
  | finish purgeId outcome =>
      refine ⟨finishTask purgeId outcome task, List.mem_map_of_mem htask, ?_, ?_, ?_⟩
      · rw [finishTask_purgeId, hid]
      · rw [finishTask_roomId, hroom]
      · rw [finishTask_boundary, hboundary]
  | quiet => exact ⟨task, htask, hid, hroom, hboundary⟩
  | reportClean report => exact ⟨task, htask, hid, hroom, hboundary⟩

/-- A completed task stays in the record with its room and boundary. -/
theorem exists_completed_onTasks {tasks : List PurgeTask} {e : HomeserverEvent} {task : PurgeTask}
    (htask : task ∈ tasks) (hdone : task.outcome = some .complete) :
    ∃ after ∈ e.onTasks tasks, after.roomId = task.roomId ∧ after.boundary = task.boundary ∧
      after.outcome = some .complete := by
  cases e with
  | accept other => exact ⟨task, List.mem_cons_of_mem _ htask, rfl, rfl, hdone⟩
  | finish purgeId outcome =>
      exact ⟨finishTask purgeId outcome task, List.mem_map_of_mem htask, finishTask_roomId _ _ _,
        finishTask_boundary _ _ _, finishTask_outcome hdone⟩
  | quiet => exact ⟨task, htask, rfl, rfl, hdone⟩
  | reportClean report => exact ⟨task, htask, rfl, rfl, hdone⟩

end HomeserverEvent

/-! ## Honest answers -/

def honestSubmit (codec : PurgeCodec) (tasks : List PurgeTask) (outcome : HttpOutcome)
    (accepted : Option String) : Bool :=
  (match parseSubmitResponse codec outcome with
    | .ok submitted => accepted == some submitted.purgeId
    | .error _ => true) &&
  (match accepted with
    | some purgeId => tasks.all (fun task => task.purgeId != purgeId)
    | none => true)

def honestPoll (codec : PurgeCodec) (tasks : List PurgeTask) (purgeId : Option String)
    (outcome : HttpOutcome) : Bool :=
  match purgeId with
  | none => true
  | some purgeId =>
      match parseStatusResponse codec outcome with
      | .ok status =>
          if status.status = "complete" then decide (TaskCompleted tasks purgeId)
          else if status.status = "failed" then decide (TaskFinished tasks purgeId)
          else true
      | .error error =>
          !purgeTaskStatusIsMissing error.status || decide (TaskFinished tasks purgeId)

/-- The homeserver answers truthfully. -/
def honest (codec : PurgeCodec) (s : PurgeState) (a : Action) : Bool :=
  match a, s.stage with
  | .submit outcome accepted, .send _ _ _ _ _ => honestSubmit codec s.tasks outcome accepted
  | .submit outcome accepted, .sendRoom _ _ _ => honestSubmit codec s.tasks outcome accepted
  | .poll outcome, .poll (candidate :: _) _ =>
      honestPoll codec s.tasks candidate.lastAdminCommandEventId outcome
  | .poll outcome, .poll [] (candidate :: _) => honestPoll codec s.tasks candidate.purgeId outcome
  | _, _ => true

theorem honest_poll {codec : PurgeCodec} {s : PurgeState} {candidate : CleanupEvent}
    {submitted : List CleanupEvent} {submittedRooms : List RoomHistoryPurge}
    (hstage : s.stage = .poll (candidate :: submitted) submittedRooms) (outcome : HttpOutcome) :
    honest codec s (.poll outcome) =
      honestPoll codec s.tasks candidate.lastAdminCommandEventId outcome := by
  simp only [honest, hstage]

theorem honest_pollRoom {codec : PurgeCodec} {s : PurgeState} {candidate : RoomHistoryPurge}
    {submittedRooms : List RoomHistoryPurge}
    (hstage : s.stage = .poll [] (candidate :: submittedRooms)) (outcome : HttpOutcome) :
    honest codec s (.poll outcome) = honestPoll codec s.tasks candidate.purgeId outcome := by
  simp only [honest, hstage]

theorem acceptance_fresh {codec : PurgeCodec} {tasks : List PurgeTask} {outcome : HttpOutcome}
    {accepted : Option String} (h : honestSubmit codec tasks outcome accepted = true)
    (roomId : String) (boundary : PurgeBoundary) :
    (acceptance roomId boundary accepted).Fresh tasks := by
  cases accepted with
  | none => trivial
  | some purgeId =>
      simp only [honestSubmit, Bool.and_eq_true, List.all_eq_true, bne_iff_ne] at h
      exact h.2

theorem roomAcceptance_fresh {codec : PurgeCodec} {tasks : List PurgeTask}
    {outcome : HttpOutcome} {accepted : Option String}
    (h : honestSubmit codec tasks outcome accepted = true) (candidate : RoomHistoryPurge) :
    (roomAcceptance codec candidate outcome accepted).Fresh tasks := by
  unfold roomAcceptance
  split
  · split
    · trivial
    · exact acceptance_fresh h _ _
  · exact acceptance_fresh h _ _

/-- Under an honest homeserver no step accepts a task under an id that is taken. -/
theorem planned_fresh {codec : PurgeCodec} {s : PurgeState} {a : Action} {p : Plan}
    (h : Planned codec s a p) (hhonest : honest codec s a = true) :
    p.homeserver.Fresh s.tasks := by
  cases h with
  | sent outcome accepted candidate attempt request due dueRooms hstage =>
      simp only [honest, hstage] at hhonest
      exact acceptance_fresh hhonest _ _
  | sentRoom outcome accepted candidate attempt dueRooms hstage =>
      simp only [honest, hstage] at hhonest
      exact roomAcceptance_fresh hhonest _
  | _ => trivial

theorem accepted_of_ok {codec : PurgeCodec} {tasks : List PurgeTask} {outcome : HttpOutcome}
    {accepted : Option String} (h : honestSubmit codec tasks outcome accepted = true)
    {submitted : PurgeSubmitResponse}
    (hparse : parseSubmitResponse codec outcome = .ok submitted) :
    accepted = some submitted.purgeId := by
  simp only [honestSubmit, hparse, Bool.and_eq_true, beq_iff_eq] at h
  exact h.1

end Lightfriend.Purge
