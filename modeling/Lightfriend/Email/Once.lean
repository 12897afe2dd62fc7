import Lightfriend.Email.Intake

/-! # One row and one event for an email

Both callers look for a row of an email and then store one, in statements of
their own. The section between is left to no lock: two lookups that answer
before the first row is stored let both callers go on.
-/

namespace Lightfriend.Email

def Caller.other : Caller → Caller
  | .cron => .idle
  | .idle => .cron

theorem Caller.eq_other {c d : Caller} (h : d ≠ c) : d = c.other := by
  cases c <;> cases d
  · exact absurd rfl h
  · rfl
  · rfl
  · exact absurd rfl h

namespace Task

/-- The email whose row is looked for. -/
def checking : Task → Option Nat
  | .working .checkRow mail _ => some mail.uid
  | _ => none

/-- The email that had no row and whose row is to be stored. -/
def storing : Task → Option Nat
  | .working .checkLegacy mail _ => some mail.uid
  | .working (.dedupLookup _) mail _ => some mail.uid
  | .working (.insertRow _) mail _ => some mail.uid
  | _ => none

/-- The email whose event is to be raised. -/
def raising : Task → Option Nat
  | .working .emitChange mail _ => some mail.uid
  | _ => none

end Task

/-- The UIDs with a message row. -/
def State.rowUids (s : State) : List Nat := s.rows.map EmailRow.uid

/-- A UID has at most one message row and at most one event. -/
def IngestedOnce (s : State) : Prop :=
  ∀ uid, s.rowUids.count uid ≤ 1 ∧ s.events.count uid ≤ 1

/-- No caller finds that an email has no row while the other one is about to store it. -/
def Apart (s : State) : Action → Prop
  | .advance caller .done =>
      ∀ uid ∈ (s.tasks caller).checking, uid ∉ s.rowUids →
        (s.tasks caller.other).storing ≠ some uid
  | _ => True

instance (s : State) : (a : Action) → Decidable (Apart s a)
  | .advance caller .done => inferInstanceAs (Decidable (∀ uid ∈ (s.tasks caller).checking, _))
  | .advance _ .refused | .advance _ .lost => isTrue trivial
  | .tick _ | .arrive _ | .expunge _ | .processElsewhere _ | .wake _ | .scan | .collectGarbage
  | .abort _ => isTrue trivial

/-! ## The invariant -/

structure Single (s : State) : Prop where
  rowsOnce : s.rowUids.Nodup
  eventsOnce : s.events.Nodup
  eventRow : ∀ uid ∈ s.events, uid ∈ s.rowUids
  storing : ∀ c uid, (s.tasks c).storing = some uid →
    uid ∉ s.rowUids ∧ ∀ d, d ≠ c → (s.tasks d).storing ≠ some uid
  raising : ∀ c uid, (s.tasks c).raising = some uid →
    uid ∈ s.rowUids ∧ uid ∉ s.events ∧ ∀ d, d ≠ c → (s.tasks d).raising ≠ some uid

variable {s t : State} {caller : Caller}

theorem Single.ingestedOnce (h : Single s) : IngestedOnce s := by
  intro uid
  exact ⟨List.nodup_iff_count_le_one.mp h.rowsOnce uid,
    List.nodup_iff_count_le_one.mp h.eventsOnce uid⟩

theorem tasks_setTask_self (s : State) (caller : Caller) (task : Task) :
    (s.setTask caller task).tasks caller = task :=
  Function.update_self ..

theorem tasks_setTask_of_ne {d : Caller} (task : Task) (h : d ≠ caller) :
    (s.setTask caller task).tasks d = s.tasks d :=
  Function.update_of_ne h ..

/-- The invariant of a caller's new task, over the rows and events that are there. -/
theorem Single.setTask (h : Single s) {task : Task}
    (hstoring : ∀ uid, task.storing = some uid →
      uid ∉ s.rowUids ∧ ∀ d, d ≠ caller → (s.tasks d).storing ≠ some uid)
    (hraising : ∀ uid, task.raising = some uid →
      uid ∈ s.rowUids ∧ uid ∉ s.events ∧ ∀ d, d ≠ caller → (s.tasks d).raising ≠ some uid) :
    Single (s.setTask caller task) where
  rowsOnce := h.rowsOnce
  eventsOnce := h.eventsOnce
  eventRow := h.eventRow
  storing := by
    intro c uid hc
    by_cases hcaller : c = caller
    · subst hcaller
      rw [tasks_setTask_self] at hc
      obtain ⟨hrow, hapart⟩ := hstoring uid hc
      refine ⟨hrow, fun d hd => ?_⟩
      rw [tasks_setTask_of_ne task hd]
      exact hapart d hd
    · rw [tasks_setTask_of_ne task hcaller] at hc
      obtain ⟨hrow, hapart⟩ := h.storing c uid hc
      refine ⟨hrow, fun d hd => ?_⟩
      by_cases hdc : d = caller
      · subst hdc
        rw [tasks_setTask_self]
        intro hnew
        exact (hstoring uid hnew).2 c hcaller hc
      · rw [tasks_setTask_of_ne task hdc]
        exact hapart d hd
  raising := by
    intro c uid hc
    by_cases hcaller : c = caller
    · subst hcaller
      rw [tasks_setTask_self] at hc
      obtain ⟨hrow, hevent, hapart⟩ := hraising uid hc
      refine ⟨hrow, hevent, fun d hd => ?_⟩
      rw [tasks_setTask_of_ne task hd]
      exact hapart d hd
    · rw [tasks_setTask_of_ne task hcaller] at hc
      obtain ⟨hrow, hevent, hapart⟩ := h.raising c uid hc
      refine ⟨hrow, hevent, fun d hd => ?_⟩
      by_cases hdc : d = caller
      · subst hdc
        rw [tasks_setTask_self]
        intro hnew
        exact (hraising uid hnew).2.2 c hcaller hc
      · rw [tasks_setTask_of_ne task hdc]
        exact hapart d hd

/-- A caller that neither stores a row nor raises an event. -/
theorem Single.leave (h : Single s) {task : Task} (hstoring : task.storing = none)
    (hraising : task.raising = none) : Single (s.setTask caller task) := by
  apply h.setTask
  · intro uid heq
    rw [hstoring] at heq
    cases heq
  · intro uid heq
    rw [hraising] at heq
    cases heq

theorem Single.of_eq (h : Single s) (hrows : t.rows = s.rows) (hevents : t.events = s.events)
    (htasks : t.tasks = s.tasks) : Single t := by
  have huids : t.rowUids = s.rowUids := congrArg (List.map EmailRow.uid) hrows
  exact ⟨huids ▸ h.rowsOnce, hevents ▸ h.eventsOnce, by rw [hevents, huids]; exact h.eventRow,
    by rw [htasks, huids]; exact h.storing, by rw [htasks, hevents, huids]; exact h.raising⟩

theorem setTask_setTask (s : State) (caller : Caller) (first second : Task) :
    (s.setTask caller first).setTask caller second = s.setTask caller second := by
  unfold State.setTask
  rw [Function.update_idem]

/-- A row that is stored, where no caller is about to store it. -/
theorem Single.store (h : Single s) (mail : Mail) (now : Int) (hrow : mail.uid ∉ s.rowUids)
    (hnone : ∀ c, (s.tasks c).storing ≠ some mail.uid) : Single (s.store mail now) := by
  have huids : (s.store mail now).rowUids = s.rowUids ++ [mail.uid] := by
    simp [State.rowUids, State.store]
  have hmem : ∀ uid, uid ∈ s.rowUids → uid ∈ (s.store mail now).rowUids := by
    intro uid hin
    rw [huids]
    exact List.mem_append_left _ hin
  constructor
  · rw [huids]
    exact List.nodup_append.mpr ⟨h.rowsOnce, List.nodup_singleton _, fun uid hin other hother heq =>
      hrow (List.mem_singleton.mp hother ▸ heq ▸ hin)⟩
  · exact h.eventsOnce
  · intro uid hin
    exact hmem uid (h.eventRow uid hin)
  · intro c uid hc
    obtain ⟨hout, hapart⟩ := h.storing c uid hc
    have hne : uid ≠ mail.uid := fun heq => hnone c (heq ▸ hc)
    rw [huids]
    exact ⟨by simp [hout, hne], hapart⟩
  · intro c uid hc
    obtain ⟨hin, hrest⟩ := h.raising c uid hc
    exact ⟨hmem uid hin, hrest⟩

/-- An event that is raised, where no caller is about to raise it. -/
theorem Single.emit (h : Single s) {uid : Nat} (hrow : uid ∈ s.rowUids) (hevent : uid ∉ s.events)
    (hnone : ∀ c, (s.tasks c).raising ≠ some uid) : Single { s with events := uid :: s.events } where
  rowsOnce := h.rowsOnce
  eventsOnce := List.nodup_cons.mpr ⟨hevent, h.eventsOnce⟩
  eventRow := by
    intro v hv
    rcases List.mem_cons.mp hv with rfl | hv
    · exact hrow
    · exact h.eventRow v hv
  storing := h.storing
  raising := by
    intro c v hc
    obtain ⟨hin, hout, hapart⟩ := h.raising c v hc
    have hne : v ≠ uid := fun heq => hnone c (heq ▸ hc)
    exact ⟨hin, List.not_mem_cons_of_ne_of_not_mem hne hout, hapart⟩

theorem Single.fail (h : Single s) (mail : Mail) (queue : List Mail) :
    Single (s.fail caller mail queue) :=
  have hset : Single (s.setTask caller (.next queue)) := h.leave rfl rfl
  hset.of_eq rfl rfl rfl

theorem Single.succeed (h : Single s) (mail : Mail) (queue : List Mail) :
    Single (s.succeed caller mail queue) :=
  have hset : Single (s.setTask caller (.working .markProcessed mail queue)) := h.leave rfl rfl
  hset.of_eq rfl rfl rfl

/-! ## The statements of a caller -/

theorem Single.goOn (h : Single s) {stage : Stage} {mail : Mail} {queue : List Mail}
    (hold : (s.tasks caller).storing = some mail.uid)
    (hraising : (Task.working stage mail queue).raising = none)
    (hstoring : ∀ uid, (Task.working stage mail queue).storing = some uid → uid = mail.uid) :
    Single (s.goOn caller stage mail queue) := by
  apply h.setTask
  · intro uid hnew
    rw [hstoring uid hnew]
    exact h.storing caller mail.uid hold
  · intro uid hnew
    rw [hraising] at hnew
    cases hnew

/-- The row of an email is stored by the one caller that found none. -/
theorem Single.stored (h : Single s) {mail : Mail} (queue : List Mail) (now : Int)
    (hold : (s.tasks caller).storing = some mail.uid) :
    Single ((s.store mail now).setTask caller (.next queue)) ∧
      Single ((s.store mail now).goOn caller .emitChange mail queue) := by
  obtain ⟨hrow, hapart⟩ := h.storing caller mail.uid hold
  have hrested : Single (s.setTask caller (.next queue)) := h.leave rfl rfl
  have hnone : ∀ c, ((s.setTask caller (.next queue)).tasks c).storing ≠ some mail.uid := by
    intro c
    by_cases hc : c = caller
    · subst hc
      rw [tasks_setTask_self]
      exact fun heq => by cases heq
    · rw [tasks_setTask_of_ne _ hc]
      exact hapart c hc
  have hstored : Single ((s.store mail now).setTask caller (.next queue)) :=
    hrested.store mail now hrow hnone
  refine ⟨hstored, ?_⟩
  show Single ((s.store mail now).setTask caller (.working .emitChange mail queue))
  rw [← setTask_setTask _ caller (.next queue)]
  apply hstored.setTask
  · exact fun _ heq => by cases heq
  · intro uid heq
    cases heq
    refine ⟨by simp [State.rowUids, State.store, State.setTask], ?_, ?_⟩
    · exact fun hevent => hrow (h.eventRow _ hevent)
    · intro d hd hraising
      rw [tasks_setTask_of_ne _ hd] at hraising
      exact hrow (h.raising d mail.uid hraising).1

theorem Single.emitted (h : Single s) {mail : Mail} {queue : List Mail}
    (htask : s.tasks caller = .working .emitChange mail queue) :
    Single ({ s with events := mail.uid :: s.events }.succeed caller mail queue) := by
  obtain ⟨hrow, hevent, hapart⟩ := h.raising caller mail.uid (by rw [htask]; rfl)
  have hmarking : Single (s.setTask caller (.working .markProcessed mail queue)) := h.leave rfl rfl
  have hnone : ∀ c, ((s.setTask caller (.working .markProcessed mail queue)).tasks c).raising ≠
      some mail.uid := by
    intro c
    by_cases hc : c = caller
    · subst hc
      rw [tasks_setTask_self]
      exact fun heq => by cases heq
    · rw [tasks_setTask_of_ne _ hc]
      exact hapart c hc
  exact (hmarking.emit hrow hevent hnone).of_eq rfl rfl rfl

/-- A row that is not stored is no duplicate of the email. -/
theorem duplicate_eq_false {mail : Mail} {now : Int} (h : mail.uid ∉ s.rowUids) :
    s.duplicate mail now = false := by
  rw [State.duplicate, List.any_eq_false]
  intro r hr hrow
  have hsame : r.uid = mail.uid := (of_decide_eq_true hrow).1
  exact h (hsame ▸ List.mem_map_of_mem hr)

theorem rowUids_eq_any {uid : Nat} :
    s.rows.any (fun r => r.uid = uid) = true ↔ uid ∈ s.rowUids := by
  simp [State.rowUids]

theorem single_work {mail : Mail} {queue : List Mail} {stage : Stage} {fate : StatementFate}
    (h : Single s) (hok : Apart s (.advance caller fate))
    (htask : s.tasks caller = .working stage mail queue) :
    Single (s.work caller mail queue fate stage) := by
  have hskip : Single (s.setTask caller (.next queue)) := h.leave rfl rfl
  cases stage with
  | checkProcessed =>
      simp only [State.work]
      split
      · exact h.leave rfl rfl
      · exact hskip
  | resolveAccount =>
      simp only [State.work]
      split
      · exact h.leave rfl rfl
      · exact h.fail mail queue
  | checkRow =>
      cases fate with
      | done =>
          simp only [State.work, StatementFate.answer]
          split
          · exact h.succeed mail queue
          next heq =>
            have hrow : mail.uid ∉ s.rowUids := by
              rw [← rowUids_eq_any, Option.some.inj heq]
              exact Bool.false_ne_true
            have hother := hok mail.uid (by rw [htask]; rfl) hrow
            apply h.setTask
            · intro uid hnew
              cases hnew
              exact ⟨hrow, fun d hd => Caller.eq_other hd ▸ hother⟩
            · exact fun _ hnew => by cases hnew
          next heq => cases heq
      | refused => exact h.fail mail queue
      | lost => exact h.fail mail queue
  | checkLegacy =>
      have hold : (s.tasks caller).storing = some mail.uid := by rw [htask]; rfl
      simp only [State.work]
      split
      · exact h.succeed mail queue
      · exact h.goOn hold rfl (fun _ heq => by cases heq; rfl)
      · exact h.fail mail queue
  | dedupLookup now =>
      have hold : (s.tasks caller).storing = some mail.uid := by rw [htask]; rfl
      simp only [State.work]
      split
      next heq =>
        rw [duplicate_eq_false (h.storing caller mail.uid hold).1] at heq
        cases fate <;> cases heq
      · exact h.goOn hold rfl (fun _ heq => by cases heq; rfl)
  | insertRow now =>
      have hold : (s.tasks caller).storing = some mail.uid := by rw [htask]; rfl
      have hstored := h.stored queue now hold
      cases fate with
      | done => exact hstored.2
      | refused => exact h.fail mail queue
      | lost => exact hstored.1.of_eq rfl rfl rfl
  | emitChange => exact h.emitted htask
  | markProcessed =>
      have hmark : Single (s.mark mail.uid) := by
        unfold State.mark
        split
        · exact h
        · exact h.of_eq rfl rfl rfl
      cases fate with
      | done => exact hmark.leave rfl rfl
      | refused => exact hskip
      | lost => exact hmark.leave rfl rfl

theorem single_advance {fate : StatementFate} (h : Single s)
    (hok : Apart s (.advance caller fate)) (hstep : s.advance caller fate = some t) : Single t := by
  cases htask : s.tasks caller with
  | resting => simp [State.advance, htask] at hstep
  | scanning rest kept =>
      cases rest with
      | nil =>
          simp only [State.advance, htask, Option.some.injEq] at hstep
          exact hstep ▸ h.leave rfl rfl
      | cons mail rest =>
          simp only [State.advance, htask] at hstep
          split at hstep
          all_goals
            cases hstep
            exact h.leave rfl rfl
  | next queue =>
      cases queue with
      | nil =>
          simp only [State.advance, htask, Option.some.injEq] at hstep
          exact hstep ▸ h.leave rfl rfl
      | cons mail queue =>
          simp only [State.advance, htask] at hstep
          split at hstep
          · cases hstep
            exact h.leave rfl rfl
          · split at hstep
            all_goals
              cases hstep
              exact h.leave rfl rfl
  | working stage mail queue =>
      simp only [State.advance, htask, Option.some.injEq] at hstep
      exact hstep ▸ single_work h hok htask

/-- A caller that is to store a row or to raise an event is at an email. -/
theorem Outside.task_eq (h : Outside s t) {c : Caller} {uid : Nat}
    (hc : (t.tasks c).storing = some uid ∨ (t.tasks c).raising = some uid) :
    s.tasks c = t.tasks c := by
  cases ht : t.tasks c with
  | working stage mail queue => exact h.tasks c stage mail queue ht
  | resting => simp [ht, Task.storing, Task.raising] at hc
  | scanning rest kept => simp [ht, Task.storing, Task.raising] at hc
  | next queue => simp [ht, Task.storing, Task.raising] at hc

theorem Single.outside (h : Single s) (hout : Outside s t) : Single t := by
  have huids : t.rowUids = s.rowUids := congrArg (List.map EmailRow.uid) hout.rows
  constructor
  · rw [huids]
    exact h.rowsOnce
  · rw [hout.events]
    exact h.eventsOnce
  · rw [hout.events, huids]
    exact h.eventRow
  · intro c uid hc
    have heq := hout.task_eq (.inl hc)
    rw [← heq] at hc
    obtain ⟨hrow, hapart⟩ := h.storing c uid hc
    refine ⟨huids ▸ hrow, fun d hd hother => ?_⟩
    rw [← hout.task_eq (.inl hother)] at hother
    exact hapart d hd hother
  · intro c uid hc
    have heq := hout.task_eq (.inr hc)
    rw [← heq] at hc
    obtain ⟨hrow, hevent, hapart⟩ := h.raising c uid hc
    refine ⟨huids ▸ hrow, hout.events ▸ hevent, fun d hd hother => ?_⟩
    rw [← hout.task_eq (.inr hother)] at hother
    exact hapart d hd hother

theorem single_step {a : Action} (h : Single s) (hok : Apart s a) (hstep : step s a = some t) :
    Single t := by
  rcases step_cases hstep with ⟨caller, fate, rfl, hadvance⟩ | ⟨hout, -⟩
  · exact single_advance h hok hadvance
  · exact h.outside hout

/-- An email has one row and one event at most, in every run in which no caller finds no row of an
email that the other one is about to store. -/
theorem emails_ingestedOnce {connectionId : Int} {mailbox : List Mail} {uidNext : Nat}
    {processed : List ProcessedEmail} {rows : List EmailRow} {legacy : List Nat} {s : State}
    {actions : List Action} (hrows : (rows.map EmailRow.uid).Nodup)
    (hmeets : Transition.Meets step Apart
      (init connectionId mailbox uidNext processed rows legacy) actions)
    (hrun : Transition.run step (init connectionId mailbox uidNext processed rows legacy) actions =
      some s) : IngestedOnce s := by
  have hinit : Single (init connectionId mailbox uidNext processed rows legacy) :=
    ⟨hrows, List.nodup_nil, (fun _ hv => by cases hv), (fun _ _ hc => by cases hc),
      (fun _ _ hc => by cases hc)⟩
  have hsingle : Single s :=
    Transition.run_invariant (fun _ _ _ h hok hs => single_step h hok hs) hinit hmeets hrun
  exact hsingle.ingestedOnce

/-! ## One email and two callers -/

def mailFive : Mail := ⟨5, false, true, 5, "ann@mail.local", "hello"⟩

def advances (caller : Caller) (count : Nat) : List Action :=
  List.replicate count (.advance caller .done)

/-- The scan takes the email in while the waiting task has not looked for its row. -/
def oneBehind : List Action :=
  [.arrive mailFive, .scan, .wake true] ++ advances .cron 3 ++ advances .idle 3 ++
    advances .cron 8 ++ advances .idle 3

/-- Both look for a row of the email before either stores one. -/
def sideBySide : List Action :=
  [.arrive mailFive, .scan, .wake true] ++ advances .cron 6 ++ advances .idle 6 ++
    advances .cron 4 ++ advances .idle 4

def emptyInbox : State := init 1 [] 5 [] [] []

theorem oneBehind_once : IngestedOnce (Transition.final step emptyInbox oneBehind) :=
  @emails_ingestedOnce 1 [] 5 [] [] [] (Transition.final step emptyInbox oneBehind) oneBehind
    List.nodup_nil (by decide +kernel) (Transition.run_eq_final (by decide +kernel))

theorem sideBySide_twice : ¬ IngestedOnce (Transition.final step emptyInbox sideBySide) := by
  intro h
  have hrows : (Transition.final step emptyInbox sideBySide).rowUids.count 5 = 2 := by
    decide +kernel
  have honce := (h 5).1
  omega

end Lightfriend.Email
