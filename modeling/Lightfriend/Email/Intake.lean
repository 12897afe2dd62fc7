import Lightfriend.Core.Database
import Lightfriend.Core.Machine
import Lightfriend.Core.Table
import Lightfriend.Core.Transition

/-! # Intake of emails

Two callers take the emails of one mailbox into the ontology: the scan of the
scheduler, and the task that waits for the server. Each takes an email through
the same statements, one at a time, while the other goes on beside it.
-/

namespace Lightfriend.Email

/-! ## The mailbox and the rows -/

structure Mail where
  uid : Nat
  isRead : Bool
  /-- Can the message be parsed? -/
  wellFormed : Bool
  date : Int
  sender : String
  content : String
deriving DecidableEq, Repr

/-- A row of `processed_emails` of the user. -/
structure ProcessedEmail where
  uid : Nat
  connectionId : Option Int
  processedAt : Int
deriving DecidableEq, Repr

/-- A message row with the room id of the connection and the UID. -/
structure EmailRow where
  uid : Nat
  sender : String
  content : String
  createdAt : Int
deriving DecidableEq, Repr

inductive Caller
  | cron
  | idle
deriving DecidableEq, Repr

/-- Where a caller is with an email. -/
inductive Stage
  | checkProcessed
  | resolveAccount
  | checkRow
  | checkLegacy
  | dedupLookup (now : Int)
  | insertRow (now : Int)
  | emitChange
  | markProcessed
deriving DecidableEq, Repr

inductive Task
  | resting
  /-- The fetch of the scan, which drops what is processed. -/
  | scanning (rest kept : List Mail)
  | next (queue : List Mail)
  | working (stage : Stage) (mail : Mail) (queue : List Mail)
deriving DecidableEq, Repr

/-- The UIDs of a fetch: from one on to the last, or between two. -/
inductive UidRange
  | startingAt (first : Nat)
  | between (first last : Nat)
deriving DecidableEq, Repr

/-- `n:*` names the last message of the mailbox also where it is below `n`. -/
def UidRange.covers (highest : Nat) (uid : Nat) : UidRange → Prop
  | .startingAt first => min first highest ≤ uid ∧ uid ≤ max first highest
  | .between first last => first ≤ uid ∧ uid ≤ last

instance (highest uid : Nat) (range : UidRange) : Decidable (range.covers highest uid) := by
  cases range <;> unfold UidRange.covers <;> infer_instance

/-- A fetch of the waiting task, for the statements below. -/
structure Wake where
  range : UidRange
  highest : Nat
  /-- The emails of the mailbox that were owed then. -/
  owed : List Nat
deriving DecidableEq, Repr

structure State where
  connectionId : Int
  mailbox : List Mail
  uidNext : Nat
  processed : List ProcessedEmail
  rows : List EmailRow
  /-- The UIDs with a row of the time before room ids named the connection. -/
  legacy : List Nat
  clock : Int
  tasks : Caller → Task
  /-- The change events raised, the UIDs whose insertion failed, those whose insertion was
  answered with a row, and the fetches. No code reads these. -/
  events : List Nat
  failed : List Nat
  inserted : List Nat
  wakes : List Wake

namespace State

/-- `is_email_processed` for the connection. -/
def isProcessed (s : State) (uid : Nat) : Bool :=
  s.processed.any (fun r => r.uid = uid ∧ r.connectionId = some s.connectionId)

/-- The processed UIDs of the connection. -/
def processedUids (s : State) : List Nat :=
  (s.processed.filter (fun r => r.connectionId = some s.connectionId)).map ProcessedEmail.uid

/-- `get_max_processed_uid`; the cast to an `INTEGER` fails for a larger UID. -/
def maxProcessedUid (s : State) : Option Nat :=
  if s.processedUids.any (fun uid => 2147483647 < uid) then none else s.processedUids.max?

def highestUid (s : State) : Nat := (s.mailbox.map Mail.uid).foldr max 0

/-- The UIDs that have failed and were not inserted. -/
def owed (s : State) : List Nat := s.failed.filter (fun uid => uid ∉ s.inserted)

def uidRange (s : State) : Option Nat → UidRange
  | some n => .startingAt (min (n + 1) 4294967295)
  | none => .between (max (s.uidNext - 10) 1) (max (s.uidNext - 1) 1)

def setTask (s : State) (caller : Caller) (task : Task) : State :=
  { s with tasks := Function.update s.tasks caller task }

/-- The email stays unprocessed, and the caller goes on. -/
def fail (s : State) (caller : Caller) (mail : Mail) (queue : List Mail) : State :=
  { s.setTask caller (.next queue) with failed := mail.uid :: s.failed }

/-- `insert_email_into_ontology` returns a row. -/
def succeed (s : State) (caller : Caller) (mail : Mail) (queue : List Mail) : State :=
  { s.setTask caller (.working .markProcessed mail queue) with inserted := mail.uid :: s.inserted }

def goOn (s : State) (caller : Caller) (stage : Stage) (mail : Mail) (queue : List Mail) : State :=
  s.setTask caller (.working stage mail queue)

def store (s : State) (mail : Mail) (now : Int) : State :=
  { s with rows := s.rows ++ [⟨mail.uid, mail.sender, mail.content, now⟩] }

/-- The row that `insert_message` takes for the email: the content window of the room. -/
def duplicate (s : State) (mail : Mail) (now : Int) : Bool :=
  s.rows.any (fun r => r.uid = mail.uid ∧ r.sender = mail.sender ∧ r.content = mail.content ∧
    now - 300 ≤ r.createdAt ∧ r.createdAt ≤ now + 300)

def mark (s : State) (uid : Nat) : State :=
  if s.isProcessed uid then s
  else { s with processed := s.processed ++ [⟨uid, some s.connectionId, s.clock⟩] }

/-- One statement of a caller for the email it is at. -/
def work (s : State) (caller : Caller) (mail : Mail) (queue : List Mail) (fate : StatementFate) :
    Stage → State
  | .checkProcessed =>
      match fate.answer (s.isProcessed mail.uid) with
      | some false => s.goOn caller .resolveAccount mail queue
      -- processed already, or not known
      | _ => s.setTask caller (.next queue)
  | .resolveAccount =>
      match fate.answer () with
      | some () => s.goOn caller .checkRow mail queue
      | none => s.fail caller mail queue
  | .checkRow =>
      match fate.answer (s.rows.any (fun r => r.uid = mail.uid)) with
      | some true => s.succeed caller mail queue
      | some false => s.goOn caller .checkLegacy mail queue
      | none => s.fail caller mail queue
  | .checkLegacy =>
      match fate.answer (decide (mail.uid ∈ s.legacy)) with
      | some true => s.succeed caller mail queue
      | some false => s.goOn caller (.dedupLookup s.clock) mail queue
      | none => s.fail caller mail queue
  | .dedupLookup now =>
      match fate.answer (s.duplicate mail now) with
      -- the caller drops the flag that says whether the row is new
      | some true => s.goOn caller .emitChange mail queue
      | _ => s.goOn caller (.insertRow now) mail queue
  | .insertRow now =>
      match fate with
      | .done => (s.store mail now).goOn caller .emitChange mail queue
      | .refused => s.fail caller mail queue
      | .lost => (s.store mail now).fail caller mail queue
  | .emitChange =>
      { s with events := mail.uid :: s.events }.succeed caller mail queue
  | .markProcessed => (fate.after s (s.mark mail.uid)).setTask caller (.next queue)

/-- The next statement of a caller. -/
def advance (s : State) (caller : Caller) (fate : StatementFate) : Option State :=
  match s.tasks caller with
  | .resting => none
  | .scanning [] kept =>
      some (s.setTask caller (.next (orderBy (fun a b => b.date ≤ a.date) kept)))
  | .scanning (mail :: rest) kept =>
      match fate.answer (s.isProcessed mail.uid) with
      | none => some (s.setTask caller .resting)
      | some true => some (s.setTask caller (.scanning rest kept))
      | some false =>
          some (s.setTask caller (.scanning rest
            (if mail.wellFormed && !mail.isRead then kept ++ [mail] else kept)))
  | .next [] => some (s.setTask caller .resting)
  | .next (mail :: queue) =>
      match caller with
      | .cron => some (s.goOn caller .resolveAccount mail queue)
      | .idle =>
          if mail.wellFormed then some (s.goOn caller .checkProcessed mail queue)
          else some (s.setTask caller (.next queue))
  | .working stage mail queue => some (s.work caller mail queue fate stage)

/-- `process_new_emails` with the maximum that was read, none where it could not be. -/
def wake (s : State) (answered : Bool) : State :=
  let range := s.uidRange (if answered then s.maxProcessedUid else none)
  let owed := s.owed.filter (fun uid => uid ∈ s.mailbox.map Mail.uid)
  { s.setTask .idle (.next (s.mailbox.filter (fun m => range.covers s.highestUid m.uid))) with
    wakes := ⟨range, s.highestUid, owed⟩ :: s.wakes }

/-- The scan deletes old rows of the user when there are more than a hundred. -/
def collectGarbage (s : State) : State :=
  if 100 < s.processed.length then
    { s with
      processed := (orderBy (fun a b => b.processedAt ≤ a.processedAt) s.processed).take 20 }
  else s

end State

inductive Action
  | tick (seconds : Nat)
  | arrive (mail : Mail)
  | expunge (uid : Nat)
  /-- An email of another mailbox of the user is marked. -/
  | processElsewhere (row : ProcessedEmail)
  | wake (answered : Bool)
  | scan
  | collectGarbage
  | advance (caller : Caller) (fate : StatementFate)
  /-- The time of a caller is up, or its connection breaks. -/
  | abort (caller : Caller)
deriving DecidableEq, Repr

def step (s : State) : Action → Option State
  | .tick seconds => some { s with clock := s.clock + seconds }
  | .arrive mail =>
      if mail.uid = s.uidNext then
        some { s with mailbox := s.mailbox ++ [mail], uidNext := s.uidNext + 1 }
      else none
  | .expunge uid => some { s with mailbox := s.mailbox.filter (fun m => m.uid ≠ uid) }
  | .processElsewhere row =>
      if row.connectionId = some s.connectionId then none
      else some { s with processed := s.processed ++ [row] }
  | .wake answered => if s.tasks .idle = .resting then some (s.wake answered) else none
  | .scan =>
      if s.tasks .cron = .resting then
        some (s.setTask .cron (.scanning (s.mailbox.drop (s.mailbox.length - 10)) []))
      else none
  | .collectGarbage => some s.collectGarbage
  | .advance caller fate => s.advance caller fate
  | .abort caller => some (s.setTask caller .resting)

/-- A mailbox, the rows of the time before, and two callers at rest. -/
def init (connectionId : Int) (mailbox : List Mail) (uidNext : Nat)
    (processed : List ProcessedEmail) (rows : List EmailRow) (legacy : List Nat) : State :=
  ⟨connectionId, mailbox, uidNext, processed, rows, legacy, 0, fun _ => .resting, [], [], [], []⟩

/-! ## What a statement of a caller can do -/

/-- The UID whose insertion this statement makes fail. -/
def failing (s : State) (caller : Caller) (fate : StatementFate) : Option Nat :=
  match s.tasks caller, fate with
  | .working _ _ _, .done => none
  | .working .resolveAccount mail _, _ => some mail.uid
  | .working .checkRow mail _, _ => some mail.uid
  | .working .checkLegacy mail _, _ => some mail.uid
  | .working (.insertRow _) mail _, _ => some mail.uid
  | _, _ => none

/-- The UID that this statement marks as processed. -/
def marking (s : State) (caller : Caller) (fate : StatementFate) : Option Nat :=
  match s.tasks caller, fate with
  | .working .markProcessed _ _, .refused => none
  | .working .markProcessed mail _, _ => some mail.uid
  | _, _ => none

/-- What a statement leaves of the marks, the failures and the insertions: it changes nothing of
them, fails an email, has one inserted, or marks one. -/
inductive Progress (s t : State) (caller : Caller) (fate : StatementFate) : Prop
  | same (processed : t.processed = s.processed) (failed : t.failed = s.failed)
      (inserted : t.inserted = s.inserted)
  | failed (uid : Nat) (cause : failing s caller fate = some uid)
      (processed : t.processed = s.processed) (failed : t.failed = uid :: s.failed)
      (inserted : t.inserted = s.inserted)
  | inserted (uid : Nat) (processed : t.processed = s.processed) (failed : t.failed = s.failed)
      (inserted : t.inserted = uid :: s.inserted)
  | marked (mail : Mail) (queue : List Mail)
      (task : s.tasks caller = .working .markProcessed mail queue)
      (cause : marking s caller fate = some mail.uid)
      (processed : t.processed = s.processed ++ [⟨mail.uid, some s.connectionId, s.clock⟩])
      (failed : t.failed = s.failed) (inserted : t.inserted = s.inserted)

/-- What no statement of a caller changes, and who is about to mark an email. -/
structure Beside (s t : State) : Prop where
  connectionId : t.connectionId = s.connectionId
  mailbox : t.mailbox = s.mailbox
  uidNext : t.uidNext = s.uidNext
  wakes : t.wakes = s.wakes
  marks : ∀ c mail queue, t.tasks c = .working .markProcessed mail queue →
    s.tasks c = .working .markProcessed mail queue ∨ mail.uid ∈ t.inserted

theorem beside_setTask {s : State} {caller : Caller} {task : Task}
    (h : ∀ mail queue, task ≠ .working .markProcessed mail queue) :
    Beside s (s.setTask caller task) where
  connectionId := rfl
  mailbox := rfl
  uidNext := rfl
  wakes := rfl
  marks := fun c mail queue ht => by
    by_cases hc : c = caller
    · subst hc
      simp only [State.setTask, Function.update_self] at ht
      exact absurd ht (h mail queue)
    · simp only [State.setTask, Function.update_of_ne hc] at ht
      exact .inl ht

theorem beside_fail (s : State) (caller : Caller) (mail : Mail) (queue : List Mail) :
    Beside s (s.fail caller mail queue) :=
  have h := @beside_setTask s caller (.next queue)
    (fun _ _ heq => by cases heq)
  ⟨h.connectionId, h.mailbox, h.uidNext, h.wakes, h.marks⟩

theorem beside_succeed (s : State) (caller : Caller) (mail : Mail) (queue : List Mail) :
    Beside s (s.succeed caller mail queue) where
  connectionId := rfl
  mailbox := rfl
  uidNext := rfl
  wakes := rfl
  marks := fun c mail' queue' ht => by
    by_cases hc : c = caller
    · subst hc
      simp only [State.succeed, State.setTask, Function.update_self] at ht
      cases ht
      exact .inr List.mem_cons_self
    · simp only [State.succeed, State.setTask, Function.update_of_ne hc] at ht
      exact .inl ht

theorem beside_goOn {s : State} {caller : Caller} {stage : Stage} {mail : Mail}
    {queue : List Mail} (h : stage ≠ .markProcessed) : Beside s (s.goOn caller stage mail queue) :=
  beside_setTask (fun _ _ heq => by
    cases heq
    exact h rfl)

theorem beside_store {s t : State} {mail : Mail} {now : Int} (h : Beside (s.store mail now) t) :
    Beside s t := ⟨h.connectionId, h.mailbox, h.uidNext, h.wakes, h.marks⟩

theorem work_progress {s : State} {caller : Caller} {mail : Mail} {queue : List Mail}
    {stage : Stage} (htask : s.tasks caller = .working stage mail queue) (fate : StatementFate) :
    Progress s (s.work caller mail queue fate stage) caller fate ∧
      Beside s (s.work caller mail queue fate stage) := by
  have hfail : ∀ {f : StatementFate}, failing s caller f = some mail.uid →
      Progress s (s.fail caller mail queue) caller f ∧ Beside s (s.fail caller mail queue) :=
    fun hcause => ⟨.failed mail.uid hcause rfl rfl rfl, beside_fail s caller mail queue⟩
  have hdone : ∀ {f : StatementFate},
      Progress s (s.succeed caller mail queue) caller f ∧ Beside s (s.succeed caller mail queue) :=
    ⟨.inserted mail.uid rfl rfl rfl, beside_succeed s caller mail queue⟩
  have hgo : ∀ {f : StatementFate} {stage : Stage}, stage ≠ .markProcessed →
      Progress s (s.goOn caller stage mail queue) caller f ∧
        Beside s (s.goOn caller stage mail queue) :=
    fun hne => ⟨.same rfl rfl rfl, beside_goOn hne⟩
  have hskip : ∀ {f : StatementFate}, Progress s (s.setTask caller (.next queue)) caller f ∧
      Beside s (s.setTask caller (.next queue)) :=
    ⟨.same rfl rfl rfl, beside_setTask (fun _ _ heq => by cases heq)⟩
  cases stage with
  | checkProcessed =>
      simp only [State.work]
      split
      · exact hgo (by decide)
      · exact hskip
  | resolveAccount =>
      cases fate with
      | done => exact hgo (by decide)
      | refused => exact hfail (by simp [failing, htask])
      | lost => exact hfail (by simp [failing, htask])
  | checkRow =>
      cases fate with
      | done =>
          simp only [State.work, StatementFate.answer]
          split
          · exact hdone
          · exact hgo (by decide)
          next heq => cases heq
      | refused => exact hfail (by simp [failing, htask])
      | lost => exact hfail (by simp [failing, htask])
  | checkLegacy =>
      cases fate with
      | done =>
          simp only [State.work, StatementFate.answer]
          split
          · exact hdone
          · exact hgo (by simp)
          next heq => cases heq
      | refused => exact hfail (by simp [failing, htask])
      | lost => exact hfail (by simp [failing, htask])
  | dedupLookup now =>
      simp only [State.work]
      split
      · exact hgo (by decide)
      · exact hgo (by simp)
  | insertRow now =>
      cases fate with
      | done => exact ⟨.same rfl rfl rfl, beside_store (beside_goOn (by decide))⟩
      | refused => exact hfail (by simp [failing, htask])
      | lost => exact ⟨.failed mail.uid (by simp [failing, htask]) rfl rfl rfl,
          beside_store (beside_fail _ caller mail queue)⟩
  | emitChange =>
      have h := beside_succeed s caller mail queue
      exact ⟨.inserted mail.uid rfl rfl rfl,
        ⟨h.connectionId, h.mailbox, h.uidNext, h.wakes, h.marks⟩⟩
  | markProcessed =>
      have hset := @beside_setTask s caller (.next queue)
        (fun _ _ heq => by cases heq)
      have hmark : ∀ f : StatementFate, f ≠ .refused →
          Progress s ((s.mark mail.uid).setTask caller (.next queue)) caller f ∧
            Beside s ((s.mark mail.uid).setTask caller (.next queue)) := by
        intro f hf
        unfold State.mark
        split
        · exact hskip
        · refine ⟨.marked mail queue htask ?_ rfl rfl rfl,
            ⟨hset.connectionId, hset.mailbox, hset.uidNext, hset.wakes, hset.marks⟩⟩
          cases f <;> simp_all [marking]
      cases fate with
      | done => exact hmark .done (by decide)
      | refused => exact hskip
      | lost => exact hmark .lost (by decide)

theorem advance_progress {s t : State} {caller : Caller} {fate : StatementFate}
    (h : s.advance caller fate = some t) : Progress s t caller fate ∧ Beside s t := by
  have hset : ∀ task : Task, (∀ mail queue, task ≠ .working .markProcessed mail queue) →
      Progress s (s.setTask caller task) caller fate ∧ Beside s (s.setTask caller task) :=
    fun task hne => ⟨.same rfl rfl rfl, beside_setTask hne⟩
  unfold State.advance at h
  split at h
  next => cases h
  next =>
    cases h
    exact hset _ (fun _ _ heq => by cases heq)
  next =>
    split at h
    · cases h
      exact hset _ (fun _ _ heq => by cases heq)
    · cases h
      exact hset _ (fun _ _ heq => by cases heq)
    · cases h
      exact hset _ (fun _ _ heq => by cases heq)
  next =>
    cases h
    exact hset _ (fun _ _ heq => by cases heq)
  next mail queue _ =>
    cases caller with
    | cron =>
        cases h
        exact hset _ (fun _ _ heq => by cases heq)
    | idle =>
        simp only at h
        split at h
        · cases h
          exact hset _ (fun _ _ heq => by cases heq)
        · cases h
          exact hset _ (fun _ _ heq => by cases heq)
  next stage mail queue htask =>
    cases h
    exact work_progress htask fate

/-! ## What any other step can do -/

/-- What a step leaves that is no statement of a caller: it takes in no email and marks none of the
connection, and a caller keeps its email or is at none. -/
structure Outside (s t : State) : Prop where
  connectionId : t.connectionId = s.connectionId
  rows : t.rows = s.rows
  events : t.events = s.events
  failed : t.failed = s.failed
  inserted : t.inserted = s.inserted
  processed : ∀ r ∈ t.processed, r.connectionId = some s.connectionId → r ∈ s.processed
  tasks : ∀ c stage mail queue, t.tasks c = .working stage mail queue →
    s.tasks c = .working stage mail queue

theorem outside_setTask {s : State} {caller : Caller} {task : Task}
    (h : ∀ stage mail queue, task ≠ .working stage mail queue) :
    Outside s (s.setTask caller task) where
  connectionId := rfl
  rows := rfl
  events := rfl
  failed := rfl
  inserted := rfl
  processed := fun _ hr _ => hr
  tasks := by
    intro c stage mail queue ht
    by_cases hc : c = caller
    · subst hc
      simp only [State.setTask, Function.update_self] at ht
      exact absurd ht (h stage mail queue)
    · simpa only [State.setTask, Function.update_of_ne hc] using ht

/-- A step is a statement of a caller, a fetch, or leaves the fetches as they are. -/
theorem step_cases {s t : State} {a : Action} (h : step s a = some t) :
    (∃ caller fate, a = .advance caller fate ∧ s.advance caller fate = some t) ∨
      Outside s t ∧ ((∃ answered, a = .wake answered ∧ t = s.wake answered) ∨ t.wakes = s.wakes) := by
  cases a with
  | tick seconds =>
      cases h
      exact .inr ⟨⟨rfl, rfl, rfl, rfl, rfl, fun _ hr _ => hr, fun _ _ _ _ ht => ht⟩, .inr rfl⟩
  | arrive mail =>
      simp only [step] at h
      split at h
      · cases h
        exact .inr ⟨⟨rfl, rfl, rfl, rfl, rfl, fun _ hr _ => hr, fun _ _ _ _ ht => ht⟩, .inr rfl⟩
      · cases h
  | expunge uid =>
      cases h
      exact .inr ⟨⟨rfl, rfl, rfl, rfl, rfl, fun _ hr _ => hr, fun _ _ _ _ ht => ht⟩, .inr rfl⟩
  | processElsewhere row =>
      simp only [step] at h
      split at h
      · cases h
      next hother =>
        cases h
        refine .inr ⟨⟨rfl, rfl, rfl, rfl, rfl, fun r hr hconn => ?_, fun _ _ _ _ ht => ht⟩, .inr rfl⟩
        rcases List.mem_append.mp hr with hr | hr
        · exact hr
        · rw [List.mem_singleton.mp hr] at hconn
          exact absurd hconn hother
  | wake answered =>
      simp only [step] at h
      split at h
      · cases h
        have hset : ∀ queue, Outside s (s.setTask .idle (.next queue)) :=
          fun queue => outside_setTask (fun _ _ _ heq => by cases heq)
        have hout := hset (s.mailbox.filter (fun m =>
          (s.uidRange (if answered then s.maxProcessedUid else none)).covers s.highestUid m.uid))
        exact .inr ⟨⟨rfl, rfl, rfl, rfl, rfl, hout.processed, hout.tasks⟩, .inl ⟨answered, rfl, rfl⟩⟩
      · cases h
  | scan =>
      simp only [step] at h
      split at h
      · cases h
        exact .inr ⟨outside_setTask (fun _ _ _ heq => by cases heq), .inr rfl⟩
      · cases h
  | collectGarbage =>
      cases h
      unfold State.collectGarbage
      split
      · refine .inr ⟨⟨rfl, rfl, rfl, rfl, rfl, fun r hr _ => ?_, fun _ _ _ _ ht => ht⟩, .inr rfl⟩
        exact mem_orderBy.mp (List.mem_of_mem_take hr)
      · exact .inr ⟨⟨rfl, rfl, rfl, rfl, rfl, fun _ hr _ => hr, fun _ _ _ _ ht => ht⟩, .inr rfl⟩
  | advance caller fate => exact .inl ⟨caller, fate, rfl, h⟩
  | abort caller =>
      cases h
      exact .inr ⟨outside_setTask (fun _ _ _ heq => by cases heq), .inr rfl⟩

end Lightfriend.Email
