import Lightfriend.LightTool.Trial

/-! # Dispatchers and supervisors

A dispatcher claims a queued run, asks the responder once, passes its activity
labels on and stores the reply or a failure. Supervisors fail runs that have been
silent for too long and dispatch queued ones again. Each statement is atomic on
its row; between two statements anything else may happen.
-/

namespace Lightfriend.LightTool

/-! ## The execution service -/

inductive ExecutionError
  | blankText (field : String)
  | textTooLong (field : String) (maxCharacters : Nat)
  | repository (error : RepositoryError)
deriving DecidableEq, Repr

def maxRunActivityCharacters : Nat := 80
def maxRunErrorCharacters : Nat := 120
def maxRunAssistantCharacters : Nat := 32000

def normalizeText (value field : String) (maxCharacters : Nat) : Except ExecutionError String :=
  let value := trim value
  if value.isEmpty then .error (.blankText field)
  else if maxCharacters < value.toList.length then .error (.textTooLong field maxCharacters)
  else .ok value

/-! Each operation of the service checks its text; the result is the statement it issues. -/

def claim (runId activityText : String) (now : Int) : Except ExecutionError Statement :=
  (normalizeText activityText "activity_text" maxRunActivityCharacters).map
    (fun text => .claimQueuedRun runId text now)

def updateActivity (runId activityText : String) (now : Int) : Except ExecutionError Statement :=
  (normalizeText activityText "activity_text" maxRunActivityCharacters).map
    (fun text => .updateRunningActivity runId text now)

def complete (runId assistantMessage : String) (now : Int) : Except ExecutionError Statement :=
  (normalizeText assistantMessage "assistant_message" maxRunAssistantCharacters).map
    (fun text => .completeRunningRun runId text now)

def fail (runId errorMessage : String) (now : Int) : Except ExecutionError Statement :=
  (normalizeText errorMessage "error_message" maxRunErrorCharacters).map
    (fun text => .failRunningRun runId text now)

/-! ## Statements at the database -/

/-- The database carries a statement out and answers, refuses it, or carries it out and its
answer is lost. -/
inductive DbAnswer
  | done
  | refused
  | lost
deriving DecidableEq, Repr

structure Issued where
  statement : Statement
  nonce : Nat
  answer : DbAnswer
deriving DecidableEq, Repr

def DbAnswer.answered {α : Type} (answer : DbAnswer) (result : Except RepositoryError α) :
    Except RepositoryError α :=
  match answer with
  | .done => result
  | .refused => .error .database
  | .lost => .error .database

/-- What the caller of a statement on one run learns. -/
def Issued.result (cipher : TextCipher) (issued : Issued) (runs : Runs) :
    Except RepositoryError (Option LightToolRunRecord) :=
  issued.answer.answered
    (returnedRun cipher (issued.statement.execute cipher issued.nonce runs).1)

/-- The rows after the statement. -/
def Issued.runs (cipher : TextCipher) (issued : Issued) (runs : Runs) : Runs :=
  match issued.answer with
  | .refused => runs
  | .done => (issued.statement.execute cipher issued.nonce runs).2
  | .lost => (issued.statement.execute cipher issued.nonce runs).2

inductive RunEventKind
  | claimed
  | completed
  | failed
  | interrupted
deriving DecidableEq, Repr

structure RunEvent where
  kind : RunEventKind
  runId : String
deriving DecidableEq, Repr

def Move.kind : Move → Option RunEventKind
  | .claim _ => some .claimed
  | .updateActivity _ => none
  | .complete _ => some .completed
  | .fail _ => some .failed
  | .interrupt _ => some .interrupted

/-- One event for every row the statement moves. -/
def Runs.moved (runs : Runs) (move : Move) (select : LightToolRun → Bool) : List RunEvent :=
  match move.kind with
  | none => []
  | some kind => (runs.selected move select).map (fun r => ⟨kind, r.id⟩)

def Issued.events (cipher : TextCipher) (issued : Issued) (runs : Runs) : List RunEvent :=
  match issued.answer, cipher.encrypt issued.nonce issued.statement.text with
  | .refused, _ => []
  | _, .error _ => []
  | _, .ok sealed => runs.moved (issued.statement.move sealed) issued.statement.selects

/-! ## A dispatcher -/

def initialActivity : String := "THINKING..."
def genericFailure : String := "REQUEST FAILED"
def historyTurnLimit : Nat := 4

inductive LightToolDispatchOutcome
  | completed
  | failed
  | notClaimed
  | superseded
deriving DecidableEq, Repr

inductive LightToolRunPrincipal
  | anonymous (deviceId : Int)
  | account (deviceId userId : Int)
deriving DecidableEq, Repr

structure LightToolConversationTurn where
  userMessage : String
  assistantMessage : String
deriving DecidableEq, Repr

/-- One execution of the agent. -/
structure Invocation where
  runId : String
  principal : LightToolRunPrincipal
  history : List LightToolConversationTurn
  userMessage : String
  imageDataUrl : Option String
deriving DecidableEq, Repr

inductive DispatchPhase
  | starting
  | claimed (run : LightToolRunRecord)
  | responding
  | replied (response : Except String String)
  | failing
  | done (result : Except ExecutionError LightToolDispatchOutcome)

structure Dispatcher where
  runId : String
  phase : DispatchPhase

inductive DispatchInput
  | statement (now : Int) (nonce : Nat) (answer : DbAnswer)
  | history (answer : DbAnswer)
  | activity (text : String) (now : Int) (nonce : Nat) (answer : DbAnswer)
  | response (response : Except String String)

structure DispatchStep where
  phase : DispatchPhase
  issued : Option Issued
  invocation : Option Invocation

/-- Issue a checked statement and go on by its answer. -/
def attempt (cipher : TextCipher) (runs : Runs) (prepared : Except ExecutionError Statement)
    (nonce : Nat) (answer : DbAnswer) (found : LightToolRunRecord → DispatchPhase)
    (missing : DispatchPhase) (invalid : ExecutionError → DispatchPhase) : DispatchStep :=
  match prepared with
  | .error error => ⟨invalid error, none, none⟩
  | .ok statement =>
      let issued : Issued := ⟨statement, nonce, answer⟩
      let phase := match issued.result cipher runs with
        | .ok (some run) => found run
        | .ok none => missing
        | .error error => .done (.error (.repository error))
      ⟨phase, some issued, none⟩

def conversationTurns (priorRuns : List LightToolRunRecord) : List LightToolConversationTurn :=
  priorRuns.filterMap (fun run => run.assistantMessage.map (fun assistantMessage =>
    ⟨run.userMessage, assistantMessage⟩))

def principalOf (run : LightToolRunRecord) : LightToolRunPrincipal :=
  match run.accountUserId with
  | some userId => .account run.deviceId userId
  | none => .anonymous run.deviceId

/-- `dispatch_light_tool_run` between two suspensions. -/
def dispatchStep (cipher : TextCipher) (runs : Runs) (d : Dispatcher) (input : DispatchInput) :
    Option DispatchStep :=
  match d.phase, input with
  | .starting, .statement now nonce answer =>
      some (attempt cipher runs (claim d.runId initialActivity now) nonce answer .claimed
        (.done (.ok .notClaimed)) (fun error => .done (.error error)))
  | .claimed run, .history answer =>
      match answer.answered (findRecentCompletedForPrincipal cipher run.deviceId run.accountUserId
          run.createdAt historyTurnLimit runs) with
      | .error _ => some ⟨.failing, none, none⟩
      | .ok priorRuns =>
          some ⟨.responding, none, some
            { runId := d.runId
              principal := principalOf run
              history := conversationTurns priorRuns
              userMessage := run.userMessage
              imageDataUrl := run.imageDataUrl }⟩
  | .responding, .activity text now nonce answer =>
      -- an invalid label is ignored
      some (attempt cipher runs (updateActivity d.runId text now) nonce answer
        (fun _ => .responding) (.done (.ok .superseded)) (fun _ => .responding))
  | .responding, .response response => some ⟨.replied response, none, none⟩
  | .replied (.ok assistantMessage), .statement now nonce answer =>
      some (attempt cipher runs (complete d.runId assistantMessage now) nonce answer
        (fun _ => .done (.ok .completed)) (.done (.ok .superseded)) (fun _ => .failing))
  | .replied (.error _), .statement now nonce answer =>
      some (attempt cipher runs (fail d.runId genericFailure now) nonce answer
        (fun _ => .done (.ok .failed)) (.done (.ok .superseded))
        (fun error => .done (.error error)))
  | .failing, .statement now nonce answer =>
      some (attempt cipher runs (fail d.runId genericFailure now) nonce answer
        (fun _ => .done (.ok .failed)) (.done (.ok .superseded))
        (fun error => .done (.error error)))
  | _, _ => none

/-! ## The system -/

def staleRunningAfterSeconds : Int := 900
def queuedBatchSize : Nat := 100
def interruptedError : String := "REQUEST INTERRUPTED"

inductive SupervisorPhase
  | idle
  | swept
deriving DecidableEq, Repr

/-- The tables, the tasks that work on them, and the history of what was done: the moves of
rows, the executions of the agent and the limits each device was given. -/
structure System where
  store : Store
  dispatchers : List Dispatcher
  supervisors : List SupervisorPhase
  log : List RunEvent
  invocations : List Invocation
  limits : List (Int × Int)

def System.empty : System := ⟨Store.empty, [], [], [], [], []⟩

inductive Action
  | registerDevice (trialExpiresAt now : Int)
  | upsertForUser (userId : Int) (tokenHash : String) (expiresAt createdAt : Int)
  | consume (tokenHash : String) (deviceId now : Int)
  | disconnectDevice (deviceId now : Int)
  | createTrial (draft : RunDraft) (request : RunRequest) (now messageLimit : Int)
  | createAccount (draft : RunDraft) (accountUserId : Int) (request : RunRequest) (now : Int)
  | issue (issued : Issued)
  | spawn (runId : String)
  | dispatch (index : Nat) (input : DispatchInput)
  | startSupervisor
  | sweep (index : Nat) (now : Int) (nonce : Nat) (answer : DbAnswer)
  | requeue (index : Nat) (answer : DbAnswer)
  | restart

def System.perform (cipher : TextCipher) (issued : Issued) (s : System) : System :=
  { s with
    store := { s.store with runs := issued.runs cipher s.store.runs }
    log := s.log ++ issued.events cipher s.store.runs }

def System.performAll (cipher : TextCipher) (issued : Option Issued) (s : System) : System :=
  match issued with
  | none => s
  | some issued => s.perform cipher issued

/-- A creation that fails leaves the tables as they were. -/
def committed {α : Type} (result : Except RepositoryError (α × Store)) (s : Store) : Store :=
  match result with
  | .ok (_, next) => next
  | .error _ => s

def spawnQueued (queued : List (String × Int)) : List Dispatcher :=
  queued.map (fun entry => ⟨entry.1, .starting⟩)

/-- A supervisor fails the silent runs; on an error its pass ends. -/
def sweepStatement (now : Int) : Statement :=
  .failStaleRunningRuns (now - staleRunningAfterSeconds) interruptedError now

def sweepPhase (cipher : TextCipher) (issued : Issued) (runs : Runs) : SupervisorPhase :=
  match issued.answer.answered (issued.statement.execute cipher issued.nonce runs).1 with
  | .ok _ => .swept
  | .error _ => .idle

def requeued (answer : DbAnswer) (runs : Runs) : List Dispatcher :=
  match answer.answered (.ok (findQueuedRunIds queuedBatchSize runs)) with
  | .ok queued => spawnQueued queued
  | .error _ => []

def step (cipher : TextCipher) (s : System) : Action → Option System
  | .registerDevice trialExpiresAt now =>
      some { s with store := registerDevice trialExpiresAt now s.store }
  | .upsertForUser userId tokenHash expiresAt createdAt =>
      some { s with
        store := match upsertForUser userId tokenHash expiresAt createdAt s.store with
          | .ok store => store
          | .error _ => s.store }
  | .consume tokenHash deviceId now =>
      some { s with store := (consume tokenHash deviceId now s.store).2 }
  | .disconnectDevice deviceId now =>
      some { s with store := (disconnectDevice deviceId now s.store).2 }
  | .createTrial draft request now messageLimit =>
      some { s with
        store := committed
          (createAnonymousTrialRunWithImage cipher draft request now messageLimit s.store) s.store
        limits := s.limits ++ [(request.deviceId, messageLimit)] }
  | .createAccount draft accountUserId request now =>
      some { s with
        store := committed
          (createAccountRunWithImage cipher draft accountUserId request now s.store) s.store }
  | .issue issued => some (s.perform cipher issued)
  | .spawn runId => some { s with dispatchers := s.dispatchers ++ [⟨runId, .starting⟩] }
  | .dispatch index input =>
      match s.dispatchers[index]? with
      | none => none
      | some d =>
          match dispatchStep cipher s.store.runs d input with
          | none => none
          | some taken =>
              some (System.performAll cipher taken.issued
                { s with
                  dispatchers := s.dispatchers.set index ⟨d.runId, taken.phase⟩
                  invocations := s.invocations ++ taken.invocation.toList })
  | .startSupervisor => some { s with supervisors := s.supervisors ++ [.idle] }
  | .sweep index now nonce answer =>
      match s.supervisors[index]? with
      | some .idle =>
          let issued : Issued := ⟨sweepStatement now, nonce, answer⟩
          some (System.perform cipher issued
            { s with
              supervisors := s.supervisors.set index (sweepPhase cipher issued s.store.runs) })
      | _ => none
  | .requeue index answer =>
      match s.supervisors[index]? with
      | some .swept =>
          some { s with
            supervisors := s.supervisors.set index .idle
            dispatchers := s.dispatchers ++ requeued answer s.store.runs }
      | _ => none
  | .restart => some { s with dispatchers := [], supervisors := [] }

theorem step_dispatch (cipher : TextCipher) (s : System) (index : Nat) (input : DispatchInput) :
    step cipher s (.dispatch index input) =
      match s.dispatchers[index]? with
      | none => none
      | some d =>
          match dispatchStep cipher s.store.runs d input with
          | none => none
          | some taken =>
              some (System.performAll cipher taken.issued
                { s with
                  dispatchers := s.dispatchers.set index ⟨d.runId, taken.phase⟩
                  invocations := s.invocations ++ taken.invocation.toList }) := rfl

theorem step_sweep (cipher : TextCipher) (s : System) (index : Nat) (now : Int) (nonce : Nat)
    (answer : DbAnswer) :
    step cipher s (.sweep index now nonce answer) =
      match s.supervisors[index]? with
      | some .idle =>
          some (System.perform cipher ⟨sweepStatement now, nonce, answer⟩
            { s with
              supervisors := s.supervisors.set index
                (sweepPhase cipher ⟨sweepStatement now, nonce, answer⟩ s.store.runs) })
      | _ => none := rfl

theorem step_requeue (cipher : TextCipher) (s : System) (index : Nat) (answer : DbAnswer) :
    step cipher s (.requeue index answer) =
      match s.supervisors[index]? with
      | some .swept =>
          some { s with
            supervisors := s.supervisors.set index .idle
            dispatchers := s.dispatchers ++ requeued answer s.store.runs }
      | _ => none := rfl

end Lightfriend.LightTool
