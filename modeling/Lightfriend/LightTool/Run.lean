import Lightfriend.Core.Machine
import Lightfriend.Core.Table

/-! # Light-tool runs

One row of `light_tool_runs` for every message sent from a device. Each statement
of the run's life rewrites one row, and only from the status it expects. The
texts of a row are stored encrypted; the cipher is a parameter.
-/

namespace Lightfriend.LightTool

/-! ## Rows -/

inductive RunStatus
  | queued
  | running
  | completed
  | failed
deriving DecidableEq, Repr

structure LightToolRun where
  id : String
  deviceId : Int
  accountUserId : Option Int
  clientMessageId : String
  encryptedUserMessage : String
  encryptedImageDataUrl : Option String
  encryptedActivityText : Option String
  encryptedAssistantMessage : Option String
  encryptedErrorMessage : Option String
  status : RunStatus
  createdAt : Int
  updatedAt : Int
  completedAt : Option Int
deriving DecidableEq, Repr

abbrev Runs := Table LightToolRun String LightToolRun.id

structure LightToolRunRecord where
  id : String
  deviceId : Int
  accountUserId : Option Int
  clientMessageId : String
  userMessage : String
  imageDataUrl : Option String
  activityText : Option String
  assistantMessage : Option String
  errorMessage : Option String
  status : RunStatus
  createdAt : Int
  updatedAt : Int
  completedAt : Option Int
deriving DecidableEq, Repr

inductive RepositoryError
  | database
  | encryption (detail : String)
deriving DecidableEq, Repr

/-- The cipher of the stored texts; the number is the nonce drawn for an encryption. -/
structure TextCipher where
  encrypt : Nat → String → Except String String
  decrypt : String → Except String String

/-- What was encrypted is decrypted to the same text. -/
def TextCipher.RoundTrips (cipher : TextCipher) : Prop :=
  ∀ nonce text sealed, cipher.encrypt nonce text = .ok sealed → cipher.decrypt sealed = .ok text

def decryptOptional (cipher : TextCipher) : Option String → Except String (Option String)
  | none => .ok none
  | some value => (cipher.decrypt value).map some

def decryptRun (cipher : TextCipher) (run : LightToolRun) :
    Except RepositoryError LightToolRunRecord :=
  Except.mapError .encryption do
    let userMessage ← cipher.decrypt run.encryptedUserMessage
    let imageDataUrl ← decryptOptional cipher run.encryptedImageDataUrl
    let activityText ← decryptOptional cipher run.encryptedActivityText
    let assistantMessage ← decryptOptional cipher run.encryptedAssistantMessage
    let errorMessage ← decryptOptional cipher run.encryptedErrorMessage
    pure
      { id := run.id
        deviceId := run.deviceId
        accountUserId := run.accountUserId
        clientMessageId := run.clientMessageId
        userMessage, imageDataUrl, activityText, assistantMessage, errorMessage
        status := run.status
        createdAt := run.createdAt
        updatedAt := run.updatedAt
        completedAt := run.completedAt }

/-! ## Moves of a row -/

/-- The columns one lifecycle statement sets, with its texts encrypted. -/
inductive Move
  | claim (activityText : String)
  | updateActivity (activityText : String)
  | complete (assistantMessage : String)
  | fail (errorMessage : String)
  | interrupt (errorMessage : String)
deriving DecidableEq, Repr

/-- The status the statement filters on. -/
def Move.expected : Move → RunStatus
  | .claim _ => .queued
  | .updateActivity _ => .running
  | .complete _ => .running
  | .fail _ => .running
  | .interrupt _ => .running

def LightToolRun.failed (now : Int) (errorMessage : String) (r : LightToolRun) : LightToolRun :=
  { r with
    status := .failed
    encryptedActivityText := none
    encryptedImageDataUrl := none
    encryptedAssistantMessage := none
    encryptedErrorMessage := some errorMessage
    updatedAt := now
    completedAt := some now }

def Move.apply (now : Int) : Move → LightToolRun → LightToolRun
  | .claim activityText, r =>
      { r with status := .running, encryptedActivityText := some activityText, updatedAt := now }
  | .updateActivity activityText, r =>
      { r with encryptedActivityText := some activityText, updatedAt := now }
  | .complete assistantMessage, r =>
      { r with
        status := .completed
        encryptedActivityText := none
        encryptedImageDataUrl := none
        encryptedAssistantMessage := some assistantMessage
        encryptedErrorMessage := none
        updatedAt := now
        completedAt := some now }
  | .fail errorMessage, r => r.failed now errorMessage
  | .interrupt errorMessage, r => r.failed now errorMessage

@[simp] theorem Move.apply_id (move : Move) (now : Int) (r : LightToolRun) :
    (move.apply now r).id = r.id := by
  cases move <;> rfl

@[simp] theorem Move.apply_deviceId (move : Move) (now : Int) (r : LightToolRun) :
    (move.apply now r).deviceId = r.deviceId := by
  cases move <;> rfl

@[simp] theorem Move.apply_accountUserId (move : Move) (now : Int) (r : LightToolRun) :
    (move.apply now r).accountUserId = r.accountUserId := by
  cases move <;> rfl

@[simp] theorem Move.apply_clientMessageId (move : Move) (now : Int) (r : LightToolRun) :
    (move.apply now r).clientMessageId = r.clientMessageId := by
  cases move <;> rfl

@[simp] theorem Move.apply_encryptedUserMessage (move : Move) (now : Int) (r : LightToolRun) :
    (move.apply now r).encryptedUserMessage = r.encryptedUserMessage := by
  cases move <;> rfl

/-! ## Statements -/

namespace Runs

/-- The rows a statement selects, in the status it expects. -/
def selected (runs : Runs) (move : Move) (select : LightToolRun → Bool) : List LightToolRun :=
  runs.rows.filter (fun r => select r && r.status = move.expected)

/-- One guarded `UPDATE`. -/
def advance (runs : Runs) (move : Move) (now : Int) (select : LightToolRun → Bool) : Runs :=
  runs.updateWhere (fun r => select r && r.status = move.expected) (move.apply now)
    (move.apply_id now)

end Runs

/-- A lifecycle statement, before its text is encrypted. -/
inductive Statement
  | claimQueuedRun (runId activityText : String) (now : Int)
  | updateRunningActivity (runId activityText : String) (now : Int)
  | completeRunningRun (runId assistantMessage : String) (now : Int)
  | failRunningRun (runId errorMessage : String) (now : Int)
  | failStaleRunningRuns (staleBefore : Int) (errorMessage : String) (now : Int)
deriving DecidableEq, Repr

namespace Statement

def text : Statement → String
  | .claimQueuedRun _ activityText _ => activityText
  | .updateRunningActivity _ activityText _ => activityText
  | .completeRunningRun _ assistantMessage _ => assistantMessage
  | .failRunningRun _ errorMessage _ => errorMessage
  | .failStaleRunningRuns _ errorMessage _ => errorMessage

def now : Statement → Int
  | .claimQueuedRun _ _ now => now
  | .updateRunningActivity _ _ now => now
  | .completeRunningRun _ _ now => now
  | .failRunningRun _ _ now => now
  | .failStaleRunningRuns _ _ now => now

def move : Statement → String → Move
  | .claimQueuedRun _ _ _ => .claim
  | .updateRunningActivity _ _ _ => .updateActivity
  | .completeRunningRun _ _ _ => .complete
  | .failRunningRun _ _ _ => .fail
  | .failStaleRunningRuns _ _ _ => .interrupt

/-- Its filter besides the status. -/
def selects : Statement → LightToolRun → Bool
  | .claimQueuedRun runId _ _, r => r.id = runId
  | .updateRunningActivity runId _ _, r => r.id = runId
  | .completeRunningRun runId _ _, r => r.id = runId
  | .failRunningRun runId _ _, r => r.id = runId
  | .failStaleRunningRuns staleBefore _ _, r => r.updatedAt ≤ staleBefore

/-- Encrypt the text, update the selected rows and return them. -/
def execute (cipher : TextCipher) (nonce : Nat) (statement : Statement) (runs : Runs) :
    Except RepositoryError (List LightToolRun) × Runs :=
  match cipher.encrypt nonce statement.text with
  | .error detail => (.error (.encryption detail), runs)
  | .ok sealed =>
      let move := statement.move sealed
      (.ok ((runs.selected move statement.selects).map (move.apply statement.now)),
        runs.advance move statement.now statement.selects)

end Statement

/-- `get_result(..).optional()`, decrypted. -/
def returnedRun (cipher : TextCipher) :
    Except RepositoryError (List LightToolRun) → Except RepositoryError (Option LightToolRunRecord)
  | .error error => .error error
  | .ok [] => .ok none
  | .ok (run :: _) => (decryptRun cipher run).map some

section Repository

variable (cipher : TextCipher) (nonce : Nat)

def claimQueuedRun (runId activityText : String) (now : Int) (runs : Runs) :
    Except RepositoryError (Option LightToolRunRecord) × Runs :=
  let (rows, next) := (Statement.claimQueuedRun runId activityText now).execute cipher nonce runs
  (returnedRun cipher rows, next)

def updateRunningActivity (runId activityText : String) (now : Int) (runs : Runs) :
    Except RepositoryError (Option LightToolRunRecord) × Runs :=
  let (rows, next) :=
    (Statement.updateRunningActivity runId activityText now).execute cipher nonce runs
  (returnedRun cipher rows, next)

def completeRunningRun (runId assistantMessage : String) (now : Int) (runs : Runs) :
    Except RepositoryError (Option LightToolRunRecord) × Runs :=
  let (rows, next) :=
    (Statement.completeRunningRun runId assistantMessage now).execute cipher nonce runs
  (returnedRun cipher rows, next)

def failRunningRun (runId errorMessage : String) (now : Int) (runs : Runs) :
    Except RepositoryError (Option LightToolRunRecord) × Runs :=
  let (rows, next) := (Statement.failRunningRun runId errorMessage now).execute cipher nonce runs
  (returnedRun cipher rows, next)

def failStaleRunningRuns (staleBefore : Int) (errorMessage : String) (now : Int) (runs : Runs) :
    Except RepositoryError (List (String × Int)) × Runs :=
  let (rows, next) :=
    (Statement.failStaleRunningRuns staleBefore errorMessage now).execute cipher nonce runs
  (rows.map (fun rows => rows.map (fun r => (r.id, r.deviceId))), next)

end Repository

def findQueuedRunIds (limit : Nat) (runs : Runs) : List (String × Int) :=
  ((orderBy (fun a b => a.createdAt < b.createdAt ∨ (a.createdAt = b.createdAt ∧ a.id ≤ b.id))
    (runs.rows.filter (fun r => r.status = .queued))).take limit).map
      (fun r => (r.id, r.deviceId))

/-- `ORDER BY created_at DESC, completed_at DESC, id DESC`; a completed run has a completion time. -/
def laterCompleted (a b : LightToolRun) : Prop :=
  b.createdAt < a.createdAt ∨ (b.createdAt = a.createdAt ∧
    (b.completedAt.getD i32Max < a.completedAt.getD i32Max ∨
      (b.completedAt.getD i32Max = a.completedAt.getD i32Max ∧ b.id ≤ a.id)))

instance : DecidableRel laterCompleted := fun a b => by
  unfold laterCompleted
  infer_instance

def findRecentCompletedForPrincipal (cipher : TextCipher) (deviceId : Int)
    (accountUserId : Option Int) (beforeCreatedAt : Int) (limit : Nat) (runs : Runs) :
    Except RepositoryError (List LightToolRunRecord) :=
  let found := runs.rows.filter (fun r => r.deviceId = deviceId ∧ r.status = .completed ∧
    r.createdAt ≤ beforeCreatedAt ∧ r.encryptedAssistantMessage.isSome ∧
      r.accountUserId = accountUserId)
  ((orderBy laterCompleted found).take limit).reverse.mapM (decryptRun cipher)

/-! ## The life of a row -/

def RunStatus.Terminal (status : RunStatus) : Prop := status = .completed ∨ status = .failed

instance : DecidablePred RunStatus.Terminal := fun status => by
  unfold RunStatus.Terminal
  infer_instance

/-- Queued, then running, then completed or failed. -/
inductive RunStatus.Edge : RunStatus → RunStatus → Prop
  | claim : Edge .queued .running
  | complete : Edge .running .completed
  | fail : Edge .running .failed

def RunStatus.Moves : RunStatus → RunStatus → Prop := Relation.ReflTransGen RunStatus.Edge

theorem RunStatus.Moves.refl (status : RunStatus) : status.Moves status :=
  Relation.ReflTransGen.refl

theorem RunStatus.Moves.trans {a b c : RunStatus} (h : a.Moves b) (h' : b.Moves c) :
    a.Moves c :=
  Relation.ReflTransGen.trans h h'

/-- Each status has its own texts, and only a finished run its time and no image. -/
structure LightToolRun.WellFormed (r : LightToolRun) : Prop where
  activity : r.encryptedActivityText.isSome ↔ r.status = .running
  assistant : r.encryptedAssistantMessage.isSome ↔ r.status = .completed
  error : r.encryptedErrorMessage.isSome ↔ r.status = .failed
  completedAt : r.completedAt.isSome ↔ r.status.Terminal
  image : r.status.Terminal → r.encryptedImageDataUrl = none

/-- What becomes of a row: its identity and message stay, a finished row stays as it is, and
finishing removes its image. -/
structure LightToolRun.Evolves (r r' : LightToolRun) : Prop where
  id : r'.id = r.id
  deviceId : r'.deviceId = r.deviceId
  accountUserId : r'.accountUserId = r.accountUserId
  clientMessageId : r'.clientMessageId = r.clientMessageId
  userMessage : r'.encryptedUserMessage = r.encryptedUserMessage
  status : r.status.Moves r'.status
  final : r.status.Terminal → r' = r
  image : ¬ r.status.Terminal → r'.encryptedImageDataUrl =
    if r'.status.Terminal then none else r.encryptedImageDataUrl

theorem LightToolRun.Evolves.refl (r : LightToolRun) : r.Evolves r where
  id := rfl
  deviceId := rfl
  accountUserId := rfl
  clientMessageId := rfl
  userMessage := rfl
  status := RunStatus.Moves.refl _
  final := fun _ => rfl
  image := fun h => (if_neg h).symm

theorem LightToolRun.Evolves.trans {a b c : LightToolRun} (h : a.Evolves b) (h' : b.Evolves c) :
    a.Evolves c where
  id := h'.id.trans h.id
  deviceId := h'.deviceId.trans h.deviceId
  accountUserId := h'.accountUserId.trans h.accountUserId
  clientMessageId := h'.clientMessageId.trans h.clientMessageId
  userMessage := h'.userMessage.trans h.userMessage
  status := h.status.trans h'.status
  final := by
    intro hdone
    have hb := h.final hdone
    subst hb
    exact h'.final hdone
  image := by
    intro hlive
    by_cases hdone : b.status.Terminal
    · have hc := h'.final hdone
      subst hc
      exact h.image hlive
    · rw [h'.image hdone, h.image hlive, if_neg hdone]

theorem Move.expected_live (move : Move) : ¬ move.expected.Terminal := by
  cases move <;> simp [Move.expected, RunStatus.Terminal]

theorem Move.apply_status (move : Move) (now : Int) {r : LightToolRun}
    (h : r.status = move.expected) :
    (move.apply now r).status = r.status ∨ r.status.Edge (move.apply now r).status := by
  rw [h]
  cases move with
  | claim activityText => exact Or.inr .claim
  | updateActivity activityText => exact Or.inl h
  | complete assistantMessage => exact Or.inr .complete
  | fail errorMessage => exact Or.inr .fail
  | interrupt errorMessage => exact Or.inr .fail

/-- A move in the expected status is a step of the row's life. -/
theorem Move.apply_evolves (move : Move) (now : Int) {r : LightToolRun}
    (h : r.status = move.expected) : r.Evolves (move.apply now r) where
  id := move.apply_id now r
  deviceId := move.apply_deviceId now r
  accountUserId := move.apply_accountUserId now r
  clientMessageId := move.apply_clientMessageId now r
  userMessage := move.apply_encryptedUserMessage now r
  status := by
    rcases move.apply_status now h with hsame | hedge
    · rw [hsame]
      exact RunStatus.Moves.refl _
    · exact Relation.ReflTransGen.single hedge
  final := fun hdone => absurd (h ▸ hdone) move.expected_live
  image := by
    intro _
    cases move with
    | claim activityText => rfl
    | updateActivity activityText =>
        have hrunning : ¬ r.status.Terminal := h ▸ Move.expected_live _
        exact (if_neg hrunning).symm
    | complete assistantMessage => rfl
    | fail errorMessage => rfl
    | interrupt errorMessage => rfl

/-- What one statement may do to a row. -/
inductive LightToolRun.Steps (r : LightToolRun) : LightToolRun → Prop
  | stay : Steps r r
  | move {move : Move} {now : Int} (h : r.status = move.expected) : Steps r (move.apply now r)

theorem LightToolRun.Steps.evolves {r r' : LightToolRun} (h : r.Steps r') : r.Evolves r' := by
  cases h with
  | stay => exact .refl r
  | move h => exact Move.apply_evolves _ _ h

theorem LightToolRun.Steps.status {r r' : LightToolRun} (h : r.Steps r') :
    r'.status = r.status ∨ r.status.Edge r'.status := by
  cases h with
  | stay => exact Or.inl rfl
  | move h => exact Move.apply_status _ _ h

theorem Move.apply_wellFormed (move : Move) (now : Int) {r : LightToolRun}
    (h : r.status = move.expected) (hwell : r.WellFormed) : (move.apply now r).WellFormed := by
  have hassistant := hwell.assistant
  have herror := hwell.error
  have hcompleted := hwell.completedAt
  rw [h] at hassistant herror hcompleted
  cases move with
  | claim activityText =>
      constructor <;> simp_all [Move.apply, Move.expected, RunStatus.Terminal]
  | updateActivity activityText =>
      constructor <;> simp_all [Move.apply, Move.expected, RunStatus.Terminal]
  | complete assistantMessage =>
      constructor <;> simp [Move.apply, RunStatus.Terminal]
  | fail errorMessage =>
      constructor <;> simp [Move.apply, LightToolRun.failed, RunStatus.Terminal]
  | interrupt errorMessage =>
      constructor <;> simp [Move.apply, LightToolRun.failed, RunStatus.Terminal]

/-! ## What a statement changes -/

namespace Runs

theorem mem_selected {runs : Runs} {move : Move} {select : LightToolRun → Bool}
    {r : LightToolRun} :
    r ∈ runs.selected move select ↔ r ∈ runs ∧ select r = true ∧ r.status = move.expected := by
  simp [selected, List.mem_filter]

/-- A row after the statement is a row before it, or a selected row after its move. -/
theorem mem_advance {runs : Runs} {move : Move} {now : Int} {select : LightToolRun → Bool}
    {r' : LightToolRun} (h : r' ∈ runs.advance move now select) :
    ∃ r ∈ runs, (r ∉ runs.selected move select ∧ r' = r) ∨
      (r ∈ runs.selected move select ∧ r' = move.apply now r) := by
  obtain ⟨r, hr, rfl⟩ := (Table.mem_updateWhere _).mp h
  refine ⟨r, hr, ?_⟩
  rw [mem_selected]
  by_cases hselect : select r = true ∧ r.status = move.expected
  · right
    simp [hr, hselect]
  · left
    have hguard : (select r && decide (r.status = move.expected)) = false := by simpa using hselect
    simp [hguard]
    tauto

theorem exists_advance {runs : Runs} (move : Move) (now : Int) (select : LightToolRun → Bool)
    {r : LightToolRun} (h : r ∈ runs) : ∃ r' ∈ runs.advance move now select, r.Steps r' := by
  refine ⟨_, Table.exists_updateWhere _ h, ?_⟩
  split
  next hguard =>
    simp only [Bool.and_eq_true, decide_eq_true_eq] at hguard
    exact .move hguard.2
  · exact .stay

end Runs

end Lightfriend.LightTool
