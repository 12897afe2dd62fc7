import Lightfriend.Core.HashMap
import Lightfriend.Core.Machine

/-! # The rounds of the agent

The model is asked again with the results of the tools it asked for, five times at
most. The results of a round are kept under the ids that the model chose, and so are
those of all rounds together.
-/

namespace Lightfriend.AgentLoop

/-! ## Messages, responses and the world -/

structure ToolCall where
  id : String
  name : Option String
  arguments : Option String
deriving DecidableEq

inductive MessageRole
  | user | system | assistant | function | tool
deriving DecidableEq

inductive Content
  | text (text : String)
  | imageUrl (parts : List String)
deriving DecidableEq

structure Message where
  role : MessageRole
  content : Content
  toolCalls : Option (List ToolCall)
  toolCallId : Option String
deriving DecidableEq

inductive FinishReason
  | stop | length | contentFilter | toolCalls | null
deriving DecidableEq

structure Choice where
  finishReason : Option FinishReason
  content : Option String
  toolCalls : Option (List ToolCall)

structure Response where
  choices : List Choice

inductive AiProvider
  | openRouter | tinfoil | near

structure AiChatResult where
  response : Response
  provider : AiProvider
  fallbackFrom : Option AiProvider

inductive ToolDispatchResult
  | answer (answer : String)
  | answerWithTask (answer : String) (taskId : Int)
  | earlyReturn (message : String) (createdItemId : Option Int) (status : Nat)
  | subscriptionRequired (message : String)
  | unknown (message : String)
  | error (message : String)

inductive AgentRunError
  | system (logMsg : String)
  | earlyReturn (message : String) (createdItemId : Option Int) (status : Nat)

structure AgentFailureMessages where
  length : String
  contentFilter : String
  general : String

inductive AgentPrincipal
  | account
  | anonymousLightTool
deriving DecidableEq

structure AgentLoopInput where
  principal : AgentPrincipal
  completionMessages : List Message
  mockLlmResponse : Option Response
  mockToolResponses : Option (HashMap String String)
  failureMessages : AgentFailureMessages

structure WeatherArguments where
  location : String
  units : String
  forecastType : Option String

/-- What the model and the tools do, by round and by the place of the call in its round. A
public tool that does not answer in time gives nothing. -/
structure World where
  chat : Nat → Except String AiChatResult
  dispatchTool : Nat → Nat → ToolDispatchResult
  searchArguments : String → Except String String
  weatherArguments : String → Except String WeatherArguments
  firecrawlSearch : Nat → Nat → String → Option (Except String String)
  weatherForLocation : Nat → Nat → String → String → String → Option (Except String String)
  /-- The order in which a map gives its entries. -/
  order : HashMap String String → List (String × String)
  order_perm : ∀ m, (order m).Perm m.entries

inductive Event
  | modelCall (messages : List Message) (sticky : Option AiProvider)
  | dispatched (round position : Nat)
  | executed (tool : String)
  | stored (name : Option String) (id answer : String)

/-! ## One tool call -/

def internalToolError : String :=
  "Sorry, we encountered an issue processing your request. Our team has been notified."

def terminalTools : List String := ["set_reminder"]

def maxAnonymousToolResultCharacters : Nat := 12000

def boundAnonymousToolResult (result : String) : String :=
  if result.toList.length ≤ maxAnonymousToolResultCharacters then result
  else
    takeChars (maxAnonymousToolResultCharacters - " [truncated]".toList.length) result ++
      " [truncated]"

/-- What a public tool gave, and what is said if it took too long. -/
def publicResult (late : String) : Option (Except String String) → ToolDispatchResult
  | some (.ok answer) => .answer (boundAnonymousToolResult answer)
  | some (.error error) => .error error
  | none => .error late

variable (w : World) (input : AgentLoopInput)

def dispatchAnonymousLightTool (round position : Nat) (name arguments : String) :
    List Event × ToolDispatchResult :=
  if name = "search_firecrawl" then
    match w.searchArguments arguments with
    | .error error => ([], .error error)
    | .ok query =>
        ([.executed "search_firecrawl"],
          publicResult "Public web search timed out" (w.firecrawlSearch round position query))
  else if name = "get_weather" then
    match w.weatherArguments arguments with
    | .error error => ([], .error error)
    | .ok arguments =>
        ([.executed "get_weather"],
          publicResult "Public weather lookup timed out"
            (w.weatherForLocation round position arguments.location arguments.units
              (arguments.forecastType.getD "current")))
  else ([], .unknown "Tool is not available in the anonymous trial")

def dispatchToolForPrincipal (round position : Nat) (name arguments : String) :
    List Event × ToolDispatchResult :=
  match input.principal with
  | .account => ([.executed name], w.dispatchTool round position)
  | .anonymousLightTool => dispatchAnonymousLightTool w round position name arguments

/-- What a call comes to: an answer, an answer that ends the run, or an error. -/
inductive Reply
  | answer (text : String)
  | final (text : String) (task : Option Int)
  | failed (error : AgentRunError)

def Reply.isAnswer : Reply → Bool
  | .answer _ => true
  | _ => false

def Reply.text : Reply → String
  | .answer text => text
  | .final text _ => text
  | .failed _ => ""

def answerOrFinal (name text : String) : Reply :=
  if terminalTools.contains name then .final text none else .answer text

/-- An error is told to the user if it is about the plan. -/
def userFacing (e : String) : String :=
  if containsText e "plan" ∨ containsText e "feature" ∨ containsText e "upgrade" ∨
      containsText e "Autopilot" then e
  else internalToolError

def replyOf (name : String) : ToolDispatchResult → Reply
  | .answer answer => answerOrFinal name answer
  | .answerWithTask answer taskId => .final answer (some taskId)
  | .earlyReturn message createdItemId status =>
      .failed (.earlyReturn message createdItemId status)
  | .subscriptionRequired message => .answer message
  | .unknown message => .failed (.earlyReturn message none 500)
  | .error e => answerOrFinal name (userFacing e)

def callTool (round position : Nat) (call : ToolCall) : List Event × Reply :=
  match call.name with
  | none => ([], .failed (.system "Tool call missing function name"))
  | some name =>
      match call.arguments with
      | none => ([], .failed (.system ("Tool call " ++ name ++ " missing arguments")))
      | some arguments =>
          match input.mockToolResponses.bind (fun mocks => mocks.get name) with
          | some mock => ([], answerOrFinal name mock)
          | none =>
              let (events, result) := dispatchToolForPrincipal w input round position name arguments
              (.dispatched round position :: events, replyOf name result)

/-! ## One round -/

inductive RoundEnd
  | all (answers : HashMap String String)
  | final (answers : HashMap String String) (text : String) (task : Option Int)
  | failed (error : AgentRunError)

/-- The calls from a position on. -/
def runCalls (round : Nat) :
    Nat → List ToolCall → HashMap String String → List Event × RoundEnd
  | _, [], answers => ([], .all answers)
  | position, call :: rest, answers =>
      match callTool w input round position call with
      | (events, .failed error) => (events, .failed error)
      | (events, .final text task) => (events, .final (answers.insert call.id text) text task)
      | (events, .answer text) =>
          let (more, result) := runCalls round (position + 1) rest (answers.insert call.id text)
          (events ++ more, result)

structure LoopState where
  activeProvider : AiProvider
  stickyProvider : Option AiProvider
  loopMessages : List Message
  toolAnswers : HashMap String String

def LoopState.start : LoopState :=
  ⟨.tinfoil, none, input.completionMessages, HashMap.empty⟩

def applyProviderResult (s : LoopState) (result : AiChatResult) : LoopState :=
  { s with
    activeProvider := result.provider
    stickyProvider :=
      if result.fallbackFrom.isSome ∨ s.stickyProvider.isSome then some result.provider
      else s.stickyProvider }

def assistantMessage (choice : Choice) : Message :=
  ⟨.assistant, .text (choice.content.getD ""), choice.toolCalls, none⟩

def toolMessage (id answer : String) : Message :=
  ⟨.tool, .text answer, none, some id⟩

/-- What the history of an account keeps of the answers. -/
def storedAnswers (calls : List ToolCall) (answers : HashMap String String) : List Event :=
  match input.principal with
  | .account => calls.map (fun call => .stored call.name call.id ((answers.get call.id).getD ""))
  | .anonymousLightTool => []

inductive Step
  | next (s : LoopState)
  | done (s : LoopState) (finalResponse : String) (fail : Bool) (task : Option Int)
  | failed (error : AgentRunError)

def toolRound (round : Nat) (s : LoopState) (choice : Choice) : List Event × Step :=
  match choice.toolCalls with
  | none | some [] =>
      ([], .failed (.system "No tool calls found in response despite tool_calls finish reason"))
  | some (call :: rest) =>
      match runCalls w input round 0 (call :: rest) HashMap.empty with
      | (events, .failed error) => (events, .failed error)
      | (events, .final answers text task) =>
          (events, .done
            { s with
              loopMessages := s.loopMessages ++ [assistantMessage choice]
              toolAnswers := s.toolAnswers.extend answers } text false task)
      | (events, .all answers) =>
          (events ++ storedAnswers input (call :: rest) answers, .next
            { s with
              loopMessages := s.loopMessages ++ assistantMessage choice ::
                (call :: rest).map (fun call =>
                  toolMessage call.id ((answers.get call.id).getD ""))
              toolAnswers := s.toolAnswers.extend answers })

def readChoice (round : Nat) (s : LoopState) (choice : Choice) : List Event × Step :=
  match choice.finishReason with
  | none | some .stop => ([], .done s (choice.content.getD "") false none)
  | some .length => ([], .done s input.failureMessages.length true none)
  | some .contentFilter => ([], .done s input.failureMessages.contentFilter true none)
  | some .null => ([], .done s input.failureMessages.general true none)
  | some .toolCalls => toolRound w input round s choice

def readResponse (round : Nat) (s : LoopState) (response : Response) : List Event × Step :=
  match response.choices.head? with
  | none => ([], .failed (.system "AI provider returned no choices"))
  | some choice => readChoice w input round s choice

def agentRound (round : Nat) (s : LoopState) : List Event × Step :=
  match (if round = 0 then input.mockLlmResponse else none) with
  | some response => readResponse w input round s response
  | none =>
      let call := Event.modelCall s.loopMessages s.stickyProvider
      match w.chat round with
      | .error error => ([call], .failed (.system ("Failed to get chat completion: " ++ error)))
      | .ok result =>
          let (events, step) :=
            readResponse w input round (applyProviderResult s result) result.response
          (call :: events, step)

/-! ## The run -/

structure AgentLoopOutput where
  finalResponse : String
  fail : Bool
  toolAnswers : HashMap String String
  loopMessages : List Message
  createdItemId : Option Int
  activeProvider : AiProvider
  stickyProvider : Option AiProvider

def finalText (toolAnswers : HashMap String String) (finalResponse : String) : String :=
  if finalResponse = "" ∧ toolAnswers.entries ≠ [] then
    (((w.order toolAnswers).map Prod.snd).getLast?).getD
      "I was unable to complete your request. Please try again."
  else if finalResponse = "" then
    "I was unable to process your request. Please try again."
  else finalResponse

def finish (s : LoopState) (finalResponse : String) (fail : Bool) (task : Option Int) :
    AgentLoopOutput :=
  ⟨finalText w s.toolAnswers finalResponse, fail, s.toolAnswers, s.loopMessages, task,
    s.activeProvider, s.stickyProvider⟩

def maxRounds : Nat := 5

/-- The rounds that are left. -/
def agentRounds :
    Nat → Nat → LoopState → List Event × Except AgentRunError AgentLoopOutput
  | 0, _, s => ([], .ok (finish w s "" false none))
  | left + 1, round, s =>
      match agentRound w input round s with
      | (events, .failed error) => (events, .error error)
      | (events, .done s finalResponse fail task) =>
          (events, .ok (finish w s finalResponse fail task))
      | (events, .next s) =>
          let (more, result) := agentRounds left (round + 1) s
          (events ++ more, result)

def runAgentLoop : List Event × Except AgentRunError AgentLoopOutput :=
  agentRounds w input maxRounds 0 (LoopState.start input)

end Lightfriend.AgentLoop
