import Lightfriend.Core.Machine
import Lightfriend.Prune.Pdu

/-! # Flows of a rule

A rule carries a tree of conditions whose leaves are actions. One interpreter
walks the tree and performs the action it ends at; the test panel has an
interpreter of its own, which reports its steps and performs nothing. What the
language model answers at a condition is a parameter, and so are the texts that
a snapshot is formatted to.
-/

namespace Lightfriend.Proactive

open Prune (Json)

/-! ## The tree -/

inductive FetchSource
  | email
  | chat (platform : String) (limit : Int)
  | weather (location : String)
  | internet (query : String)
  | tesla
  | mcp (server tool args : String)
  | events

inductive FlowNode
  | llmCondition (prompt : String) (fetch : List FetchSource)
      (trueBranch falseBranch : Option FlowNode)
  | keywordCondition (keyword : String) (trueBranch falseBranch : Option FlowNode)
  | action (actionType : String) (config : Json)

/-- `serde_json::Value::get`. -/
def jsonGet (value : Json) (key : String) : Option Json :=
  value.asObject.bind (·.lookup key)

def jsonStr (value : Json) (key : String) : Option String := (jsonGet value key).bind (·.asStr)

/-- Fields that the language model fills beside its decision. -/
abbrev Extras := List (String × Json)

structure LogicResult where
  conditionMet : Bool
  message : Option String
  extra : Extras

/-- What an evaluation reads beside the tree. -/
structure FlowEnv where
  /-- The answer at the condition that these branches lead to. -/
  answer : List Bool → Except String LogicResult
  toLowercase : String → String
  resolvePromptTemplate : String → String → String
  formatSnapshotMessage : Json → String
  compactEmailNotification : String → Json → String
  /-- Is the tool in the registry? -/
  registered : String → Bool
  /-- `user_core.find_by_id`, and whether it finds somebody. -/
  findById : Int → Except String Bool
  /-- The parameters of a tool that are taken from the snapshot. -/
  injectSnapshot : String → Option Json → Json → Json

/-- The fields of a rule that its evaluation reads. -/
structure FlowRule where
  userId : Int
  triggerType : String
  /-- `group_mode` of `trigger_config`, read with the default of a text that cannot be read. -/
  groupMode : Option String
deriving DecidableEq, Repr

/-- `!keyword.is_empty() && context.to_lowercase().contains(&keyword.to_lowercase())`. -/
def keywordMatches (env : FlowEnv) (triggerContext keyword : String) : Bool :=
  !keyword.isEmpty && containsText (env.toLowercase triggerContext) (env.toLowercase keyword)

/-! ## The evaluation that acts -/

inductive Execution
  | notify (method : String) (message : String)
  | toolCall (tool : String) (params : Json)

/-- The parameters of a tool call, the generated ones below those of the snapshot. -/
def toolParams (env : FlowEnv) (snapshot : Option Json) (tool : String) (config : Json)
    (extras : Option Extras) : Json :=
  let params := (jsonGet config "params").getD (.object [])
  env.injectSnapshot tool snapshot
    (match params, extras with
    | .object fields, some ex =>
        .object (ex ++ fields.filter (fun field => (ex.lookup field.1).isNone))
    | params, _ => params)

def executeFlowAction (env : FlowEnv) (rule : FlowRule) (snapshot : Option Json)
    (actionType : String) (config : Json) (message : String) (extras : Option Extras) :
    List Execution :=
  if actionType = "notify" then
    let method := (jsonStr config "method").getD "sms"
    [.notify method (snapshot.elim message (env.compactEmailNotification message))]
  else if actionType = "tool_call" then
    match jsonStr config "tool" with
    | none => []
    | some tool =>
        if env.registered tool then
          match env.findById rule.userId with
          | .ok true => [.toolCall tool (toolParams env snapshot tool config extras)]
          | .ok false => []
          | .error _ => []
        else []
  else []

structure FlowRun where
  /-- The branch taken at each condition on the way. -/
  branches : List Bool
  executed : List Execution
  failed : Option String

namespace FlowRun

def done : FlowRun := ⟨[], [], none⟩

/-- The run below a condition that took the branch `b`. -/
def under (b : Bool) (run : FlowRun) : FlowRun := { run with branches := b :: run.branches }

end FlowRun

/-- The message of an action: the generated one, the configured one, the snapshot, the context. -/
def actionMessage (env : FlowEnv) (triggerContext : String) (snapshot : Option Json)
    (config : Json) (prevMessage : Option String) : String :=
  match prevMessage with
  | some msg => msg
  | none =>
      match (jsonStr config "message").filter (fun s => !s.isEmpty) with
      | some msg => msg
      | none => snapshot.elim triggerContext env.formatSnapshotMessage

def evaluateFlow (env : FlowEnv) (rule : FlowRule) (triggerContext : String)
    (snapshot : Option Json) :
    FlowNode → List Bool → Option String → Option Extras → FlowRun
  | .llmCondition _ _ trueBranch falseBranch, path, prevMessage, prevExtras =>
      -- a rule of a group never asks the language model
      if rule.groupMode.isSome then
        match trueBranch with
        | some branch =>
            (evaluateFlow env rule triggerContext snapshot branch (path ++ [true]) prevMessage
              prevExtras).under true
        | none => FlowRun.done.under true
      else
        match env.answer path with
        | .error message => ⟨[], [], some message⟩
        | .ok result =>
            if result.conditionMet then
              match trueBranch with
              | some branch =>
                  (evaluateFlow env rule triggerContext snapshot branch (path ++ [true])
                    (result.message.or prevMessage)
                    ((if result.extra.isEmpty then none else some result.extra).or
                      prevExtras)).under true
              | none => FlowRun.done.under true
            else
              match falseBranch with
              | some branch =>
                  (evaluateFlow env rule triggerContext snapshot branch (path ++ [false])
                    prevMessage prevExtras).under false
              | none => FlowRun.done.under false
  | .keywordCondition keyword trueBranch falseBranch, path, prevMessage, prevExtras =>
      if keywordMatches env triggerContext keyword then
        match trueBranch with
        | some branch =>
            (evaluateFlow env rule triggerContext snapshot branch (path ++ [true]) prevMessage
              prevExtras).under true
        | none => FlowRun.done.under true
      else
        match falseBranch with
        | some branch =>
            (evaluateFlow env rule triggerContext snapshot branch (path ++ [false]) prevMessage
              prevExtras).under false
        | none => FlowRun.done.under false
  | .action actionType config, _, prevMessage, prevExtras =>
      ⟨[], executeFlowAction env rule snapshot actionType config
        (actionMessage env triggerContext snapshot config prevMessage) prevExtras, none⟩

/-! ## The evaluation that reports -/

inductive RuleTestStep
  | prefetching (sources : List String)
  | evaluatingLlm (promptPreview : String)
  | llmResult (decided : Bool) (message : Option String)
  | checkingKeyword (keyword : String)
  | keywordResult (matched : Bool)
  | wouldExecute (actionType description : String)
  | noAction (reason : String)
  | error (message : String)
deriving DecidableEq, Repr

def sourceName : FetchSource → String
  | .email => "email"
  | .chat platform _ => "chat (" ++ platform ++ ")"
  | .weather _ => "weather"
  | .internet query => "internet: " ++ query
  | .tesla => "tesla"
  | .mcp server tool _ => "mcp " ++ server ++ ":" ++ tool
  | .events => "tracked obligations"

/-- The first 120 characters of a longer prompt. -/
def promptPreview (resolved : String) : String :=
  if 120 < resolved.length then takeChars 120 resolved ++ "..." else resolved

def notifyDescription (method : String) : String := "send " ++ method ++ " notification"

def toolDescription (tool : String) : String := "call tool '" ++ tool ++ "'"

/-- What the panel says of an action. -/
def describeAction (actionType : String) (config : Json) : String :=
  if actionType = "notify" then notifyDescription ((jsonStr config "method").getD "sms")
  else if actionType = "tool_call" then
    toolDescription ((jsonStr config "tool").getD "unknown")
  else "execute '" ++ actionType ++ "' action"

def evaluateFlowTest (env : FlowEnv) (rule : FlowRule) (triggerContext : String) :
    FlowNode → List Bool → List RuleTestStep
  | .llmCondition prompt fetch trueBranch falseBranch, path =>
      (if fetch.isEmpty then [] else [.prefetching (fetch.map sourceName)]) ++
      .evaluatingLlm (promptPreview (env.resolvePromptTemplate prompt rule.triggerType)) ::
      match env.answer path with
      | .error message => [.error ("LLM error: " ++ message)]
      | .ok result =>
          .llmResult result.conditionMet result.message ::
          if result.conditionMet then
            match trueBranch with
            | some branch => evaluateFlowTest env rule triggerContext branch (path ++ [true])
            | none => [.noAction "Condition was true but no action configured"]
          else
            match falseBranch with
            | some branch => evaluateFlowTest env rule triggerContext branch (path ++ [false])
            | none => [.noAction "Condition was false and no else branch"]
  | .keywordCondition keyword trueBranch falseBranch, path =>
      .checkingKeyword keyword ::
      .keywordResult (keywordMatches env triggerContext keyword) ::
      if keywordMatches env triggerContext keyword then
        match trueBranch with
        | some branch => evaluateFlowTest env rule triggerContext branch (path ++ [true])
        | none => [.noAction "Keyword matched but no action configured"]
      else
        match falseBranch with
        | some branch => evaluateFlowTest env rule triggerContext branch (path ++ [false])
        | none => [.noAction "Keyword did not match and no else branch"]
  | .action actionType config, _ => [.wouldExecute actionType (describeAction actionType config)]

/-- The rule that the panel builds around the tree under test. -/
def panelRule (userId : Int) : FlowRule := ⟨userId, "test", none⟩

end Lightfriend.Proactive
