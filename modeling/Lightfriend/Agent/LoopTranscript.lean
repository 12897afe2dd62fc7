import Lightfriend.Agent.Loop

/-! # What a run of the agent does

A round that asks for tools and gets an answer to every call is followed by another.
What the model is then sent, and what the run says when the rounds are used up, are
compared with the answers that the calls themselves got.
-/

namespace Lightfriend.AgentLoop

section Inputs

variable (w : World) (input : AgentLoopInput)

/-! ## The answers of a round -/

/-- The response that a round reads. -/
def response (round : Nat) : Option Response :=
  match (if round = 0 then input.mockLlmResponse else none) with
  | some response => some response
  | none =>
      match w.chat round with
      | .error _ => none
      | .ok result => some result.response

/-- The choice of a round that asks for tools. -/
def toolChoice (round : Nat) : Option Choice :=
  ((response w input round).bind (fun r => r.choices.head?)).filter
    (fun choice => choice.finishReason = some .toolCalls)

def calls (round : Nat) : List ToolCall :=
  ((toolChoice w input round).bind Choice.toolCalls).getD []

/-- What each call comes to by itself. -/
def replies (round : Nat) : Nat → List ToolCall → List (ToolCall × Reply)
  | _, [] => []
  | position, call :: rest =>
      (call, (callTool w input round position call).2) :: replies round (position + 1) rest

/-- The answers up to the first call that ends the run. -/
def given : List (ToolCall × Reply) → List (String × String)
  | [] => []
  | (_, .failed _) :: _ => []
  | (call, .final text _) :: _ => [(call.id, text)]
  | (call, .answer text) :: rest => (call.id, text) :: given rest

def roundReplies (round : Nat) : List (ToolCall × Reply) :=
  replies w input round 0 (calls w input round)

/-- The round asks for tools, and every call gets an answer that lets the run go on. -/
def Completes (round : Nat) : Prop :=
  calls w input round ≠ [] ∧ ∀ p ∈ roundReplies w input round, p.2.isAnswer = true

instance (round : Nat) : Decidable (Completes w input round) :=
  inferInstanceAs (Decidable (_ ∧ _))

def Reached (round : Nat) : Prop := ∀ k < round, Completes w input k

instance (round : Nat) : Decidable (Reached w input round) :=
  inferInstanceAs (Decidable (∀ k < round, _))

/-- The answers of the first rounds, in the order in which the calls were made. -/
def kept (rounds : Nat) : List (String × String) :=
  (List.range rounds).flatMap (fun k => given (roundReplies w input k))

/-- The request for tools, and for each call a message with the answer to that call. -/
def roundMessages (round : Nat) : List Message :=
  match toolChoice w input round with
  | none => []
  | some choice =>
      assistantMessage choice ::
        (roundReplies w input round).map (fun p => toolMessage p.1.id p.2.text)

def transcript (rounds : Nat) : List Message :=
  (List.range rounds).flatMap (roundMessages w input)

/-! ## What is asked of a run -/

def Message.owes (m : Message) : List String :=
  if m.role = .assistant then (m.toolCalls.getD []).map ToolCall.id else []

/-- Each request for tools is followed by one tool message for each call, in order; the ids are
those that are still owed. -/
def PairedFrom : List String → List Message → Prop
  | [], [] => True
  | _ :: _, [] => False
  | id :: ids, m :: rest => m.role = .tool ∧ m.toolCallId = some id ∧ PairedFrom ids rest
  | [], m :: rest => m.role ≠ .tool ∧ PairedFrom m.owes rest

def Paired (messages : List Message) : Prop := PairedFrom [] messages

def sent (events : List Event) : List (List Message) :=
  events.filterMap (fun | .modelCall messages _ => some messages | _ => none)

def dispatches (events : List Event) : List (Nat × Nat) :=
  events.filterMap (fun | .dispatched round position => some (round, position) | _ => none)

def executions (events : List Event) : List String :=
  events.filterMap (fun | .executed tool => some tool | _ => none)

def publicTools : List String := ["search_firecrawl", "get_weather"]

structure Faithful : Prop where
  modelCalls : (sent (runAgentLoop w input).1).length ≤ 5
  messages : ∀ messages ∈ sent (runAgentLoop w input).1, Paired messages ∧
    ∃ k < 5, Reached w input k ∧ messages = input.completionMessages ++ transcript w input k
  dispatchedOnce : (dispatches (runAgentLoop w input).1).Nodup
  publicOnly : input.principal = .anonymousLightTool →
    ∀ tool ∈ executions (runAgentLoop w input).1, tool ∈ publicTools
  nonempty : ∀ output, (runAgentLoop w input).2 = .ok output → output.finalResponse ≠ ""
  lastAnswer : Reached w input 5 → ∃ output id, (runAgentLoop w input).2 = .ok output ∧
    (kept w input 5).getLast? = some (id, output.finalResponse)

/-- The messages that the run is given are paired; in a round that is followed by another, two
calls with one id have one answer; no call is answered by an empty text; and where the rounds
are used up, the last answer under each id is the last answer of all. -/
structure Orderly : Prop where
  paired : Paired input.completionMessages
  ids : ∀ k < 4, Reached w input (k + 1) → ∀ e ∈ given (roundReplies w input k),
    ∀ e' ∈ given (roundReplies w input k), e.1 = e'.1 → e.2 = e'.2
  answers : ∀ k < 5, Reached w input k → ∀ e ∈ given (roundReplies w input k), e.2 ≠ ""
  oneAnswer : Reached w input 5 → ∀ e, HashMap.Latest (kept w input 5) e →
    (kept w input 5).getLast?.map Prod.snd = some e.2

end Inputs

variable {w : World} {input : AgentLoopInput} {round : Nat}

@[simp] theorem sent_append (a b : List Event) : sent (a ++ b) = sent a ++ sent b :=
  List.filterMap_append

@[simp] theorem dispatches_append (a b : List Event) :
    dispatches (a ++ b) = dispatches a ++ dispatches b :=
  List.filterMap_append

@[simp] theorem executions_append (a b : List Event) :
    executions (a ++ b) = executions a ++ executions b :=
  List.filterMap_append

/-! ## What the calls do -/

theorem given_eq {ps : List (ToolCall × Reply)} (h : ∀ p ∈ ps, p.2.isAnswer = true) :
    given ps = ps.map (fun p => (p.1.id, p.2.text)) := by
  induction ps with
  | nil => rfl
  | cons p ps ih =>
      obtain ⟨call, reply⟩ := p
      cases reply with
      | answer text =>
          have hrest := ih (fun q hq => h q (List.mem_cons_of_mem _ hq))
          simp [given, hrest, Reply.text]
      | final text task => cases h _ List.mem_cons_self
      | failed error => cases h _ List.mem_cons_self

/-- All calls are answered, or one of them ends the run; what is kept are the answers given. -/
def RoundEnd.Fits (ps : List (ToolCall × Reply)) (answers : HashMap String String) :
    RoundEnd → Prop
  | .all answers' =>
      (∀ p ∈ ps, p.2.isAnswer = true) ∧ answers' = answers.insertAll (given ps)
  | .final answers' _ _ =>
      (¬ ∀ p ∈ ps, p.2.isAnswer = true) ∧ answers' = answers.insertAll (given ps)
  | .failed _ => ¬ ∀ p ∈ ps, p.2.isAnswer = true

variable (w input round) in
theorem runCalls_fits (position : Nat) (cs : List ToolCall) (answers : HashMap String String) :
    (runCalls w input round position cs answers).2.Fits (replies w input round position cs)
      answers := by
  induction cs generalizing position answers with
  | nil => exact ⟨by simp [replies], rfl⟩
  | cons call rest ih =>
      rw [runCalls, replies]
      rcases hcall : callTool w input round position call with ⟨events, text | ⟨text, task⟩ | error⟩
      · have hrest := ih (position + 1) (answers.insert call.id text)
        dsimp only
        revert hrest
        cases (runCalls w input round (position + 1) rest (answers.insert call.id text)).2 <;>
          simp [RoundEnd.Fits, given, Reply.isAnswer, HashMap.insertAll]
      · simp [RoundEnd.Fits, given, Reply.isAnswer, HashMap.insertAll]
      · simp [RoundEnd.Fits, Reply.isAnswer]

variable (w input round) in
/-- A call is dispatched once at most, executes a public tool for a caller that is not known,
and does not ask the model. -/
theorem callTool_events (position : Nat) (call : ToolCall) :
    sent (callTool w input round position call).1 = [] ∧
      List.Sublist (dispatches (callTool w input round position call).1) [(round, position)] ∧
      (input.principal = .anonymousLightTool →
        ∀ tool ∈ executions (callTool w input round position call).1, tool ∈ publicTools) := by
  unfold callTool dispatchToolForPrincipal dispatchAnonymousLightTool
  split
  · simp [sent, dispatches, executions]
  · split
    · simp [sent, dispatches, executions]
    · split
      · simp [sent, dispatches, executions]
      · cases hprincipal : input.principal with
        | account => simp [sent, dispatches, executions]
        | anonymousLightTool =>
            dsimp only
            split_ifs
            · split <;> simp [sent, dispatches, executions, publicTools]
            · split <;> simp [sent, dispatches, executions, publicTools]
            · simp [sent, dispatches, executions]

variable (w input round) in
theorem runCalls_events (position : Nat) (cs : List ToolCall) (answers : HashMap String String) :
    sent (runCalls w input round position cs answers).1 = [] ∧
      List.Sublist (dispatches (runCalls w input round position cs answers).1)
        ((List.range' position cs.length).map (fun i => (round, i))) ∧
      (input.principal = .anonymousLightTool →
        ∀ tool ∈ executions (runCalls w input round position cs answers).1,
          tool ∈ publicTools) := by
  induction cs generalizing position answers with
  | nil => simp [runCalls, sent, dispatches, executions]
  | cons call rest ih =>
      obtain ⟨hsent, hdispatched, hpublic⟩ := callTool_events w input round position call
      rw [runCalls, List.length_cons, List.range'_succ, List.map_cons]
      rcases hcall : callTool w input round position call with ⟨events, text | ⟨text, task⟩ | error⟩
      · obtain ⟨hsent', hdispatched', hpublic'⟩ := ih (position + 1) (answers.insert call.id text)
        rw [hcall] at hsent hdispatched hpublic
        dsimp only
        refine ⟨by rw [sent_append, hsent, hsent']; rfl, ?_, ?_⟩
        · rw [dispatches_append]
          exact hdispatched.append hdispatched'
        · intro hanonymous tool htool
          rw [executions_append, List.mem_append] at htool
          exact htool.elim (hpublic hanonymous tool) (hpublic' hanonymous tool)
      all_goals
        rw [hcall] at hsent hdispatched hpublic
        exact ⟨hsent, hdispatched.trans (List.singleton_sublist.mpr List.mem_cons_self), hpublic⟩

/-! ## What a round does -/

@[simp] theorem applyProviderResult_loopMessages (s : LoopState) (result : AiChatResult) :
    (applyProviderResult s result).loopMessages = s.loopMessages := rfl

@[simp] theorem applyProviderResult_toolAnswers (s : LoopState) (result : AiChatResult) :
    (applyProviderResult s result).toolAnswers = s.toolAnswers := rfl

variable (w input round) in
theorem map_fst_replies (position : Nat) (cs : List ToolCall) :
    (replies w input round position cs).map Prod.fst = cs := by
  induction cs generalizing position with
  | nil => rfl
  | cons call rest ih => simp [replies, ih]

variable (w input round) in
/-- The answers of the round by id. -/
def roundAnswers : HashMap String String :=
  HashMap.empty.insertAll (given (roundReplies w input round))

variable (w input round) in
/-- The messages of the round as the run builds them: each answer is looked up by its id. -/
def lookedUpMessages : List Message :=
  match toolChoice w input round with
  | none => []
  | some choice =>
      assistantMessage choice :: (calls w input round).map (fun call =>
        toolMessage call.id (((roundAnswers w input round).get call.id).getD ""))

variable (w input round) in
/-- What a step of the round says of it, and of the state that it leads to. -/
def Step.Fits (s : LoopState) : Step → Prop
  | .next s' => Completes w input round ∧
      s'.loopMessages = s.loopMessages ++ lookedUpMessages w input round ∧
      s'.toolAnswers = s.toolAnswers.extend (roundAnswers w input round)
  | .done s' _ _ _ => ¬ Completes w input round ∧
      ∀ e ∈ s'.toolAnswers.entries,
        e ∈ s.toolAnswers.entries ∨ e ∈ given (roundReplies w input round)
  | .failed _ => ¬ Completes w input round

variable (w input round) in
structure RoundSpec (s : LoopState) (result : List Event × Step) : Prop where
  fits : result.2.Fits w input round s
  dispatched : List.Sublist (dispatches result.1)
    ((List.range' 0 (calls w input round).length).map (fun i => (round, i)))
  publicOnly : input.principal = .anonymousLightTool →
    ∀ tool ∈ executions result.1, tool ∈ publicTools

@[simp] theorem sent_storedAnswers (cs : List ToolCall) (answers : HashMap String String) :
    sent (storedAnswers input cs answers) = [] := by
  unfold storedAnswers sent
  split <;> simp

@[simp] theorem dispatches_storedAnswers (cs : List ToolCall) (answers : HashMap String String) :
    dispatches (storedAnswers input cs answers) = [] := by
  unfold storedAnswers dispatches
  split <;> simp

@[simp] theorem executions_storedAnswers (cs : List ToolCall) (answers : HashMap String String) :
    executions (storedAnswers input cs answers) = [] := by
  unfold storedAnswers executions
  split <;> simp

theorem not_completes_of_calls (h : calls w input round = []) : ¬ Completes w input round :=
  fun hc => hc.1 h

theorem calls_of_toolChoice_none (h : toolChoice w input round = none) :
    calls w input round = [] := by
  simp [calls, h]

theorem calls_of_toolChoice {choice : Choice} (h : toolChoice w input round = some choice) :
    calls w input round = choice.toolCalls.getD [] := by
  simp [calls, h]

theorem toolRound_spec {choice : Choice} (h : toolChoice w input round = some choice)
    (s : LoopState) : RoundSpec w input round s (toolRound w input round s choice) := by
  have hcalls := calls_of_toolChoice h
  unfold toolRound
  split
  · rename_i hnone
    exact ⟨not_completes_of_calls (by simp [hcalls, hnone]), by simp [dispatches],
      by simp [executions]⟩
  · rename_i hnil
    exact ⟨not_completes_of_calls (by simp [hcalls, hnil]), by simp [dispatches],
      by simp [executions]⟩
  · rename_i call rest hcons
    rw [hcons, Option.getD_some] at hcalls
    have hreplies : replies w input round 0 (call :: rest) = roundReplies w input round := by
      rw [roundReplies, hcalls]
    have hfits := runCalls_fits w input round 0 (call :: rest)
      HashMap.empty
    obtain ⟨-, hdispatched, hpublic⟩ := runCalls_events w input round 0 (call :: rest) HashMap.empty
    rw [hreplies] at hfits
    rw [← hcalls] at hfits hdispatched hpublic
    rcases hrun : runCalls w input round 0 (calls w input round) HashMap.empty with
      ⟨events, answers | ⟨answers, text, task⟩ | error⟩
    · rw [hrun] at hfits hdispatched hpublic
      obtain ⟨hall, hanswers⟩ := hfits
      have hcompletes : Completes w input round := ⟨by simp [hcalls], hall⟩
      rw [← hcalls, hrun]
      refine ⟨⟨hcompletes, ?_, by simp [roundAnswers, hanswers]⟩, ?_, ?_⟩
      · simp [lookedUpMessages, h, roundAnswers, hanswers]
      · simpa using hdispatched
      · simpa using hpublic
    · rw [hrun] at hfits hdispatched hpublic
      obtain ⟨hnot, hanswers⟩ := hfits
      rw [← hcalls, hrun]
      refine ⟨⟨fun hc => hnot hc.2, ?_⟩, hdispatched, hpublic⟩
      intro e he
      rcases HashMap.mem_extend.mp he with hnew | ⟨hold, -⟩
      · rw [hanswers] at hnew
        exact .inr (HashMap.mem_insertAll_empty.mp hnew).mem
      · exact .inl hold
    · rw [hrun] at hfits hdispatched hpublic
      rw [← hcalls, hrun]
      exact ⟨fun hc => hfits hc.2, hdispatched, hpublic⟩

theorem readResponse_spec {r : Response} (h : response w input round = some r) (s : LoopState) :
    RoundSpec w input round s (readResponse w input round s r) := by
  unfold readResponse
  cases hchoice : r.choices.head? with
  | none =>
      have hnone : toolChoice w input round = none := by simp [toolChoice, h, hchoice]
      exact ⟨not_completes_of_calls (calls_of_toolChoice_none hnone), by simp [dispatches],
        by simp [executions]⟩
  | some choice =>
      by_cases htool : choice.finishReason = some .toolCalls
      · have hsome : toolChoice w input round = some choice := by
          simp [toolChoice, h, hchoice, htool]
        simpa only [readChoice, htool] using toolRound_spec hsome s
      · have hnone : toolChoice w input round = none := by
          simp [toolChoice, h, hchoice, htool]
        have hnot := not_completes_of_calls (calls_of_toolChoice_none hnone)
        dsimp only
        unfold readChoice
        split <;> first
          | contradiction
          | exact ⟨⟨hnot, fun e he => .inl he⟩, by simp [dispatches], by simp [executions]⟩

variable (w input round) in
theorem sent_readResponse (s : LoopState) (r : Response) :
    sent (readResponse w input round s r).1 = [] := by
  have hruns := fun cs =>
    (runCalls_events w input round 0 cs HashMap.empty).1
  unfold readResponse
  split
  · rfl
  · unfold readChoice
    split <;> try rfl
    unfold toolRound
    split
    · rfl
    · rfl
    · rename_i call rest hcons
      have hrun := hruns (call :: rest)
      split <;> rename_i hsplit <;> rw [hsplit] at hrun <;> simpa using hrun

variable (w input round) in
/-- A round asks the model once at most, and with the messages that it finds. -/
theorem agentRound_spec (s : LoopState) :
    RoundSpec w input round s (agentRound w input round s) ∧
      List.Sublist (sent (agentRound w input round s).1) [s.loopMessages] := by
  unfold agentRound
  cases hmock : (if round = 0 then input.mockLlmResponse else none) with
  | some r =>
      have hresponse : response w input round = some r := by simp [response, hmock]
      exact ⟨readResponse_spec hresponse s, by simp [sent_readResponse]⟩
  | none =>
      cases hchat : w.chat round with
      | error error =>
          have hnone : toolChoice w input round = none := by
            simp [toolChoice, response, hmock, hchat]
          exact ⟨⟨not_completes_of_calls (calls_of_toolChoice_none hnone), by simp [dispatches],
            by simp [executions]⟩, by simp [sent]⟩
      | ok result =>
          have hresponse : response w input round = some result.response := by
            simp [response, hmock, hchat]
          obtain ⟨hfits, hdispatched, hpublic⟩ :=
            readResponse_spec hresponse (applyProviderResult s result)
          have hsent := sent_readResponse w input round
            (applyProviderResult s result) result.response
          refine ⟨⟨hfits, hdispatched, hpublic⟩, ?_⟩
          have hcall : sent (Event.modelCall s.loopMessages s.stickyProvider ::
              (readResponse w input round (applyProviderResult s result) result.response).1) =
              [s.loopMessages] := congrArg (s.loopMessages :: ·) hsent
          rw [hcall]

/-! ## Whole runs -/

variable (w input) in
/-- What a round adds to whatever happens later holds of all rounds. -/
theorem agentRounds_events {P : Nat → Nat → List Event → Prop}
    (hnone : ∀ left round, P left round [])
    (hround : ∀ left round s rest, P left (round + 1) rest →
      P (left + 1) round ((agentRound w input round s).1 ++ rest)) (left : Nat) :
    ∀ round s, P left round (agentRounds w input left round s).1 := by
  induction left with
  | zero => exact fun round s => hnone 0 round
  | succ left ih =>
      intro round s
      rw [agentRounds]
      rcases hstep : agentRound w input round s with ⟨events, s' | _ | error⟩
      · have hnext := hround left round s _ (ih (round + 1) s')
        rw [hstep] at hnext
        exact hnext
      all_goals
        have hlast := hround left round s [] (hnone left (round + 1))
        rw [hstep, List.append_nil] at hlast
        exact hlast

theorem length_sent_agentRounds (left round : Nat) (s : LoopState) :
    (sent (agentRounds w input left round s).1).length ≤ left := by
  refine agentRounds_events w input (P := fun left _ events => (sent events).length ≤ left)
    (fun _ _ => Nat.zero_le _) ?_ left round s
  intro left round s rest hrest
  have hone := (agentRound_spec w input round s).2.length_le
  rw [List.length_singleton] at hone
  rw [sent_append, List.length_append]
  omega

/-- The calls of the rounds from one on, by round and position. -/
def positions (w : World) (input : AgentLoopInput) (left round : Nat) : List (Nat × Nat) :=
  (List.range' round left).flatMap
    (fun k => (List.range' 0 (calls w input k).length).map (fun i => (k, i)))

theorem nodup_positions (left round : Nat) : (positions w input left round).Nodup := by
  refine List.nodup_flatMap.mpr ⟨?_, ?_⟩
  · intro k hk
    exact List.Nodup.map (fun i j heq => congrArg Prod.snd heq) List.nodup_range'
  · have hrounds : (List.range' round left).Nodup := List.nodup_range'
    refine hrounds.imp ?_
    intro k k' hne p hp hp'
    obtain ⟨i, -, rfl⟩ := List.mem_map.mp hp
    obtain ⟨j, -, heq⟩ := List.mem_map.mp hp'
    exact hne (congrArg Prod.fst heq).symm

theorem dispatches_agentRounds (left round : Nat) (s : LoopState) :
    List.Sublist (dispatches (agentRounds w input left round s).1)
      (positions w input left round) := by
  refine agentRounds_events w input
    (P := fun left round events => List.Sublist (dispatches events) (positions w input left round))
    (fun _ _ => List.nil_sublist _) ?_ left round s
  intro left round s rest hrest
  have hpositions : positions w input (left + 1) round =
      (List.range' 0 (calls w input round).length).map (fun i => (round, i)) ++
        positions w input left (round + 1) := by
    rw [positions, List.range'_succ, List.flatMap_cons, positions]
  rw [dispatches_append, hpositions]
  exact (agentRound_spec w input round s).1.dispatched.append hrest

theorem executions_agentRounds (hanonymous : input.principal = .anonymousLightTool)
    (left round : Nat) (s : LoopState) :
    ∀ tool ∈ executions (agentRounds w input left round s).1, tool ∈ publicTools := by
  refine agentRounds_events w input
    (P := fun _ _ events => ∀ tool ∈ executions events, tool ∈ publicTools)
    (fun _ _ tool htool => by cases htool) ?_ left round s
  intro left round s rest hrest tool htool
  rw [executions_append, List.mem_append] at htool
  exact htool.elim ((agentRound_spec w input round s).1.publicOnly hanonymous tool) (hrest tool)

/-! ## The messages and the answers of the rounds -/

theorem Reached.succ (hreached : Reached w input round) (hround : Completes w input round) :
    Reached w input (round + 1) := by
  intro k hk
  rcases Nat.lt_succ_iff_lt_or_eq.mp hk with hlt | rfl
  · exact hreached k hlt
  · exact hround

theorem kept_succ (rounds : Nat) :
    kept w input (rounds + 1) = kept w input rounds ++ given (roundReplies w input rounds) := by
  rw [kept, List.range_succ, List.flatMap_append, List.flatMap_singleton, kept]

theorem transcript_succ (rounds : Nat) :
    transcript w input (rounds + 1) =
      transcript w input rounds ++ roundMessages w input rounds := by
  rw [transcript, List.range_succ, List.flatMap_append, List.flatMap_singleton, transcript]

/-- If calls with one id have one answer, what is looked up is the answer of the call. -/
theorem lookedUpMessages_eq (hround : Completes w input round)
    (hids : ∀ e ∈ given (roundReplies w input round),
      ∀ e' ∈ given (roundReplies w input round), e.1 = e'.1 → e.2 = e'.2) :
    lookedUpMessages w input round = roundMessages w input round := by
  unfold lookedUpMessages roundMessages
  split
  · rfl
  · have hgiven := given_eq hround.2
    have hfst := map_fst_replies w input round 0
      (calls w input round)
    have hcalls : calls w input round = (roundReplies w input round).map Prod.fst := hfst.symm
    rw [hcalls, List.map_map]
    congr 1
    refine List.map_congr_left ?_
    intro p hp
    have hin : (p.1.id, p.2.text) ∈ given (roundReplies w input round) := by
      rw [hgiven]
      exact List.mem_map.mpr ⟨p, hp, rfl⟩
    obtain ⟨text, hlatest⟩ := HashMap.exists_latest (List.mem_map.mpr ⟨_, hin, rfl⟩)
    have hget : (roundAnswers w input round).get p.1.id = some text :=
      HashMap.get_eq_some.mpr (HashMap.mem_insertAll_empty.mpr hlatest)
    have hsame : text = p.2.text := hids _ hlatest.mem _ hin rfl
    simp [hget, hsame]

variable (w input) in
/-- Where a run stands before a round. -/
structure At (round : Nat) (s : LoopState) : Prop where
  reached : Reached w input round
  messages : round ≤ 4 → s.loopMessages = input.completionMessages ++ transcript w input round
  answers : ∀ e, e ∈ s.toolAnswers.entries ↔ HashMap.Latest (kept w input round) e

theorem At.start : At w input 0 (LoopState.start input) where
  reached := fun k hk => absurd hk (Nat.not_lt_zero k)
  messages := fun _ => by simp [LoopState.start, transcript]
  answers := fun e => by
    simp [LoopState.start, HashMap.empty, kept, HashMap.Latest]

theorem At.next (h : Orderly w input) {s s' : LoopState} (hat : At w input round s)
    (hnext : (agentRound w input round s).2 = .next s') : At w input (round + 1) s' := by
  have hfits := (agentRound_spec w input round s).1.fits
  rw [hnext] at hfits
  obtain ⟨hround, hmessages, hanswers⟩ := hfits
  have hreached := hat.reached.succ hround
  refine ⟨hreached, ?_, ?_⟩
  · intro hle
    rw [hmessages, hat.messages (by omega), transcript_succ, List.append_assoc,
      lookedUpMessages_eq hround (h.ids round (by omega) hreached)]
  · intro e
    rw [hanswers, HashMap.mem_extend, kept_succ, HashMap.latest_append, hat.answers,
      roundAnswers, HashMap.mem_insertAll_empty, HashMap.hasKey_insertAll_empty]
    simp only [List.mem_map, not_exists, not_and]

theorem agentRounds_sent (h : Orderly w input) (left : Nat) :
    ∀ round s, left + round = 5 → At w input round s →
      ∀ messages ∈ sent (agentRounds w input left round s).1, ∃ k < 5, Reached w input k ∧
        messages = input.completionMessages ++ transcript w input k := by
  induction left with
  | zero => simp [agentRounds, sent]
  | succ left ih =>
      intro round s hleft hat messages hin
      have hone := (agentRound_spec w input round s).2
      have hhere : messages = s.loopMessages → ∃ k < 5, Reached w input k ∧
          messages = input.completionMessages ++ transcript w input k := by
        rintro rfl
        exact ⟨round, by omega, hat.reached, hat.messages (by omega)⟩
      rw [agentRounds] at hin
      rcases hround : agentRound w input round s with ⟨events, s' | _ | error⟩
      · rw [hround] at hone hin
        rw [sent_append, List.mem_append] at hin
        rcases hin with hin | hin
        · exact hhere (List.mem_singleton.mp (hone.subset hin))
        · have hnext : (agentRound w input round s).2 = .next s' := by rw [hround]
          exact ih (round + 1) s' (by omega) (hat.next h hnext) messages hin
      all_goals
        rw [hround] at hone hin
        exact hhere (List.mem_singleton.mp (hone.subset hin))

/-! ### The requests and their answers are paired -/

theorem PairedFrom.append {ids : List String} {a b : List Message} (ha : PairedFrom ids a)
    (hb : Paired b) : PairedFrom ids (a ++ b) := by
  induction a generalizing ids with
  | nil =>
      cases ids with
      | nil => exact hb
      | cons id ids => exact ha.elim
  | cons m rest ih =>
      cases ids with
      | nil => exact ⟨ha.1, ih ha.2⟩
      | cons id ids => exact ⟨ha.1, ha.2.1, ih ha.2.2⟩

theorem pairedFrom_toolMessages (ps : List (ToolCall × Reply)) :
    PairedFrom (ps.map (fun p => p.1.id)) (ps.map (fun p => toolMessage p.1.id p.2.text)) := by
  induction ps with
  | nil => trivial
  | cons p ps ih => exact ⟨rfl, rfl, ih⟩

theorem paired_roundMessages : Paired (roundMessages w input round) := by
  unfold roundMessages
  split
  · trivial
  · rename_i choice hchoice
    have hids : (assistantMessage choice).owes =
        (roundReplies w input round).map (fun p => p.1.id) := by
      have hcalls := calls_of_toolChoice hchoice
      have hfst := map_fst_replies w input round 0
        (calls w input round)
      calc (assistantMessage choice).owes
          = (calls w input round).map ToolCall.id := by
            simp [Message.owes, assistantMessage, hcalls]
        _ = ((roundReplies w input round).map Prod.fst).map ToolCall.id := by
            rw [roundReplies, hfst]
        _ = (roundReplies w input round).map (fun p => p.1.id) := by
            rw [List.map_map]
            rfl
    refine ⟨by simp [assistantMessage], ?_⟩
    rw [hids]
    exact pairedFrom_toolMessages _

theorem paired_transcript (rounds : Nat) : Paired (transcript w input rounds) := by
  induction rounds with
  | zero => trivial
  | succ rounds ih =>
      rw [transcript_succ]
      exact PairedFrom.append ih paired_roundMessages

/-! ### The final answer -/

theorem finalText_of_empty {toolAnswers : HashMap String String} (hne : toolAnswers.entries ≠ []) :
    ∃ e ∈ toolAnswers.entries, finalText w toolAnswers "" = e.2 := by
  have hperm := w.order_perm toolAnswers
  have horder : w.order toolAnswers ≠ [] := by
    intro hnil
    rw [hnil] at hperm
    exact hne hperm.symm.eq_nil
  have hlast := List.getLast?_eq_some_getLast horder
  refine ⟨(w.order toolAnswers).getLast horder, hperm.subset (List.getLast_mem horder), ?_⟩
  simp [finalText, hne, List.getLast?_map, hlast]

theorem finalText_ne_empty {toolAnswers : HashMap String String}
    (h : ∀ e ∈ toolAnswers.entries, e.2 ≠ "") (finalResponse : String) :
    finalText w toolAnswers finalResponse ≠ "" := by
  by_cases hempty : finalResponse = ""
  · subst hempty
    by_cases hne : toolAnswers.entries = []
    · simp [finalText, hne]
    · obtain ⟨e, he, heq⟩ := finalText_of_empty (w := w) hne
      rw [heq]
      exact h e he
  · simp [finalText, hempty]

theorem At.answers_ne_empty (h : Orderly w input) {s : LoopState} (hle : round ≤ 5)
    (hat : At w input round s) : ∀ e ∈ s.toolAnswers.entries, e.2 ≠ "" := by
  intro e he
  have hkept := ((hat.answers e).mp he).mem
  obtain ⟨k, hk, hgiven⟩ := List.mem_flatMap.mp hkept
  have hlt : k < round := List.mem_range.mp hk
  exact h.answers k (by omega) (fun j hj => hat.reached j (by omega)) e hgiven

theorem agentRounds_nonempty (h : Orderly w input) (left : Nat) :
    ∀ round s output, left + round = 5 → At w input round s →
      (agentRounds w input left round s).2 = .ok output → output.finalResponse ≠ "" := by
  induction left with
  | zero =>
      intro round s output hleft hat hok
      cases hok
      exact finalText_ne_empty (hat.answers_ne_empty h (by omega)) ""
  | succ left ih =>
      intro round s output hleft hat hok
      have hfits := (agentRound_spec w input round s).1.fits
      rw [agentRounds] at hok
      rcases hround : agentRound w input round s with
        ⟨events, s' | ⟨s', finalResponse, fail, task⟩ | error⟩
      · rw [hround] at hok
        have hnext : (agentRound w input round s).2 = .next s' := by rw [hround]
        exact ih (round + 1) s' output (by omega) (hat.next h hnext) hok
      · rw [hround] at hok hfits
        cases hok
        refine finalText_ne_empty ?_ finalResponse
        intro e he
        rcases hfits.2 e he with hold | hnew
        · exact hat.answers_ne_empty h (by omega) e hold
        · exact h.answers round (by omega) hat.reached e hnew
      · rw [hround] at hok
        cases hok

theorem agentRounds_last (h : Orderly w input) (hreached : Reached w input 5) (left : Nat) :
    ∀ round s, left + round = 5 → At w input round s →
      ∃ output id, (agentRounds w input left round s).2 = .ok output ∧
        (kept w input 5).getLast? = some (id, output.finalResponse) := by
  induction left with
  | zero =>
      intro round s hleft hat
      obtain rfl : round = 5 := by omega
      have hkept : kept w input 5 ≠ [] := by
        intro hnil
        have hgiven := List.flatMap_eq_nil_iff.mp hnil 0 (by simp)
        rw [given_eq (hreached 0 (by omega)).2, List.map_eq_nil_iff] at hgiven
        have hfst := map_fst_replies w input 0 0 (calls w input 0)
        rw [roundReplies] at hgiven
        rw [hgiven] at hfst
        exact (hreached 0 (by omega)).1 hfst.symm
      have hentries : s.toolAnswers.entries ≠ [] := by
        obtain ⟨e, he⟩ := List.exists_mem_of_ne_nil _ hkept
        obtain ⟨text, hlatest⟩ := HashMap.exists_latest (List.mem_map.mpr ⟨e, he, rfl⟩)
        exact List.ne_nil_of_mem ((hat.answers _).mpr hlatest)
      obtain ⟨e, he, hfinal⟩ := finalText_of_empty (w := w) hentries
      have hsame := h.oneAnswer hreached e ((hat.answers e).mp he)
      obtain ⟨⟨id, text⟩, hlast, htext⟩ := Option.map_eq_some_iff.mp hsame
      have hresponse : text = (finish w s "" false none).finalResponse := htext.trans hfinal.symm
      exact ⟨_, id, rfl, by rw [hlast, hresponse]⟩
  | succ left ih =>
      intro round s hleft hat
      have hfits := (agentRound_spec w input round s).1.fits
      have hround := hreached round (by omega)
      rw [agentRounds]
      rcases hstep : agentRound w input round s with ⟨events, s' | _ | error⟩
      · have hnext : (agentRound w input round s).2 = .next s' := by rw [hstep]
        exact ih (round + 1) s' (by omega) (hat.next h hnext)
      · rw [hstep] at hfits
        exact absurd hround hfits.1
      · rw [hstep] at hfits
        exact absurd hround hfits

/-! ## The run as a whole -/

theorem runAgentLoop_faithful (w : World) (input : AgentLoopInput) (h : Orderly w input) :
    Faithful w input where
  modelCalls := length_sent_agentRounds 5 0 _
  messages := by
    intro messages hin
    obtain ⟨k, hk, hreached, rfl⟩ := agentRounds_sent h 5 0 _ rfl At.start messages hin
    exact ⟨PairedFrom.append h.paired (paired_transcript k), k, hk, hreached, rfl⟩
  dispatchedOnce := (nodup_positions 5 0).sublist (dispatches_agentRounds 5 0 _)
  publicOnly := fun hanonymous => executions_agentRounds hanonymous 5 0 _
  nonempty := fun output hok => agentRounds_nonempty h 5 0 _ output rfl At.start hok
  lastAnswer := fun hreached => agentRounds_last h hreached 5 0 _ rfl At.start

def osloArguments : String := "\x7b\"location\":\"Oslo\",\"units\":\"metric\"\x7d"

def romeArguments : String := "\x7b\"location\":\"Rome\",\"units\":\"metric\"\x7d"

/-- The response that asks for the weather once for each id and text of arguments. -/
def askWeather (asked : List (String × String)) : Response :=
  ⟨[⟨some .toolCalls, none,
    some (asked.map (fun p => ⟨p.1, some "get_weather", some p.2⟩))⟩]⟩

def answerText (text : String) : Response := ⟨[⟨some .stop, some text, none⟩]⟩

def weatherWorld (chat : Nat → Response) : World where
  chat := fun k => .ok ⟨chat k, .tinfoil, none⟩
  dispatchTool := fun _ _ => .unknown "Unknown tool"
  searchArguments := fun _ => .error "missing field"
  weatherArguments := fun arguments =>
    if arguments = osloArguments then .ok ⟨"Oslo", "metric", none⟩
    else if arguments = romeArguments then .ok ⟨"Rome", "metric", none⟩
    else .error "missing field"
  firecrawlSearch := fun _ _ _ => none
  weatherForLocation := fun _ _ location _ _ =>
    some (.ok (if location = "Oslo" then "Rain" else "Sun"))
  order := fun m => m.entries.reverse
  order_perm := fun m => m.entries.reverse_perm

def weatherQuestion : AgentLoopInput :=
  ⟨.anonymousLightTool, [⟨.user, .text "Where does it rain?", none, none⟩], none, none,
    ⟨"too long", "filtered", "failed"⟩⟩

/-- The weather of two places under two ids, and then an answer. -/
def twoIds : World :=
  weatherWorld (fun k =>
    if k = 0 then askWeather [("call_1", osloArguments), ("call_2", romeArguments)]
    else answerText "In Oslo.")

theorem runAgentLoop_twoIds : Orderly twoIds weatherQuestion ∧ Faithful twoIds weatherQuestion := by
  have hnot : ∀ k < 5, 2 ≤ k → ¬ Reached twoIds weatherQuestion k := by decide +kernel
  have h : Orderly twoIds weatherQuestion :=
    { paired := ⟨by decide, trivial⟩
      ids := by decide +kernel
      answers := by decide +kernel
      oneAnswer := fun hreached =>
        absurd (fun k hk => hreached k (by omega)) (hnot 2 (by omega) (by omega)) }
  exact ⟨h, runAgentLoop_faithful twoIds weatherQuestion h⟩

/-- The same places under one id. -/
def oneId : World :=
  weatherWorld (fun k =>
    if k = 0 then askWeather [("call_1", osloArguments), ("call_1", romeArguments)]
    else answerText "In Oslo.")

/-- One question after the other, until the rounds are used up. -/
def fiveRounds : World :=
  weatherWorld (fun k =>
    if k < 4 then askWeather [("call_" ++ toString k, osloArguments)]
    else askWeather [("call_" ++ toString k, romeArguments)])

def finalOf : Except AgentRunError AgentLoopOutput → Option String
  | .ok output => some output.finalResponse
  | .error _ => none

/-- Under one id both calls are told the later answer, and after the last round the answer is one
of all that were kept. -/
theorem runAgentLoop_mixedUp :
    ¬ Faithful oneId weatherQuestion ∧ ¬ Faithful fiveRounds weatherQuestion := by
  constructor
  · intro h
    have hsent : ∃ messages ∈ sent (runAgentLoop oneId weatherQuestion).1,
        ∀ k < 5, messages ≠
          weatherQuestion.completionMessages ++ transcript oneId weatherQuestion k := by
      decide +kernel
    obtain ⟨messages, hin, hnot⟩ := hsent
    obtain ⟨-, k, hk, -, heq⟩ := h.messages messages hin
    exact hnot k hk heq
  · intro h
    have hreached : Reached fiveRounds weatherQuestion 5 := by decide +kernel
    have hfinal : finalOf (runAgentLoop fiveRounds weatherQuestion).2 = some "Rain" := by
      decide +kernel
    have hkept : (kept fiveRounds weatherQuestion 5).getLast? = some ("call_4", "Sun") := by
      decide +kernel
    obtain ⟨output, id, hok, hlast⟩ := h.lastAnswer hreached
    rw [hok] at hfinal
    have htext : output.finalResponse = "Rain" := Option.some.inj hfinal
    rw [hkept, htext] at hlast
    have htexts : some "Sun" = some "Rain" := congrArg (Option.map Prod.snd) hlast
    exact absurd htexts (by decide)

end Lightfriend.AgentLoop
