import Lightfriend.Prune.Pdu

/-! # The reader of a realtime voice session

The reader takes the events of the OpenAI Realtime server in turn. Completed items
are announced by two kinds of events, one by one and once more with the response
that they belong to, and every function call among them is dispatched.
-/

namespace Lightfriend.Voice.Reader

open Prune (Json)

/-- `value.get(key)`. -/
def getField (value : Json) (key : String) : Option Json :=
  value.asObject.bind (fun fields => fields.lookup key)

/-- `value.get(key).and_then(|v| v.as_str())`. -/
def getStr (value : Json) (key : String) : Option String := (getField value key).bind Json.asStr

inductive AudioMode
  | twilioPcmu
  | webPcm24
deriving DecidableEq, Repr

/-- `OpenAiReaderSession`, and whether the browser has been told that audio comes. -/
structure ReaderSession where
  mode : AudioMode
  streamSid : Option String
  greeting : Option String
  sentErrorNotice : Bool
  webAudioOpen : Bool
deriving DecidableEq, Repr

/-- What goes to the phone or the browser; audio stays encoded. -/
inductive ClientMessage
  | media (streamSid delta : String)
  | mark (streamSid : String)
  | clear (streamSid : String)
  | audioStart
  | audio (delta : String)
  | audioEnd
  | audioClear
  | vad (speaking processing : Bool)
  | failureNotice (message : String)
deriving DecidableEq, Repr

/-- What goes to OpenAI. -/
inductive OpenAiMessage
  | functionCallOutput (callId output : String)
  | responseCreate
  | responseCancel
  | greeting (text : String)
deriving DecidableEq, Repr

inductive Effect
  | client (message : ClientMessage)
  | openAi (message : OpenAiMessage)
  /-- `dispatch_realtime_tool_call`. -/
  | dispatch (name arguments callId : String)
deriving DecidableEq, Repr

/-- A call of a tool, as an item describes it. -/
structure FunctionCall where
  callId : String
  name : String
  arguments : String
deriving DecidableEq, Repr

/-- The call in an item; an item without call id or name is passed over. -/
def functionCall? (item : Json) : Option FunctionCall :=
  if getStr item "type" ≠ some "function_call" then none
  else
    let call : FunctionCall :=
      ⟨((getStr item "call_id").orElse (fun _ => getStr item "id")).getD "",
        (getStr item "name").getD "", (getStr item "arguments").getD "\x7b\x7d"⟩
    if call.callId = "" || call.name = "" then none else some call

/-- `answer` is what the tool returns. -/
def handleRealtimeFunctionCall (answer : FunctionCall → String) (item : Json) : List Effect :=
  match functionCall? item with
  | none => []
  | some call =>
      [.dispatch call.name call.arguments call.callId,
        .openAi (.functionCallOutput call.callId (answer call)), .openAi .responseCreate]

/-- `send_openai_realtime_failure_notice`: at most one for a session. -/
def failureNotice (session : ReaderSession) (message : String) : ReaderSession × List Effect :=
  if session.sentErrorNotice then (session, [])
  else
    ({ session with sentErrorNotice := true },
      if session.mode = .twilioPcmu && session.streamSid.isNone then []
      else [.client (.failureNotice message)])

def audioDelta (session : ReaderSession) (delta : String) : ReaderSession × List Effect :=
  if delta = "" then (session, [])
  else
    match session.mode with
    | .twilioPcmu =>
        (session, session.streamSid.toList.map (fun sid => .client (.media sid delta)))
    | .webPcm24 =>
        ({ session with webAudioOpen := true },
          (if session.webAudioOpen then [] else [.client .audioStart]) ++ [.client (.audio delta)])

def audioDone (session : ReaderSession) : ReaderSession × List Effect :=
  match session.mode with
  | .twilioPcmu => (session, session.streamSid.toList.map (fun sid => .client (.mark sid)))
  | .webPcm24 =>
      ({ session with webAudioOpen := false },
        if session.webAudioOpen then [.client .audioEnd] else [])

def speechStarted (session : ReaderSession) : ReaderSession × List Effect :=
  match session.mode with
  | .twilioPcmu =>
      (session, session.streamSid.toList.map (fun sid => .client (.clear sid)) ++
        [.openAi .responseCancel])
  | .webPcm24 =>
      ({ session with webAudioOpen := false },
        [.client (.vad true false), .client .audioClear])

/-- The items that an event announces as completed. -/
def announcedItems (event : Json) : List Json :=
  match (getStr event "type").getD "" with
  | "response.output_item.done" => (getField event "item").toList
  | "response.done" =>
      ((((getField event "response").bind (fun r => getField r "output")).bind
        Json.asArray).getD [])
  | _ => []

/-- The text of an error event. -/
def errorMessage (event : Json) : String :=
  ((getField event "error").bind (fun e => getStr e "message")).getD "OpenAI Realtime error"

/-- One event; the usage that comes with a response is billed elsewhere. -/
def handleEvent (answer : FunctionCall → String) (session : ReaderSession) (event : Json) :
    ReaderSession × List Effect :=
  match (getStr event "type").getD "" with
  | "response.audio.delta" | "response.output_audio.delta" =>
      audioDelta session ((getStr event "delta").getD "")
  | "response.audio.done" | "response.output_audio.done" => audioDone session
  | "input_audio_buffer.speech_started" => speechStarted session
  | "input_audio_buffer.speech_stopped" =>
      (session, if session.mode = .webPcm24 then [.client (.vad false true)] else [])
  | "response.output_item.done" | "response.done" =>
      (session, (announcedItems event).flatMap (handleRealtimeFunctionCall answer))
  | "error" => failureNotice session (errorMessage event)
  | "session.updated" =>
      ({ session with greeting := none },
        session.greeting.toList.map (fun text => .openAi (.greeting text)))
  | _ => (session, [])

/-- What `openai_rx.next()` yields. -/
inductive WsMessage
  /-- A text; none when it is not JSON. -/
  | text (event : Option Json)
  | close (reason : String)
  | other
  | error

/-- `handle_openai_reader`. -/
def handleOpenAiReader (answer : FunctionCall → String) :
    ReaderSession → List WsMessage → List Effect
  | _, [] => []
  | session, m :: rest =>
      match m with
      | .error => (failureNotice session
          "Voice is unavailable right now. OpenAI Realtime closed the connection.").2
      | .close reason => (failureNotice session reason).2
      | .other | .text none => handleOpenAiReader answer session rest
      | .text (some event) =>
          let handled := handleEvent answer session event
          handled.2 ++ handleOpenAiReader answer handled.1 rest

/-! ## Which calls are dispatched -/

/-- The ids of the calls that are dispatched, in order. -/
def dispatched (effects : List Effect) : List String :=
  effects.filterMap (fun e => match e with
    | .dispatch _ _ callId => some callId
    | _ => none)

/-- The ids of the calls for which an output is sent, in order. -/
def answered (effects : List Effect) : List String :=
  effects.filterMap (fun e => match e with
    | .openAi (.functionCallOutput callId _) => some callId
    | _ => none)

/-- No call is dispatched twice, and one output is sent for each that is. -/
def CallsOnce (effects : List Effect) : Prop :=
  (dispatched effects).Nodup ∧
    ∀ callId ∈ dispatched effects, (answered effects).count callId = 1

instance (effects : List Effect) : Decidable (CallsOnce effects) :=
  inferInstanceAs (Decidable (_ ∧ _))

/-- The events that are read before the connection ends. -/
def eventsRead : List WsMessage → List Json
  | [] => []
  | .error :: _ | .close _ :: _ => []
  | .other :: rest | .text none :: rest => eventsRead rest
  | .text (some event) :: rest => event :: eventsRead rest

/-- The ids of the calls that events announce as completed. -/
def announcedCalls (events : List Json) : List String :=
  (events.flatMap announcedItems).filterMap (fun item => (functionCall? item).map FunctionCall.callId)

@[simp] theorem dispatched_append (a b : List Effect) :
    dispatched (a ++ b) = dispatched a ++ dispatched b := List.filterMap_append

@[simp] theorem answered_append (a b : List Effect) :
    answered (a ++ b) = answered a ++ answered b := List.filterMap_append

/-- Effects that concern no call. -/
def Silent (effects : List Effect) : Prop := dispatched effects = [] ∧ answered effects = []

theorem silent_nil : Silent [] := ⟨rfl, rfl⟩

theorem silent_failureNotice (session : ReaderSession) (message : String) :
    Silent (failureNotice session message).2 := by
  unfold failureNotice
  split
  · exact silent_nil
  · split
    · exact silent_nil
    · exact ⟨rfl, rfl⟩

theorem silent_audioDelta (session : ReaderSession) (delta : String) :
    Silent (audioDelta session delta).2 := by
  unfold audioDelta
  split
  · exact silent_nil
  · cases session.mode with
    | twilioPcmu => cases session.streamSid <;> exact ⟨rfl, rfl⟩
    | webPcm24 => cases session.webAudioOpen <;> exact ⟨rfl, rfl⟩

theorem silent_audioDone (session : ReaderSession) : Silent (audioDone session).2 := by
  unfold audioDone
  cases session.mode with
  | twilioPcmu => cases session.streamSid <;> exact ⟨rfl, rfl⟩
  | webPcm24 => cases session.webAudioOpen <;> exact ⟨rfl, rfl⟩

theorem silent_speechStarted (session : ReaderSession) : Silent (speechStarted session).2 := by
  unfold speechStarted
  cases session.mode with
  | twilioPcmu => cases session.streamSid <;> exact ⟨rfl, rfl⟩
  | webPcm24 => exact ⟨rfl, rfl⟩

variable (answer : FunctionCall → String)

/-- An item dispatches its call, if it is one, and sends one output for it. -/
theorem handleRealtimeFunctionCall_spec (item : Json) :
    dispatched (handleRealtimeFunctionCall answer item) =
        ((functionCall? item).map FunctionCall.callId).toList ∧
      answered (handleRealtimeFunctionCall answer item) =
        ((functionCall? item).map FunctionCall.callId).toList := by
  unfold handleRealtimeFunctionCall
  cases functionCall? item with
  | none => exact ⟨rfl, rfl⟩
  | some call => exact ⟨rfl, rfl⟩

theorem items_spec (items : List Json) :
    dispatched (items.flatMap (handleRealtimeFunctionCall answer)) =
        items.filterMap (fun item => (functionCall? item).map FunctionCall.callId) ∧
      answered (items.flatMap (handleRealtimeFunctionCall answer)) =
        items.filterMap (fun item => (functionCall? item).map FunctionCall.callId) := by
  induction items with
  | nil => exact ⟨rfl, rfl⟩
  | cons item rest ih =>
      obtain ⟨hdispatched, hanswered⟩ := handleRealtimeFunctionCall_spec answer item
      rw [List.flatMap_cons, dispatched_append, answered_append, hdispatched, hanswered, ih.1, ih.2,
        List.filterMap_cons]
      cases (functionCall? item).map FunctionCall.callId with
      | none => exact ⟨rfl, rfl⟩
      | some callId => exact ⟨rfl, rfl⟩

/-- An event dispatches the calls that it announces, and sends one output for each. -/
theorem handleEvent_spec (session : ReaderSession) (event : Json) :
    dispatched (handleEvent answer session event).2 = announcedCalls [event] ∧
      answered (handleEvent answer session event).2 = announcedCalls [event] := by
  have hcalls : announcedCalls [event] = (announcedItems event).filterMap
      (fun item => (functionCall? item).map FunctionCall.callId) := by
    simp [announcedCalls]
  rw [hcalls]
  unfold handleEvent
  split
  all_goals first
    | exact items_spec answer (announcedItems event)
    | have hnone : announcedItems event = [] := by simp_all [announcedItems]
      rw [hnone]
  · exact silent_audioDelta session _
  · exact silent_audioDelta session _
  · exact silent_audioDone session
  · exact silent_audioDone session
  · exact silent_speechStarted session
  · split
    · exact ⟨rfl, rfl⟩
    · exact silent_nil
  · exact silent_failureNotice session _
  · cases session.greeting <;> exact ⟨rfl, rfl⟩
  · exact silent_nil

/-- The reader dispatches what is announced, and sends one output for each dispatch. -/
theorem reader_spec (session : ReaderSession) (messages : List WsMessage) :
    dispatched (handleOpenAiReader answer session messages) =
        announcedCalls (eventsRead messages) ∧
      answered (handleOpenAiReader answer session messages) =
        announcedCalls (eventsRead messages) := by
  induction messages generalizing session with
  | nil => exact ⟨rfl, rfl⟩
  | cons m rest ih =>
      cases m with
      | error => exact silent_failureNotice session _
      | close reason => exact silent_failureNotice session reason
      | other => exact ih session
      | text event =>
          cases event with
          | none => exact ih session
          | some event =>
              obtain ⟨hdispatched, hanswered⟩ := handleEvent_spec answer session event
              obtain ⟨hrest, hrestAnswered⟩ := ih (handleEvent answer session event).1
              have hsplit : announcedCalls (eventsRead (.text (some event) :: rest)) =
                  announcedCalls [event] ++ announcedCalls (eventsRead rest) := by
                simp [announcedCalls, eventsRead]
              unfold handleOpenAiReader
              rw [dispatched_append, answered_append, hdispatched, hanswered, hrest, hrestAnswered,
                hsplit]
              exact ⟨rfl, rfl⟩

/-- A session executes its calls once exactly when none of them is announced twice. -/
theorem realtime_calls_once_iff (answer : FunctionCall → String) (session : ReaderSession)
    (messages : List WsMessage) :
    CallsOnce (handleOpenAiReader answer session messages) ↔
      (announcedCalls (eventsRead messages)).Nodup := by
  obtain ⟨hdispatched, hanswered⟩ := reader_spec answer session messages
  unfold CallsOnce
  rw [hdispatched, hanswered]
  constructor
  · exact fun h => h.1
  · intro hnodup
    exact ⟨hnodup, fun callId hin => List.count_eq_one_of_mem hnodup hin⟩

/-! ## A response with one call -/

/-- A call that unlocks the car. -/
def unlockItem : Json :=
  .object [("type", .string "function_call"), ("call_id", .string "call_1"),
    ("name", .string "control_tesla"), ("arguments", .string "unlock")]

/-- The item is completed, and so is then the response that lists it. -/
def itemThenResponse : List WsMessage :=
  [.text (some (.object [("type", .string "response.output_item.done"), ("item", unlockItem)])),
    .text (some (.object [("type", .string "response.done"),
      ("response", .object [("output", .array [unlockItem])])]))]

theorem realtime_call_dispatched_twice :
    dispatched (handleOpenAiReader (fun _ => "done") ⟨.webPcm24, none, none, false, false⟩
        itemThenResponse) = ["call_1", "call_1"] ∧
      ¬ CallsOnce (handleOpenAiReader (fun _ => "done") ⟨.webPcm24, none, none, false, false⟩
        itemThenResponse) := by
  decide +kernel

end Lightfriend.Voice.Reader
