import Mathlib.Tactic

/-! # Billing of voice calls

Four receive loops serve voice calls: browser and phone, each with either provider.
The browser loops charge for the call once they are over, however they end. The
phone loops charge where they handle the stop message of Twilio.
-/

namespace Lightfriend.Voice

inductive VoiceProvider
  | tinfoil
  | openAiRealtime
deriving DecidableEq, Repr

/-- The `start` of a media stream; the custom parameters that are used. -/
structure TwilioStart where
  streamSid : String
  userId : Option String
  greeting : Option String
deriving DecidableEq, Repr

/-- A message of the media stream; its audio is left out. -/
structure TwilioWsMessage where
  event : String
  start : Option TwilioStart
deriving DecidableEq, Repr

/-- What `ws_rx.next()` yields on a phone connection. -/
inductive PhoneMessage
  /-- A text; none when it is not a message of Twilio. -/
  | text (message : Option TwilioWsMessage)
  | close
  | other
  | error
deriving DecidableEq, Repr

/-- The user's provider, and the instant at which the session starts; none when it fails to. -/
structure StartAnswer where
  provider : VoiceProvider
  callStart : Option Nat
deriving DecidableEq, Repr

/-- A message, the instant at which it has been handled, and what a start in it meets. -/
structure Incoming where
  handledAt : Nat
  message : PhoneMessage
  answer : StartAnswer
deriving DecidableEq, Repr

inductive WebMessage
  | binary
  | text
  | close
  | other
  | error
  /-- The sleep of `tokio::select!` is over. -/
  | timeLimit
deriving DecidableEq, Repr

/-- What is billed of a session. -/
structure CallSession where
  userId : Int
  isOutbound : Bool
  callStart : Nat
deriving DecidableEq, Repr

def CallSession.eventType (s : CallSession) : String :=
  if s.isOutbound then "noti_call" else "voice"

/-- `elapsed().as_secs() as i32`, between instants in nanoseconds. -/
def elapsedSecs (start now : Nat) : Int :=
  ((((now - start) / 1000000000 + 2147483648) % 4294967296 : Nat) : Int) - 2147483648

inductive Deduction
  /-- `deduct_user_credits`. -/
  | userCredits (userId : Int) (eventType : String) (durationSecs : Int)
  /-- `deduct_hosted_voice_phone_leg`, where usage is metered elsewhere. -/
  | hostedPhoneLeg (userId : Int) (eventType : String) (durationSecs : Int)
deriving DecidableEq, Repr

/-- What a connection has come to when it ends. -/
structure Call where
  started : List CallSession
  deductions : List Deduction
  endedAt : Nat
deriving DecidableEq, Repr

/-- `str::parse::<i32>`. -/
def parseI32 (s : String) : Option Int :=
  let digits (cs : List Char) : Option Nat :=
    if cs.isEmpty || !cs.all Char.isDigit then none
    else some (cs.foldl (fun n c => 10 * n + (c.toNat - '0'.toNat)) 0)
  match s.toList with
  | '-' :: cs => (digits cs).bind (fun n => if n ≤ 2147483648 then some (-(n : Int)) else none)
  | '+' :: cs => (digits cs).bind (fun n => if n ≤ 2147483647 then some (n : Int) else none)
  | cs => (digits cs).bind (fun n => if n ≤ 2147483647 then some (n : Int) else none)

/-! ## The phone loops -/

/-- The user id of a start; zero when there is none. -/
def TwilioStart.user (start : TwilioStart) : Int := (start.userId.bind parseI32).getD 0

/-- The session of a start whose setup succeeds. -/
def Incoming.session? (m : Incoming) (start : TwilioStart) : Option CallSession :=
  m.answer.callStart.map (fun callStart => ⟨start.user, start.greeting.isSome, callStart⟩)

/-- What a message is to a loop. -/
inductive Effect
  | goesOn
  | breaks
  | stops
  | begins (session : CallSession)
deriving DecidableEq, Repr

/-- A message to `handle_voice_ws`. -/
def Incoming.effect (m : Incoming) : Effect :=
  match m.message with
  | .error | .close => .breaks
  | .other | .text none => .goesOn
  | .text (some message) =>
      if message.event = "start" then
        match message.start with
        | none => .goesOn
        | some start =>
            if start.user = 0 then .breaks
            else
              match m.session? start with
              | none => .breaks
              | some session => .begins session
      else if message.event = "stop" then .stops
      else .goesOn

/-- A message to `handle_openai_twilio_session`. -/
def Incoming.openAiEffect (m : Incoming) : Effect :=
  match m.message with
  | .error | .close => .breaks
  | .other | .text none => .goesOn
  | .text (some message) => if message.event = "stop" then .stops else .goesOn

/-- The deduction by `deduct_user_credits` for a session that ends at an instant. -/
def creditDeduction (s : CallSession) (now : Nat) : Deduction :=
  .userCredits s.userId s.eventType (elapsedSecs s.callStart now)

/-- The deduction of a session with OpenAI Realtime: its responses may be metered elsewhere. -/
def openAiDeduction (metronomeEnabled : Bool) (s : CallSession) (now : Nat) : Deduction :=
  if metronomeEnabled then .hostedPhoneLeg s.userId s.eventType (elapsedSecs s.callStart now)
  else .userCredits s.userId s.eventType (elapsedSecs s.callStart now)

section Phone

variable (metronomeEnabled : Bool) (closedAt : Nat)

/-- The receive loop of `handle_openai_twilio_session`. -/
def openAiTwilioLoop (session : CallSession) : List Incoming → Call
  | [] => ⟨[], [], closedAt⟩
  | m :: rest =>
      match m.openAiEffect with
      | .breaks => ⟨[], [], m.handledAt⟩
      | .stops => ⟨[], [openAiDeduction metronomeEnabled session m.handledAt], m.handledAt⟩
      | .goesOn | .begins _ => openAiTwilioLoop session rest

theorem openAiTwilioLoop_cons (session : CallSession) (m : Incoming) (rest : List Incoming) :
    openAiTwilioLoop metronomeEnabled closedAt session (m :: rest) =
      match m.openAiEffect with
      | .breaks => ⟨[], [], m.handledAt⟩
      | .stops => ⟨[], [openAiDeduction metronomeEnabled session m.handledAt], m.handledAt⟩
      | .goesOn | .begins _ => openAiTwilioLoop metronomeEnabled closedAt session rest := rfl

/-- The receive loop of `handle_voice_ws`. -/
def voiceLoop : Option CallSession → List Incoming → Call
  | _, [] => ⟨[], [], closedAt⟩
  | session, m :: rest =>
      match m.effect with
      | .goesOn => voiceLoop session rest
      | .breaks => ⟨[], [], m.handledAt⟩
      | .stops => ⟨[], session.toList.map (fun s => creditDeduction s m.handledAt), m.handledAt⟩
      | .begins s =>
          -- with OpenAI the rest of the connection belongs to the other loop
          let call := match m.answer.provider with
            | .openAiRealtime => openAiTwilioLoop metronomeEnabled closedAt s rest
            | .tinfoil => voiceLoop (some s) rest
          { call with started := s :: call.started }

theorem voiceLoop_cons (session : Option CallSession) (m : Incoming) (rest : List Incoming) :
    voiceLoop metronomeEnabled closedAt session (m :: rest) =
      match m.effect with
      | .goesOn => voiceLoop metronomeEnabled closedAt session rest
      | .breaks => ⟨[], [], m.handledAt⟩
      | .stops => ⟨[], session.toList.map (fun s => creditDeduction s m.handledAt), m.handledAt⟩
      | .begins s =>
          let call := match m.answer.provider with
            | .openAiRealtime => openAiTwilioLoop metronomeEnabled closedAt s rest
            | .tinfoil => voiceLoop metronomeEnabled closedAt (some s) rest
          { call with started := s :: call.started } := rfl

def handleVoiceWs (messages : List Incoming) : Call :=
  voiceLoop metronomeEnabled closedAt none messages

end Phone

/-! ## The browser loops -/

/-- When the loop ends; the two browser loops end alike. -/
def webLoop (closedAt : Nat) : List (Nat × WebMessage) → Nat
  | [] => closedAt
  | (handledAt, m) :: rest =>
      match m with
      | .close | .error | .timeLimit => handledAt
      | .binary | .text | .other => webLoop closedAt rest

/-- `handle_web_ws` and `handle_openai_web_ws`. -/
def handleWebWs (metronomeEnabled : Bool) (closedAt : Nat) (userId : Int) (answer : StartAnswer)
    (messages : List (Nat × WebMessage)) : Call :=
  match answer.callStart with
  | none => ⟨[], [], closedAt⟩
  | some callStart =>
      let session : CallSession := ⟨userId, false, callStart⟩
      let endedAt := webLoop closedAt messages
      match answer.provider with
      | .tinfoil => ⟨[session], [creditDeduction session endedAt], endedAt⟩
      | .openAiRealtime =>
          ⟨[session], if metronomeEnabled then [] else [creditDeduction session endedAt], endedAt⟩

/-! ## One charge for a session -/

/-- A voice connection: the messages until it is closed. -/
inductive Connection
  | web (userId : Int) (answer : StartAnswer) (messages : List (Nat × WebMessage))
  | phone (messages : List Incoming)

def Connection.handle (metronomeEnabled : Bool) (closedAt : Nat) : Connection → Call
  | .web userId answer messages => handleWebWs metronomeEnabled closedAt userId answer messages
  | .phone messages => handleVoiceWs metronomeEnabled closedAt messages

/-- Each session is charged once, for the time from its start to the end of the connection. -/
def BilledOnce (call : Call) : Prop :=
  call.deductions.Perm (call.started.map (fun s =>
    .userCredits s.userId s.eventType (elapsedSecs s.callStart call.endedAt)))

instance (call : Call) : Decidable (BilledOnce call) :=
  inferInstanceAs (Decidable (List.Perm _ _))

/-- In a session with OpenAI, a stop comes before all that ends the loop. -/
def OpenAiStops : List Incoming → Prop
  | [] => False
  | m :: rest =>
      match m.openAiEffect with
      | .breaks => False
      | .stops => True
      | .goesOn | .begins _ => OpenAiStops rest

/-- In a session with Tinfoil, a stop comes before all that ends the loop, and before another
start that succeeds. -/
def TinfoilStops : List Incoming → Prop
  | [] => False
  | m :: rest =>
      match m.effect with
      | .breaks | .begins _ => False
      | .stops => True
      | .goesOn => TinfoilStops rest

/-- The first start that succeeds, if there is one, is followed by a stop. -/
def StopsProperly : List Incoming → Prop
  | [] => True
  | m :: rest =>
      match m.effect with
      | .breaks | .stops => True
      | .goesOn => StopsProperly rest
      | .begins _ =>
          match m.answer.provider with
          | .openAiRealtime => OpenAiStops rest
          | .tinfoil => TinfoilStops rest

def Connection.StopsProperly : Connection → Prop
  | .web .. => True
  | .phone messages => Voice.StopsProperly messages

variable (closedAt : Nat)

theorem not_billedOnce_of_lt {call : Call} (h : call.deductions.length < call.started.length) :
    ¬ BilledOnce call := by
  intro hbilled
  have hlength := hbilled.length_eq
  rw [List.length_map] at hlength
  omega

theorem openAiTwilioLoop_started (metronomeEnabled : Bool) (session : CallSession)
    (messages : List Incoming) :
    (openAiTwilioLoop metronomeEnabled closedAt session messages).started = [] := by
  induction messages with
  | nil => rfl
  | cons m rest ih =>
      rw [openAiTwilioLoop_cons]
      split
      · rfl
      · rfl
      · exact ih
      · exact ih

/-- A session with OpenAI is charged when its loop stops, and never otherwise. -/
theorem openAiTwilioLoop_billed (session : CallSession) (messages : List Incoming) :
    BilledOnce { openAiTwilioLoop false closedAt session messages with started := [session] } ↔
      OpenAiStops messages := by
  induction messages with
  | nil => exact iff_of_false (not_billedOnce_of_lt Nat.one_pos) id
  | cons m rest ih =>
      rw [openAiTwilioLoop_cons, OpenAiStops]
      cases m.openAiEffect with
      | breaks => exact iff_of_false (not_billedOnce_of_lt Nat.one_pos) id
      | stops => exact iff_of_true (List.Perm.refl _) trivial
      | goesOn => exact ih
      | begins s => exact ih

/-- A connection charges at most once. -/
theorem openAiTwilioLoop_deductions (session : CallSession) (messages : List Incoming) :
    (openAiTwilioLoop false closedAt session messages).deductions.length ≤ 1 := by
  induction messages with
  | nil => exact Nat.zero_le _
  | cons m rest ih =>
      rw [openAiTwilioLoop_cons]
      split
      · exact Nat.zero_le _
      · exact Nat.le_refl _
      · exact ih
      · exact ih

theorem voiceLoop_deductions (session : Option CallSession) (messages : List Incoming) :
    (voiceLoop false closedAt session messages).deductions.length ≤ 1 := by
  induction messages generalizing session with
  | nil => exact Nat.zero_le _
  | cons m rest ih =>
      rw [voiceLoop_cons]
      split
      · exact ih session
      · exact Nat.zero_le _
      · cases session with
        | none => exact Nat.zero_le _
        | some s => exact Nat.le_refl _
      next s _ =>
        cases m.answer.provider with
        | openAiRealtime => exact openAiTwilioLoop_deductions closedAt s rest
        | tinfoil => exact ih (some s)

/-- A session with Tinfoil: a second one would take its place without a charge. -/
theorem voiceLoop_billed_some (session : CallSession) (messages : List Incoming) :
    BilledOnce { voiceLoop false closedAt (some session) messages with
      started := session :: (voiceLoop false closedAt (some session) messages).started } ↔
        TinfoilStops messages := by
  induction messages with
  | nil => exact iff_of_false (not_billedOnce_of_lt Nat.one_pos) id
  | cons m rest ih =>
      rw [voiceLoop_cons, TinfoilStops]
      cases m.effect with
      | goesOn => exact ih
      | breaks => exact iff_of_false (not_billedOnce_of_lt Nat.one_pos) id
      | stops => exact iff_of_true (List.Perm.refl _) trivial
      | begins s =>
          have hone : (match m.answer.provider with
              | .openAiRealtime => openAiTwilioLoop false closedAt s rest
              | .tinfoil => voiceLoop false closedAt (some s) rest).deductions.length ≤ 1 := by
            cases m.answer.provider with
            | openAiRealtime => exact openAiTwilioLoop_deductions closedAt s rest
            | tinfoil => exact voiceLoop_deductions closedAt (some s) rest
          refine iff_of_false (not_billedOnce_of_lt ?_) id
          simp only [List.length_cons]
          omega

theorem voiceLoop_billed_none (messages : List Incoming) :
    BilledOnce (voiceLoop false closedAt none messages) ↔ StopsProperly messages := by
  induction messages with
  | nil => exact iff_of_true (List.Perm.refl _) trivial
  | cons m rest ih =>
      rw [voiceLoop_cons, StopsProperly]
      cases m.effect with
      | goesOn => exact ih
      | breaks => exact iff_of_true (List.Perm.refl _) trivial
      | stops => exact iff_of_true (List.Perm.refl _) trivial
      | begins s =>
          cases m.answer.provider with
          | openAiRealtime =>
              have hbilled := openAiTwilioLoop_billed closedAt s rest
              have hstarted := openAiTwilioLoop_started closedAt false s rest
              simp only [hstarted]
              exact hbilled
          | tinfoil => exact voiceLoop_billed_some closedAt s rest

theorem handleWebWs_billed (userId : Int) (answer : StartAnswer)
    (messages : List (Nat × WebMessage)) :
    BilledOnce (handleWebWs false closedAt userId answer messages) := by
  unfold handleWebWs
  cases answer.callStart with
  | none => exact List.Perm.refl _
  | some callStart =>
      cases answer.provider with
      | tinfoil => exact List.Perm.refl _
      | openAiRealtime => exact List.Perm.refl _

/-- With local credits, the sessions of a connection are charged once each exactly when it is a
browser's, or when its first session is followed by a stop. -/
theorem voice_call_billed_once_iff (connection : Connection) (closedAt : Nat) :
    BilledOnce (connection.handle false closedAt) ↔ connection.StopsProperly := by
  cases connection with
  | web userId answer messages =>
      exact iff_of_true (handleWebWs_billed closedAt userId answer messages) trivial
  | phone messages => exact voiceLoop_billed_none closedAt messages

/-- A call that the caller hangs up: the connection closes without a stop. -/
def hungUp : Connection :=
  .phone [⟨1000000000, .text (some ⟨"start", some ⟨"MZ1", some "7", none⟩⟩), ⟨.tinfoil, some 0⟩⟩,
    ⟨61000000000, .close, ⟨.tinfoil, none⟩⟩]

theorem voice_call_not_billed_when_closed :
    (hungUp.handle false 61000000000).started = [⟨7, false, 0⟩] ∧
      (hungUp.handle false 61000000000).deductions = [] ∧
        ¬ BilledOnce (hungUp.handle false 61000000000) := by
  decide +kernel

end Lightfriend.Voice
