import Lightfriend.Core.Bytes
import Lightfriend.Core.Machine
import Lightfriend.Core.Worklist

/-! # Events of a room

The payload of an event is a JSON object. Only state events matter to the
pruning: their timestamp, and the events that authorise them, which must
outlive them. The JSON reader itself is a parameter.
-/

namespace Lightfriend.Prune

/-- `serde_json::Value`; a number carries its value when it is an unsigned integer. -/
inductive Json
  | null
  | bool (value : Bool)
  | number (unsigned : Option Nat)
  | string (value : String)
  | array (items : List Json)
  | object (fields : List (String × Json))

namespace Json

def asStr : Json → Option String
  | string value => some value
  | _ => none

def asU64 : Json → Option Nat
  | number unsigned => unsigned
  | _ => none

def asArray : Json → Option (List Json)
  | array items => some items
  | _ => none

def asObject : Json → Option (List (String × Json))
  | object fields => some fields
  | _ => none

end Json

/-- `serde_json::from_slice`. -/
abbrev JsonReader := Bytes → Option Json

structure StateEventMetadata where
  eventId : String
  roomId : Option String
  originServerTs : Nat
  authEvents : List String
deriving DecidableEq

/-! ## Reading a state event -/

def pduObject (fromSlice : JsonReader) (value : Bytes) : Result (List (String × Json)) := do
  let pdu ← orContext "PDU payload is not valid JSON" (fromSlice value)
  orContext "PDU payload is not a JSON object" pdu.asObject

def roomIdOf (object : List (String × Json)) : Result (Option String) :=
  match object.lookup "room_id" with
  | none => .ok none
  | some value => do
      let roomId ← orContext "state event has a non-string room_id" value.asStr
      .ok (some roomId)

def authEventsOf (object : List (String × Json)) : Result (List String) := do
  let items ← orContext "state event has no auth_events array"
    ((object.lookup "auth_events").bind Json.asArray)
  items.mapM (fun value =>
    orContext "state event auth_events contains a non-string value" value.asStr)

/-- An object without a state key is no state event, whatever else it holds. -/
def parseStateEventMetadata (fromSlice : JsonReader) (value : Bytes)
    (fallbackEventId : Option String) : Result (Option StateEventMetadata) := do
  let object ← pduObject fromSlice value
  match object.lookup "state_key" with
  | none => .ok none
  | some stateKey =>
      match stateKey.asStr with
      | none => bail "state event has a non-string state_key"
      | some _ =>
          let eventId ← orContext "state event has no event_id"
            (((object.lookup "event_id").bind Json.asStr).or fallbackEventId)
          let roomId ← roomIdOf object
          let originServerTs ← orContext "state event has no unsigned origin_server_ts"
            ((object.lookup "origin_server_ts").bind Json.asU64)
          let authEvents ← authEventsOf object
          .ok (some { eventId, roomId, originServerTs, authEvents })

/-- The event id a payload gives itself. -/
def pduEventId (fromSlice : JsonReader) (value : Bytes) : Option String :=
  match pduObject fromSlice value with
  | .ok object => (object.lookup "event_id").bind Json.asStr
  | .error _ => none

/-- The events a payload names as its authorisation, of a state event or not. -/
def pduAuthEvents (fromSlice : JsonReader) (value : Bytes) : List String :=
  match pduObject fromSlice value with
  | .ok object =>
      (((object.lookup "auth_events").bind Json.asArray).getD []).filterMap Json.asStr
  | .error _ => []

theorem parseStateEventMetadata_spec {fromSlice : JsonReader} {value : Bytes}
    {fallback : Option String} {metadata : StateEventMetadata}
    (h : parseStateEventMetadata fromSlice value fallback = .ok (some metadata)) :
    (pduEventId fromSlice value).or fallback = some metadata.eventId := by
  unfold parseStateEventMetadata at h
  rw [bind_eq_ok] at h
  obtain ⟨object, hobject, h⟩ := h
  split at h
  · cases h
  · split at h
    · cases h
    · rw [bind_eq_ok] at h
      obtain ⟨eventId, heventId, h⟩ := h
      rw [bind_eq_ok] at h
      obtain ⟨roomId, _, h⟩ := h
      rw [bind_eq_ok] at h
      obtain ⟨originServerTs, _, h⟩ := h
      rw [bind_eq_ok] at h
      obtain ⟨authEvents, _, h⟩ := h
      cases h
      rw [orContext_eq_ok] at heventId
      simp only [pduEventId, hobject]
      exact heventId

/-! ## The protected events -/

/-- The successors of an event are its authorising events; an event without metadata has no
entry. -/
def authLookup (stateEvents : List StateEventMetadata) (eventId : String) : Option (List String) :=
  (stateEvents.find? (fun event => event.eventId = eventId)).map StateEventMetadata.authEvents

def authFuel (currentState : List String) (stateEvents : List StateEventMetadata) : Nat :=
  currentState.length + (stateEvents.flatMap StateEventMetadata.authEvents).length

/-- The closure of `currentState` under authorisation, and the part of it without payload. -/
def protectedAuthClosureAllowingMissing (currentState : List String)
    (stateEvents : List StateEventMetadata) : List String × List String :=
  let done := Worklist.drain (authLookup stateEvents) (authFuel currentState stateEvents)
    (Worklist.start currentState)
  (done.seen, done.missing)

theorem closure_pending (currentState : List String) (stateEvents : List StateEventMetadata) :
    (Worklist.drain (authLookup stateEvents) (authFuel currentState stateEvents)
      (Worklist.start currentState)).pending = [] := by
  have hnodes : ∀ eventId successors, authLookup stateEvents eventId = some successors →
      ∀ authEvent ∈ successors, authEvent ∈ stateEvents.flatMap StateEventMetadata.authEvents := by
    intro eventId successors hnext authEvent hauth
    obtain ⟨event, hevent, rfl⟩ := Option.map_eq_some_iff.mp hnext
    exact List.mem_flatMap.mpr ⟨event, List.mem_of_find?_eq_some hevent, hauth⟩
  have hfilter := List.length_filter_le (fun x => decide (x ∉ currentState))
    (stateEvents.flatMap StateEventMetadata.authEvents)
  exact Worklist.drain_pending hnodes (Nat.add_le_add_left hfilter _)

/-- The protected events are the ones reachable through authorisation. -/
theorem mem_protected_iff {currentState : List String} {stateEvents : List StateEventMetadata}
    {eventId : String} :
    eventId ∈ (protectedAuthClosureAllowingMissing currentState stateEvents).1 ↔
      Worklist.Reach (authLookup stateEvents) currentState eventId :=
  ((Worklist.sound_start _ _).drain _).mem_seen_iff (closure_pending currentState stateEvents)

theorem mem_missing_iff {currentState : List String} {stateEvents : List StateEventMetadata}
    {eventId : String} :
    eventId ∈ (protectedAuthClosureAllowingMissing currentState stateEvents).2 ↔
      Worklist.Reach (authLookup stateEvents) currentState eventId ∧
        authLookup stateEvents eventId = none :=
  ((Worklist.sound_start _ _).drain _).mem_missing_iff (closure_pending currentState stateEvents)

def protectedAuthClosure (currentState : List String) (stateEvents : List StateEventMetadata) :
    Result (List String) :=
  match (protectedAuthClosureAllowingMissing currentState stateEvents).2 with
  | [] => .ok (protectedAuthClosureAllowingMissing currentState stateEvents).1
  | eventId :: _ => bail s!"protected state event payload is missing: {eventId}"

def isHistoricalStateCandidate (event : StateEventMetadata) (protectedEvents : List String)
    (cutoffMillis : Nat) : Bool :=
  decide (event.originServerTs < cutoffMillis) && !protectedEvents.contains event.eventId

/-! ## Keys of the timeline -/

def pduCountBytes (pduKey : Bytes) : Result Bytes :=
  if pduKey.length = 16 ∨ pduKey.length = 24 then .ok (pduKey.drop (pduKey.length - 8))
  else bail s!"unexpected PDU key length {pduKey.length}"

/-- Subtracting `i64::MIN` modulo 2^64 flips the sign bit of the count. -/
def timelineIndexKey (roomId : String) (originServerTs : Nat) (count : Bytes) : Bytes :=
  asBytes roomId ++ [0xFF] ++ toBeBytes originServerTs ++ [0xFF] ++
    toBeBytes ((fromBeBytes count + 2 ^ 63) % 2 ^ 64)

end Lightfriend.Prune
