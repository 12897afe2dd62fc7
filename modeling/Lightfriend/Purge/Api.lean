import Lightfriend.Core.Http
import Lightfriend.Purge.RoomHistory

/-! # The homeserver's purge API

Requests to the homeserver's history-purge endpoints and the reading of their
answers. The body of a successful answer is decoded by the JSON library; its
decoders are the fields of `PurgeCodec`.
-/

namespace Lightfriend.Purge

structure PurgeApiError where
  status : Option Nat
  body : String
deriving DecidableEq, Repr

structure PurgeSubmitResponse where
  purgeId : String
deriving DecidableEq, Repr

structure PurgeStatusResponse where
  status : String
  error : Option String
deriving DecidableEq, Repr

structure PurgeCodec where
  decodeSubmit : String → Except String PurgeSubmitResponse
  decodeStatus : String → Except String PurgeStatusResponse

def PurgeApiError.display (e : PurgeApiError) : String :=
  match e.status with
  | some status => s!"Tuwunel purge API returned {status}: {e.body}"
  | none => s!"Tuwunel purge API request failed: {e.body}"

def parseJsonResponse {β : Type} (decode : String → Except String β) :
    HttpOutcome → Except PurgeApiError β
  | .transportError detail => .error { status := none, body := detail }
  | .response status (.error detail) => .error { status := some status, body := detail }
  | .response status (.ok body) =>
      if isSuccess status then
        match decode body with
        | .ok value => .ok value
        | .error e =>
            .error { status := some status, body := s!"invalid JSON response: {e}; body={body}" }
      else .error { status := some status, body := takeChars 2000 body }

def parseSubmitResponse (codec : PurgeCodec) : HttpOutcome → Except PurgeApiError PurgeSubmitResponse :=
  parseJsonResponse codec.decodeSubmit

def parseStatusResponse (codec : PurgeCodec) : HttpOutcome → Except PurgeApiError PurgeStatusResponse :=
  parseJsonResponse codec.decodeStatus

def eventWasAlreadyPurged (error : PurgeApiError) : Bool :=
  error.status == some notFound && containsText (toAsciiLowercase error.body) "event not found"

def roomHistoryErrorIsAlreadyClean (status : Option Nat) (body : String) : Bool :=
  status == some notFound &&
    containsText (toAsciiLowercase body) "no event found before the given timestamp"

def roomHistoryWasAlreadyClean (error : PurgeApiError) : Bool :=
  roomHistoryErrorIsAlreadyClean error.status error.body

def purgeTaskStatusIsMissing (status : Option Nat) : Bool := status == some notFound

/-- What a purge request asks to remove; `delete_local_events` is always set. -/
inductive PurgeBoundary
  | upToEvent (eventId : String)
  | upToTimestamp (timestampMs : Nat)
deriving DecidableEq, Repr

def purgeHistoryRequest (eventId : String) : PurgeBoundary := .upToEvent eventId

def purgeHistoryTimestampRequest (timestampMs : Nat) : PurgeBoundary := .upToTimestamp timestampMs

/-! ## Verdicts -/

/-- A poll reached a verdict when the homeserver named a status or reported the task gone. -/
def hasVerdict (codec : PurgeCodec) (outcome : HttpOutcome) : Bool :=
  match parseStatusResponse codec outcome with
  | .ok _ => true
  | .error e => purgeTaskStatusIsMissing e.status

def reportsStatus (codec : PurgeCodec) (name : String) (outcome : HttpOutcome) : Bool :=
  match parseStatusResponse codec outcome with
  | .ok status => status.status == name
  | .error _ => false

/-- A verdict other than `active`: complete, failed, unknown or gone. -/
def isDefinite (codec : PurgeCodec) (outcome : HttpOutcome) : Bool :=
  hasVerdict codec outcome && !reportsStatus codec "active" outcome

theorem hasVerdict_of_error {codec : PurgeCodec} {outcome : HttpOutcome} {e : PurgeApiError}
    (h : parseStatusResponse codec outcome = .error e) :
    hasVerdict codec outcome = purgeTaskStatusIsMissing e.status := by
  simp [hasVerdict, h]

theorem hasVerdict_of_ok {codec : PurgeCodec} {outcome : HttpOutcome}
    {status : PurgeStatusResponse} (h : parseStatusResponse codec outcome = .ok status) :
    hasVerdict codec outcome = true := by
  simp [hasVerdict, h]

theorem reportsStatus_of_error {codec : PurgeCodec} {name : String} {outcome : HttpOutcome}
    {e : PurgeApiError} (h : parseStatusResponse codec outcome = .error e) :
    reportsStatus codec name outcome = false := by
  simp [reportsStatus, h]

theorem reportsStatus_of_ok {codec : PurgeCodec} {name : String} {outcome : HttpOutcome}
    {status : PurgeStatusResponse} (h : parseStatusResponse codec outcome = .ok status) :
    reportsStatus codec name outcome = (status.status == name) := by
  simp [reportsStatus, h]

end Lightfriend.Purge
