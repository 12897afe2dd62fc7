import Lightfriend.Ontology.Message
import Lightfriend.Core.Machine

/-! # The handler of bridge messages

`handle_bridge_message` leaves by one of many exits. An exit either skips the
event, retains it with a blocker, discards it on purpose, or hands a message to
the ontology store. What the handler reads on its way (the clock, the room, the
user and the environment) is part of the delivery. Lower-casing is a parameter.
-/

namespace Lightfriend.Bridge

/-! ## Deliveries -/

inductive MessageType
  | text (body : String)
  | notice (body : String)
  | emote (body : String)
  | image
  | video
  | file
  | audio
  | location
  | other
deriving DecidableEq, Repr

structure BridgeRow where
  bridgeType : String
  status : String
  roomId : Option String
deriving DecidableEq, Repr

/-- An event as the client receives it, with the answers to what the handler asks. -/
structure Delivery where
  eventId : String
  roomId : String
  sender : String
  isReplacement : Bool
  originServerTs : Nat
  message : MessageType
  nowMs : Nat
  clientUserId : Option String
  userByMatrixId : String → Option Int
  /-- The two passes over the bridge rows of the user, by bridge type. -/
  connectingPass : String → Option BridgeRow
  managementPass : String → Option BridgeRow
  displayName : Option String
  joinedMembers : Option (List String)
  /-- The configured bots, as full user ids. -/
  bridgeBots : List String
  validSubscription : Bool
  personId : Option Int
  storedAt : Int

def bridgeTypes : List String := ["signal", "telegram", "whatsapp"]

/-- `UserId::localpart`: between the sigil and the first colon. -/
def localpart (userId : String) : String :=
  beforeChar ':' (String.ofList (userId.toList.drop 1))

/-- The local part that the user is looked up by. -/
def localUserId (clientUserId : String) : String :=
  String.ofList ((beforeChar ':' clientUserId).toList.dropWhile (· = '@'))

/-- The local part of a configured bot. -/
def botLocalpart (fullId : String) : Option String :=
  if startsWithChar '@' fullId then some (localpart fullId) else none

def halfHourMs : Nat := 30 * 60 * 1000

def shouldProcessMessage (nowMs timestampMs maxAgeMs : Nat) : Bool :=
  nowMs - timestampMs ≤ maxAgeMs

section Text

variable (lowercase : String → String)

def isErrorMessage (content : String) : Bool :=
  let lower := lowercase content
  containsText content "Failed to bridge media" ||
    containsText lower "media no longer available" ||
    containsText lower "decrypting message from whatsapp failed" ||
    containsText lower "decrypting message from signal failed" ||
    containsText lower "failed to decrypt" ||
    containsText lower "decryption error" ||
    startsWithText content "* Failed to"

def inferService (roomName senderLocalpart : String) : Option String :=
  let senderLocalpart := lowercase (trim senderLocalpart)
  let roomName := lowercase roomName
  if containsText roomName "(wa)" || containsText roomName "(wa~)" ||
      startsWithText senderLocalpart "whatsapp_" || startsWithText senderLocalpart "whatsapp" then
    some "whatsapp"
  else if containsText roomName "(tg)" || startsWithText senderLocalpart "telegram_" ||
      startsWithText senderLocalpart "telegram" then
    some "telegram"
  else if containsText roomName "(signal)" || containsText roomName "(signal~)" ||
      startsWithText senderLocalpart "signal_" || startsWithText senderLocalpart "signal" then
    some "signal"
  else none

/-- The service of one member: a ghost names its service. -/
def serviceOfMember (member : String) : Option String :=
  if startsWithText (localpart member) "whatsapp_" then some "whatsapp"
  else if startsWithText (localpart member) "telegram_" then some "telegram"
  else if startsWithText (localpart member) "signal_" then some "signal"
  else none

def inferServiceFromRoomMembers (members : Option (List String)) : Option String :=
  members.bind (fun members => members.findSome? serviceOfMember)

def bridgeSuffixes : List String :=
  ["(wa~)", "(wa)", "(signal~)", "(signal)", "(telegram)", "(tg)"]

def removeBridgeSuffix (chatName : String) : String :=
  let trimmed := trim chatName
  match bridgeSuffixes.find? (endsWithText (lowercase trimmed)) with
  | some suffix => trim (takeChars (trimmed.toList.length - suffix.toList.length) trimmed)
  | none => trimmed

def getSenderPrefix (service : String) : String := service ++ "_"

/-! ## Exits -/

/-- How the handler leaves, with what it hands on. -/
inductive Exit
  | edit
  | old
  | noClientUser
  | noUser
  | management
  | noRoomName
  | noService
  | retained (userId : Int) (service reason : String)
  | discarded (userId : Int) (service reason : String)
  | ingested (userId : Int) (service : String) (deleteMedia : Bool) (message : NewOntMessage)
deriving DecidableEq, Repr

/-- The content of an event that the user sent, and whether it has media. -/
def outgoingContent : MessageType → Option (String × Bool)
  | .text body => some (body, false)
  | .notice body => some (body, false)
  | .emote body => some (body, false)
  | .image => some ("IMAGE", true)
  | .video => some ("VIDEO", true)
  | .file => some ("FILE", true)
  | .audio => some ("AUDIO", true)
  | .location => some ("LOCATION", false)
  | .other => none

def incomingContent : MessageType → Option String
  | .text body => some body
  | .notice body => some body
  | .emote body => some body
  | .image => some "IMAGE"
  | .video => some "VIDEO"
  | .file => some "FILE"
  | .audio => some "AUDIO"
  | .location => some "LOCATION"
  | .other => none

def handleOutgoing (d : Delivery) (userId : Int) (service : String) : Exit :=
  match outgoingContent d.message with
  | none => .retained userId service "outgoing_unsupported_message_type"
  | some (content, cleanupTuwunelMedia) =>
      if isErrorMessage lowercase content then
        .discarded userId service "outgoing_bridge_error_notice"
      else
        .ingested userId service cleanupTuwunelMedia
          { userId
            roomId := d.roomId
            platform := service
            senderName := "You"
            senderKey := none
            content
            personId := none
            createdAt := d.storedAt
            matrixEventId := some d.eventId }

def handleIncoming (d : Delivery) (userId : Int) (service roomName : String) : Exit :=
  if !d.validSubscription then .retained userId service "no_valid_subscription"
  else
    match incomingContent d.message with
    | none => .retained userId service "incoming_unsupported_message_type"
    | some content =>
        let chatName := removeBridgeSuffix lowercase roomName
        if service = "whatsapp" && containsText (lowercase chatName) "status broadcast" then
          .discarded userId service "whatsapp_status_broadcast"
        else if isErrorMessage lowercase content then
          .discarded userId service "incoming_bridge_error_notice"
        else
          .ingested userId service true
            { userId
              roomId := d.roomId
              platform := service
              senderName := chatName
              senderKey := some d.sender
              content
              personId := d.personId
              createdAt := d.storedAt
              matrixEventId := some d.eventId }

/-- The bridges of the first pass that are connecting. -/
def connectingBridges (d : Delivery) : List String :=
  bridgeTypes.filter (fun bridgeType =>
    (d.connectingPass bridgeType).any (fun bridge => bridge.status = "connecting"))

/-- Is the room the management room of one of the user's bridges? -/
def isManagementRoom (d : Delivery) : Bool :=
  bridgeTypes.any (fun bridgeType =>
    (d.managementPass bridgeType).any (fun bridge => bridge.roomId = some d.roomId))

def handlePortal (d : Delivery) (userId : Int) : Exit :=
  match d.displayName with
  | none => .noRoomName
  | some roomName =>
      let senderLocalpart := localpart d.sender
      match (inferService lowercase roomName senderLocalpart).or
          (inferServiceFromRoomMembers d.joinedMembers) with
      | none => .noService
      | some service =>
          if (connectingBridges d).contains service then
            .retained userId service "bridge_connecting"
          else if (d.bridgeBots.filterMap botLocalpart).contains senderLocalpart then
            .discarded userId service "portal_bridge_bot"
          else if !startsWithText senderLocalpart (getSenderPrefix service) then
            handleOutgoing lowercase d userId service
          else handleIncoming lowercase d userId service roomName

def handleBridgeMessage (d : Delivery) : Exit :=
  if d.isReplacement then .edit
  else if !shouldProcessMessage d.nowMs d.originServerTs halfHourMs then .old
  else
    match d.clientUserId with
    | none => .noClientUser
    | some clientUserId =>
        match d.userByMatrixId (localUserId clientUserId) with
        | none => .noUser
        | some userId =>
            if isManagementRoom d then .management
            else handlePortal lowercase d userId

end Text

def isMatrixEventId (eventId : String) : Bool :=
  startsWithChar '$' eventId && !eventId.toList.any isControl

/-- The identifiers that the markers of the purge queue accept. -/
def Delivery.hasMatrixIds (d : Delivery) : Bool :=
  isMatrixEventId d.eventId && startsWithChar '!' d.roomId

/-- An exit that is followed by a marker or a stored message. -/
def Exit.isRecorded : Exit → Bool
  | .retained _ _ _ => true
  | .discarded _ _ _ => true
  | .ingested _ _ _ _ => true
  | _ => false

section Spec

variable {lowercase : String → String} {d : Delivery} {user userId : Int}
  {service other : String} {deleteMedia : Bool} {message : NewOntMessage}

theorem handleOutgoing_ingested
    (h : handleOutgoing lowercase d user other = .ingested userId service deleteMedia message) :
    message.matrixEventId = some d.eventId ∧ message.roomId = d.roomId := by
  unfold handleOutgoing at h
  split at h
  · cases h
  · split at h
    · cases h
    · cases h
      exact ⟨rfl, rfl⟩

theorem handleIncoming_ingested {roomName : String}
    (h : handleIncoming lowercase d user other roomName =
      .ingested userId service deleteMedia message) :
    message.matrixEventId = some d.eventId ∧ message.roomId = d.roomId := by
  unfold handleIncoming at h
  split at h
  · cases h
  · split at h
    · cases h
    · dsimp only at h
      split at h
      · cases h
      · split at h
        · cases h
        · cases h
          exact ⟨rfl, rfl⟩

theorem handlePortal_ingested
    (h : handlePortal lowercase d user = .ingested userId service deleteMedia message) :
    message.matrixEventId = some d.eventId ∧ message.roomId = d.roomId := by
  unfold handlePortal at h
  split at h
  · cases h
  · dsimp only at h
    split at h
    · cases h
    · split at h
      · cases h
      · split at h
        · cases h
        · split at h
          · exact handleOutgoing_ingested h
          · exact handleIncoming_ingested h

/-- The message of an ingested event is that event's. -/
theorem handleBridgeMessage_ingested
    (h : handleBridgeMessage lowercase d = .ingested userId service deleteMedia message) :
    message.matrixEventId = some d.eventId ∧ message.roomId = d.roomId := by
  unfold handleBridgeMessage at h
  split at h
  · cases h
  · split at h
    · cases h
    · split at h
      · cases h
      · split at h
        · cases h
        · split at h
          · cases h
          · exact handlePortal_ingested h

end Spec

end Lightfriend.Bridge
