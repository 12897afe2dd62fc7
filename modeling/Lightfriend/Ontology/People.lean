import Lightfriend.Core.Database
import Lightfriend.Core.Owner
import Lightfriend.Core.Procedure
import Lightfriend.Core.Transition

/-! # People, their channels and the edits of a user

The requests of one user to the handlers of people. A request ends at its first
statement that fails, and keeps what the statements before it have written. The
entries of the changelog are the effects of a request.
-/

namespace Lightfriend.People

/-! ## Rows -/

structure OntPerson where
  id : Int
  userId : Int
  name : String
  createdAt : Int
  updatedAt : Int
deriving DecidableEq, Repr

structure OntChannel where
  id : Int
  userId : Int
  personId : Int
  platform : String
  handle : Option String
  roomId : Option String
  notificationMode : String
  notificationType : String
  notifyOnCall : Int
  createdAt : Int
deriving DecidableEq, Repr

structure OntPersonEdit where
  userId : Int
  personId : Int
  propertyName : String
  value : String
  editedAt : Int
deriving DecidableEq, Repr

structure Tables where
  persons : List OntPerson
  channels : List OntChannel
  edits : List OntPersonEdit
  /-- The last ids that the sequences have handed out. -/
  personSerial : Int
  channelSerial : Int
deriving DecidableEq, Repr

structure Change where
  userId : Int
  entityType : String
  entityId : Int
  changeType : String
  changedFields : Option String
  source : String
deriving DecidableEq, Repr

/-- The tables, and how the statements to come will end. -/
structure World where
  tables : Tables
  fates : List StatementFate
deriving DecidableEq, Repr

abbrev Db (α : Type) := Procedure World Change α

/-- One statement; where it has no result it is refused by the schema. -/
def statement {α : Type} (f : Tables → Option (α × Tables)) : Db α := fun w =>
  match f w.tables, w.fates.headD .done with
  | none, _ => ⟨{ w with fates := w.fates.tail }, [], none⟩
  | some (a, t), .done => ⟨⟨t, w.fates.tail⟩, [], some a⟩
  | some _, .refused => ⟨{ w with fates := w.fates.tail }, [], none⟩
  | some (_, t), .lost => ⟨⟨t, w.fates.tail⟩, [], none⟩

def query {α : Type} (f : Tables → α) : Db α := statement (fun t => some (f t, t))

def execute (f : Tables → Tables) : Db Unit := statement (fun t => some ((), f t))

/-- `let _ = ..`: an error is dropped. -/
def attempt (p : Db Unit) : Db Unit := fun w => ⟨(p w).state, (p w).effects, some ()⟩

def logChange (userId : Int) (entityType : String) (entityId : Int) (changeType : String)
    (changedFields : Option String) (source : String) : Db Unit :=
  Procedure.emit ⟨userId, entityType, entityId, changeType, changedFields, source⟩

/-! ## Statements -/

namespace Tables

def newPerson (t : Tables) (userId : Int) (name : String) (now : Int) : OntPerson :=
  ⟨t.personSerial + 1, userId, name, now, now⟩

def insertPerson (userId : Int) (name : String) (now : Int) (t : Tables) :
    Option (OntPerson × Tables) :=
  some (t.newPerson userId name now,
    { t with
      persons := t.persons ++ [t.newPerson userId name now]
      personSerial := t.personSerial + 1 })

def newChannel (t : Tables) (userId personId : Int) (platform : String)
    (handle roomId : Option String) (now : Int) : OntChannel where
  id := t.channelSerial + 1
  userId := userId
  personId := personId
  platform := platform
  handle := handle
  roomId := roomId
  notificationMode := "default"
  notificationType := "sms"
  notifyOnCall := 1
  createdAt := now

/-- The person of a new channel must exist. -/
def insertChannel (userId personId : Int) (platform : String) (handle roomId : Option String)
    (now : Int) (t : Tables) : Option (OntChannel × Tables) :=
  if t.persons.any (fun p => p.id = personId) then
    some (t.newChannel userId personId platform handle roomId now,
      { t with
        channels := t.channels ++ [t.newChannel userId personId platform handle roomId now]
        channelSerial := t.channelSerial + 1 })
  else none

def updateChannels (p : OntChannel → Bool) (set : OntChannel → OntChannel) (t : Tables) : Tables :=
  { t with channels := t.channels.map (fun c => if p c then set c else c) }

def updatePersons (p : OntPerson → Bool) (set : OntPerson → OntPerson) (t : Tables) : Tables :=
  { t with persons := t.persons.map (fun r => if p r then set r else r) }

/-- `UPDATE ont_persons SET updated_at = now WHERE id = personId`. -/
def touchPerson (personId now : Int) : Tables → Tables :=
  updatePersons (fun p => p.id = personId) (fun p => { p with updatedAt := now })

def ownPerson (userId personId : Int) (p : OntPerson) : Bool :=
  p.id = personId ∧ p.userId = userId

/-- A delete of a person takes the channels and the edits that refer to it with it. -/
def deletePerson (userId personId : Int) (t : Tables) : Tables :=
  if t.persons.any (ownPerson userId personId) then
    { t with
      persons := t.persons.filter (fun p => !ownPerson userId personId p)
      channels := t.channels.filter (fun c => !decide (c.personId = personId))
      edits := t.edits.filter (fun e => !decide (e.personId = personId)) }
  else t

def editOf (userId personId : Int) (property : String) (e : OntPersonEdit) : Bool :=
  e.userId = userId ∧ e.personId = personId ∧ e.propertyName = property

def updateEdit (userId personId : Int) (property value : String) (now : Int) (t : Tables) :
    Option (Nat × Tables) :=
  some ((t.edits.filter (editOf userId personId property)).length,
    { t with
      edits := t.edits.map (fun e =>
        if editOf userId personId property e then { e with value, editedAt := now } else e) })

/-- The person of a new edit must exist, and the edit must be the only one of its property. -/
def insertEdit (userId personId : Int) (property value : String) (now : Int) (t : Tables) :
    Option (Unit × Tables) :=
  if t.persons.any (fun p => p.id = personId) ∧ ¬ t.edits.any (editOf userId personId property) then
    some ((), { t with edits := t.edits ++ [⟨userId, personId, property, value, now⟩] })
  else none

/-- The channels of the user move to a person that must exist. -/
def moveChannels (userId keepId mergeId : Int) (t : Tables) : Option (Unit × Tables) :=
  if t.persons.any (fun p => p.id = keepId) ∨
      ¬ t.channels.any (fun c => c.personId = mergeId ∧ c.userId = userId) then
    some ((), updateChannels (fun c => c.personId = mergeId ∧ c.userId = userId)
      (fun c => { c with personId := keepId }) t)
  else none

end Tables

/-! ## The repository -/

def createPerson (userId : Int) (name : String) (now : Int) : Db OntPerson := do
  let person ← statement (Tables.insertPerson userId name now)
  logChange userId "person" person.id "created" none "user_action"
  return person

def addChannel (userId personId : Int) (platform : String) (handle roomId : Option String)
    (now : Int) : Db OntChannel := do
  let channel ← statement (Tables.insertChannel userId personId platform handle roomId now)
  logChange userId "channel" channel.id "created" none "user_action"
  return channel

/-- The channel of the user in the room. -/
def roomChannel (userId : Int) (roomId : String) (t : Tables) : Option OntChannel :=
  t.channels.find? (fun c => c.userId = userId ∧ c.roomId = some roomId)

/-- The person of the user with the name, in any case. -/
def namedPerson (lower : String → String) (userId : Int) (name : String) (t : Tables) :
    Option OntPerson :=
  t.persons.find? (fun p => p.userId = userId ∧ lower p.name = lower name)

/-- A channel of the person on the platform, whoever added it. -/
def platformChannel (personId : Int) (platform : String) (t : Tables) : Option OntChannel :=
  t.channels.find? (fun c => c.personId = personId ∧ c.platform = platform)

def findRoomChannel (userId : Int) : Option String → Db (Option OntChannel)
  | none => pure none
  | some rid => query (roomChannel userId rid)

/-- The person of a channel that was found by its room. -/
def personOfChannel (ch : OntChannel) : Db OntPerson := do
  match ← query (fun t => t.persons.find? (fun p => p.id = ch.personId)) with
  | none => Procedure.leave
  | some person => return person

/-- The channel of a person that was found by name: a new one, or the room of the one found. -/
def linkPlatform (userId : Int) (person : OntPerson) (platform : String)
    (handle roomId : Option String) (now : Int) : Option OntChannel → Db OntPerson
  | none => do
      let ch ← statement (Tables.insertChannel userId person.id platform handle roomId now)
      logChange userId "channel" ch.id "created" none "pipeline"
      return person
  | some ch =>
      if ch.roomId.isNone ∧ roomId.isSome then do
        execute (Tables.updateChannels (fun c => c.id = ch.id) (fun c => { c with roomId }))
        return person
      else return person

def createWithChannel (userId : Int) (name platform : String) (handle roomId : Option String)
    (now : Int) : Db OntPerson := do
  let person ← statement (Tables.insertPerson userId name now)
  logChange userId "person" person.id "created" none "pipeline"
  let channel ← statement (Tables.insertChannel userId person.id platform handle roomId now)
  logChange userId "channel" channel.id "created" none "pipeline"
  return person

/-- `upsert_person` where no channel of the user has the room. -/
def upsertNamed (lower : String → String) (userId : Int) (name platform : String)
    (handle roomId : Option String) (now : Int) : Db OntPerson := do
  match ← query (namedPerson lower userId name) with
  | some person => do
      let found ← query (platformChannel person.id platform)
      linkPlatform userId person platform handle roomId now found
  | none => createWithChannel userId name platform handle roomId now

def upsertPerson (lower : String → String) (userId : Int) (name platform : String)
    (handle roomId : Option String) (now : Int) : Db OntPerson := do
  match ← findRoomChannel userId roomId with
  | some ch => personOfChannel ch
  | none => upsertNamed lower userId name platform handle roomId now

/-- `get_person_with_channels`: the channels and edits of a person of the user. -/
def getPersonWithChannels (userId personId : Int) :
    Db (OntPerson × List OntChannel × List OntPersonEdit) := do
  match ← query (fun t => t.persons.find? (Tables.ownPerson userId personId)) with
  | none => Procedure.leave
  | some person =>
      let channels ← query (fun t => t.channels.filter (fun c => c.personId = personId))
      let edits ← query (fun t => t.edits.filter (fun e => e.personId = personId))
      return (person, channels, edits)

def updatePersonName (userId personId : Int) (name : String) (now : Int) : Db Unit :=
  execute (Tables.updatePersons (Tables.ownPerson userId personId)
    (fun p => { p with name, updatedAt := now }))

def setPersonEdit (userId personId : Int) (property value : String) (now : Int) : Db Unit := do
  let updated ← statement (Tables.updateEdit userId personId property value now)
  if updated = 0 then statement (Tables.insertEdit userId personId property value now)
  execute (Tables.touchPerson personId now)
  logChange userId "person" personId "updated"
    (some ("\x7b\"property\":\"" ++ property ++ "\"\x7d")) "user_action"

/-- `update_channel_notification`, by the id of the channel alone. -/
def updateChannelNotification (channelId : Int) (mode notiType : String) (onCall : Int) : Db Unit :=
  execute (Tables.updateChannels (fun c => c.id = channelId)
    (fun c => { c with
      notificationMode := mode
      notificationType := notiType
      notifyOnCall := onCall }))

def deletePerson (userId personId : Int) : Db Unit := do
  logChange userId "person" personId "deleted" none "user_action"
  execute (Tables.deletePerson userId personId)

def deleteChannel (userId channelId : Int) : Db Unit := do
  logChange userId "channel" channelId "deleted" none "user_action"
  execute (fun t => { t with
    channels := t.channels.filter (fun c => !decide (c.id = channelId ∧ c.userId = userId)) })

def mergePersons (userId keepId mergeId now : Int) : Db Unit := do
  statement (Tables.moveChannels userId keepId mergeId)
  execute (Tables.touchPerson keepId now)
  logChange userId "person" keepId "merged"
    (some ("\x7b\"merged_from\":" ++ toString mergeId ++ "\x7d")) "user_action"
  execute (Tables.deletePerson userId mergeId)

/-! ## The handlers -/

structure CreateChannelRequest where
  platform : String
  handle : Option String
  roomId : Option String
deriving DecidableEq, Repr

structure UpdatePersonRequest where
  name : Option String
  nickname : Option String
  notes : Option String
  notificationMode : Option String
  notificationType : Option String
  notifyOnCall : Option Bool
deriving DecidableEq, Repr

inductive Request
  | upsertPerson (name platform : String) (handle roomId : Option String)
  | createPerson (name : String) (channels : Option (List CreateChannelRequest))
  | updatePerson (personId : Int) (req : UpdatePersonRequest)
  | deletePerson (personId : Int)
  | addPersonChannel (personId : Int) (req : CreateChannelRequest)
  | updatePersonChannel (personId channelId : Int) (notificationMode notificationType : Option String)
      (notifyOnCall : Option Int)
  | deletePersonChannel (personId channelId : Int)
  | mergePersons (keepId mergeId : Int)
deriving DecidableEq, Repr

/-- The edits of a request, each with its property, in the order they are made. -/
def UpdatePersonRequest.edits (req : UpdatePersonRequest) : List (String × String) :=
  (req.nickname.map (Prod.mk "nickname")).toList ++ (req.notes.map (Prod.mk "notes")).toList ++
    (req.notificationMode.map (Prod.mk "notification_mode")).toList ++
    (req.notificationType.map (Prod.mk "notification_type")).toList ++
    (req.notifyOnCall.map (fun on => ("notify_on_call", if on then "1" else "0"))).toList

def setPersonEdits (userId personId now : Int) : List (String × String) → Db Unit
  | [] => pure ()
  | (property, value) :: rest => do
      attempt (setPersonEdit userId personId property value now)
      setPersonEdits userId personId now rest

def addChannels (userId personId now : Int) : List CreateChannelRequest → Db Unit
  | [] => pure ()
  | ch :: rest => do
      attempt (do
        let _ ← addChannel userId personId ch.platform ch.handle ch.roomId now
        return ())
      addChannels userId personId now rest

/-- What a request of the user does. -/
def handle (lower : String → String) (userId now : Int) : Request → Db Unit
  | .upsertPerson name platform handle roomId => do
      let _ ← upsertPerson lower userId name platform handle roomId now
      return ()
  | .createPerson name channels => do
      let person ← createPerson userId name now
      addChannels userId person.id now (channels.getD [])
      let _ ← getPersonWithChannels userId person.id
      return ()
  | .updatePerson personId req => do
      match req.name with
      | some name => updatePersonName userId personId name now
      | none => pure ()
      setPersonEdits userId personId now req.edits
      let _ ← getPersonWithChannels userId personId
      return ()
  | .deletePerson personId => deletePerson userId personId
  | .addPersonChannel personId req => do
      let _ ← addChannel userId personId req.platform req.handle req.roomId now
      return ()
  | .updatePersonChannel personId channelId mode ntype onCall => do
      updateChannelNotification channelId (mode.getD "default") (ntype.getD "sms") (onCall.getD 1)
      let _ ← getPersonWithChannels userId personId
      return ()
  | .deletePersonChannel _ channelId => deleteChannel userId channelId
  | .mergePersons keepId mergeId => do
      mergePersons userId keepId mergeId now
      let _ ← getPersonWithChannels userId keepId
      return ()

end Lightfriend.People
