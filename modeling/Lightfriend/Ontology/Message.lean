import Lightfriend.Core.Table

/-! # Messages of the ontology store

The rows of `ont_messages` and `insert_message`, which stores a message at most
once: a row with the same Matrix event wins, then a row with the same room,
sender and content at most five minutes away.
-/

namespace Lightfriend

structure OntMessage where
  id : Int
  userId : Int
  roomId : String
  platform : String
  senderName : String
  senderKey : Option String
  content : String
  personId : Option Int
  createdAt : Int
  matrixEventId : Option String
deriving DecidableEq, Repr

structure NewOntMessage where
  userId : Int
  roomId : String
  platform : String
  senderName : String
  senderKey : Option String
  content : String
  personId : Option Int
  createdAt : Int
  matrixEventId : Option String
deriving DecidableEq, Repr

/-- `ont_messages`, keyed by its serial id. -/
abbrev OntologyStore := Table OntMessage Int OntMessage.id

namespace OntologyStore

def nextId (store : OntologyStore) : Int := nextSerial (store.rows.map OntMessage.id)

/-- The row an insert of `msg` creates. -/
def newRow (store : OntologyStore) (msg : NewOntMessage) : OntMessage where
  id := store.nextId
  userId := msg.userId
  roomId := msg.roomId
  platform := msg.platform
  senderName := msg.senderName
  senderKey := msg.senderKey
  content := msg.content
  personId := msg.personId
  createdAt := msg.createdAt
  matrixEventId := msg.matrixEventId

theorem newRow_free (store : OntologyStore) (msg : NewOntMessage) :
    ¬ store.HasKey (store.newRow msg).id :=
  nextSerial_not_mem (store.rows.map OntMessage.id)

def duplicateWindow : Int := 300

/-- Layer 1: a row of the user with the same Matrix event. -/
def sameEvent (msg : NewOntMessage) (row : OntMessage) : Bool :=
  msg.matrixEventId.isSome && row.userId == msg.userId && row.matrixEventId == msg.matrixEventId

/-- Layer 2: the same content in the same room from the same sender, close in time. -/
def sameContent (msg : NewOntMessage) (row : OntMessage) : Bool :=
  row.userId == msg.userId && row.roomId == msg.roomId && row.senderName == msg.senderName &&
    row.content == msg.content && decide (msg.createdAt - duplicateWindow ≤ row.createdAt) &&
    decide (row.createdAt ≤ msg.createdAt + duplicateWindow)

/-- `insert_message` where the statements succeed: the row and whether it is new. -/
def insertMessage (store : OntologyStore) (msg : NewOntMessage) :
    (OntMessage × Bool) × OntologyStore :=
  match store.rows.find? (sameEvent msg) with
  | some dup => ((dup, false), store)
  | none =>
      match store.rows.find? (sameContent msg) with
      | some dup => ((dup, false), store)
      | none =>
          ((store.newRow msg, true), store.insert (store.newRow msg) (store.newRow_free msg))

/-- A message is stored when the ontology holds a row that `insert_message` takes for it. -/
def Stores (store : OntologyStore) (msg : NewOntMessage) : Prop :=
  ∃ row ∈ store, sameEvent msg row = true ∨ sameContent msg row = true

/-- `ontology_message_created_at`. -/
def createdAtOf (store : OntologyStore) (id : Int) : Option Int :=
  (store.find? id).map OntMessage.createdAt

/-! ## What an insert leaves behind -/

theorem insertMessage_mono {store : OntologyStore} {msg : NewOntMessage} {row : OntMessage}
    (h : row ∈ store) : row ∈ (store.insertMessage msg).2 := by
  unfold insertMessage
  split
  · exact h
  · split
    · exact h
    · exact (Table.mem_insert (h := store.newRow_free msg)).mpr (Or.inl h)

theorem mem_insertMessage {store : OntologyStore} {msg : NewOntMessage} {row : OntMessage}
    (h : row ∈ (store.insertMessage msg).2) : row ∈ store ∨ row = store.newRow msg := by
  unfold insertMessage at h
  split at h
  · exact Or.inl h
  · split at h
    · exact Or.inl h
    · exact (Table.mem_insert (h := store.newRow_free msg)).mp h

/-- The row returned is in the store and is one that the store takes for the message. -/
theorem insertMessage_row (store : OntologyStore) (msg : NewOntMessage) :
    (store.insertMessage msg).1.1 ∈ (store.insertMessage msg).2 ∧
      (sameEvent msg (store.insertMessage msg).1.1 = true ∨
        sameContent msg (store.insertMessage msg).1.1 = true) := by
  unfold insertMessage
  split
  next dup hdup =>
    exact ⟨List.mem_of_find?_eq_some hdup, Or.inl (List.find?_some hdup)⟩
  next =>
    split
    next dup hdup =>
      exact ⟨List.mem_of_find?_eq_some hdup, Or.inr (List.find?_some hdup)⟩
    next =>
      refine ⟨(Table.mem_insert (h := store.newRow_free msg)).mpr (Or.inr rfl), Or.inr ?_⟩
      simp [sameContent, newRow, duplicateWindow]

theorem insertMessage_stores (store : OntologyStore) (msg : NewOntMessage) :
    (store.insertMessage msg).2.Stores msg :=
  ⟨_, insertMessage_row store msg⟩

theorem Stores.mono {store : OntologyStore} {msg other : NewOntMessage} (h : store.Stores msg) :
    (store.insertMessage other).2.Stores msg := by
  obtain ⟨row, hrow, hsame⟩ := h
  exact ⟨row, insertMessage_mono hrow, hsame⟩

end OntologyStore

end Lightfriend
