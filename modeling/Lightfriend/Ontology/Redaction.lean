import Lightfriend.Core.Database
import Lightfriend.Core.Log
import Lightfriend.Core.Transition
import Lightfriend.Ontology.Message

/-! # Redactions

Inserts of messages and the deletes that redactions cause, one after another.
A lookup that fails is skipped over, so that an insert may run into the unique
index on the user and the Matrix event.
-/

namespace Lightfriend.Redaction

open OntologyStore (sameEvent sameContent)

/-! ## The calls -/

/-- What a call did, for the statements below; no code reads it. -/
inductive Entry
  | inserted (userId : Int) (eventId : Option String) (rowId : Int) (isNew : Bool)
  | deleted (userId : Int) (eventId : String)
deriving DecidableEq, Repr

structure MessageHistory where
  rows : List OntMessage
  /-- The last id that the sequence of the table has handed out. -/
  serial : Int
  /-- The calls so far, newest first. -/
  log : List Entry
deriving DecidableEq, Repr

structure InsertInput where
  msg : NewOntMessage
  /-- Which lookups are answered: by event, by content, and by event after a violation. -/
  eventLookup : Bool
  contentLookup : Bool
  retryLookup : Bool
  /-- Which row of several the lookup by content comes to first. -/
  pick : Nat
  fate : StatementFate
deriving DecidableEq, Repr

inductive Action
  | insertMessage (input : InsertInput)
  | deleteMessageByMatrixEventId (userId : Int) (eventId : String) (fate : StatementFate)
deriving DecidableEq, Repr

namespace MessageHistory

def eventRow (s : MessageHistory) (msg : NewOntMessage) : Option OntMessage :=
  s.rows.find? (sameEvent msg)

/-- The row that the lookup by content comes to, the first of those after `pick`. -/
def contentRow (s : MessageHistory) (msg : NewOntMessage) (pick : Nat) : Option OntMessage :=
  let candidates := s.rows.filter (sameContent msg)
  (candidates.drop pick ++ candidates).head?

def newRow (s : MessageHistory) (msg : NewOntMessage) : OntMessage where
  id := s.serial + 1
  userId := msg.userId
  roomId := msg.roomId
  platform := msg.platform
  senderName := msg.senderName
  senderKey := msg.senderKey
  content := msg.content
  personId := msg.personId
  createdAt := msg.createdAt
  matrixEventId := msg.matrixEventId

/-- A call that returned a row. -/
def returned (s : MessageHistory) (msg : NewOntMessage) (row : OntMessage) (isNew : Bool) :
    MessageHistory :=
  { s with log := .inserted msg.userId msg.matrixEventId row.id isNew :: s.log }

/-- The row of the message, written. -/
def written (s : MessageHistory) (msg : NewOntMessage) (isNew : Bool) : MessageHistory :=
  { rows := s.rows ++ [s.newRow msg]
    serial := s.serial + 1
    log := .inserted msg.userId msg.matrixEventId (s.serial + 1) isNew :: s.log }

/-- The insert and, when the index on user and event refuses it, the lookup after it. -/
def insertRow (s : MessageHistory) (input : InsertInput) : MessageHistory :=
  match s.eventRow input.msg with
  | some dup =>
      -- the sequence has moved on although no row was written
      let s := { s with serial := s.serial + 1 }
      if input.retryLookup then s.returned input.msg dup false else s
  | none =>
      match input.fate with
      | .done => s.written input.msg true
      | .refused => s
      -- the caller sees an error, so that nothing is reported to be new
      | .lost => s.written input.msg false

def insertMessage (s : MessageHistory) (input : InsertInput) : MessageHistory :=
  match if input.eventLookup then s.eventRow input.msg else none with
  | some dup => s.returned input.msg dup false
  | none =>
      match if input.contentLookup then s.contentRow input.msg input.pick else none with
      | some dup => s.returned input.msg dup false
      | none => s.insertRow input

def ofEvent (userId : Int) (eventId : String) (row : OntMessage) : Bool :=
  row.userId == userId && row.matrixEventId == some eventId

def deleteMessageByMatrixEventId (s : MessageHistory) (userId : Int) (eventId : String) :
    MessageHistory :=
  { s with
    rows := s.rows.filter (fun row => !ofEvent userId eventId row)
    log := .deleted userId eventId :: s.log }

end MessageHistory

def step (s : MessageHistory) : Action → Option MessageHistory
  | .insertMessage input => some (s.insertMessage input)
  | .deleteMessageByMatrixEventId userId eventId fate =>
      some (fate.after s (s.deleteMessageByMatrixEventId userId eventId))

def init : MessageHistory := ⟨[], 0, []⟩

/-! ## What is promised -/

def OneRowPerEvent (s : MessageHistory) : Prop :=
  s.rows.Pairwise (fun a b => a.userId = b.userId → a.matrixEventId = b.matrixEventId →
    a.matrixEventId = none)

/-- Between two inserts that report an event as new, the event was deleted. -/
def NewOnce (log : List Entry) : Prop :=
  ∀ later between earlier userId eventId i j,
    log = later ++ .inserted userId (some eventId) i true ::
      (between ++ .inserted userId (some eventId) j true :: earlier) →
    .deleted userId eventId ∈ between

/-- After a delete of an event no row of an earlier insert of the event is left. -/
def Redacted (s : MessageHistory) : Prop :=
  ∀ later earlier userId eventId i isNew,
    s.log = later ++ .deleted userId eventId :: earlier →
    .inserted userId (some eventId) i isNew ∈ earlier → ∀ row ∈ s.rows, row.id ≠ i

/-- The lookup by content does not answer for an event with a row of another one. -/
def OwnContent (s : MessageHistory) : Action → Prop
  | .insertMessage input =>
      input.msg.matrixEventId.isSome = true →
      (input.eventLookup = true → s.eventRow input.msg = none) → input.contentLookup = true →
      ∀ dup, s.contentRow input.msg input.pick = some dup →
        dup.matrixEventId = input.msg.matrixEventId
  | _ => True

/-! ## One call -/

theorem contentRow_spec {s : MessageHistory} {msg : NewOntMessage} {pick : Nat} {dup : OntMessage}
    (h : s.contentRow msg pick = some dup) : dup ∈ s.rows ∧ dup.userId = msg.userId := by
  have hmem := List.mem_of_mem_head? h
  have hcand : dup ∈ s.rows.filter (sameContent msg) := by
    rcases List.mem_append.mp hmem with hdrop | hall
    · exact List.mem_of_mem_drop hdrop
    · exact hall
  obtain ⟨hrows, hsame⟩ := List.mem_filter.mp hcand
  refine ⟨hrows, ?_⟩
  simp only [sameContent, Bool.and_eq_true, beq_iff_eq] at hsame
  exact hsame.1.1.1.1.1

theorem eventRow_spec {s : MessageHistory} {msg : NewOntMessage} {dup : OntMessage}
    (h : s.eventRow msg = some dup) :
    dup ∈ s.rows ∧ dup.userId = msg.userId ∧ dup.matrixEventId = msg.matrixEventId := by
  have hsame := List.find?_some h
  simp only [sameEvent, Bool.and_eq_true, beq_iff_eq] at hsame
  exact ⟨List.mem_of_find?_eq_some h, hsame.1.2, hsame.2⟩

/-- What an insert can do: nothing but to move the sequence on, to answer with a row that is
stored, or to write a row of an event that has none. -/
theorem insertMessage_cases (s : MessageHistory) (input : InsertInput) :
    (∃ k : Nat, s.insertMessage input = { s with serial := s.serial + k }) ∨
    (∃ (k : Nat) (dup : OntMessage), dup ∈ s.rows ∧ dup.userId = input.msg.userId ∧
      (OwnContent s (.insertMessage input) → input.msg.matrixEventId.isSome = true →
        dup.matrixEventId = input.msg.matrixEventId) ∧
      s.insertMessage input =
        { s.returned input.msg dup false with serial := s.serial + k }) ∨
    (∃ isNew, s.eventRow input.msg = none ∧ s.insertMessage input = s.written input.msg isNew) := by
  unfold MessageHistory.insertMessage
  split
  next dup hdup =>
    have hevent : s.eventRow input.msg = some dup := by
      split at hdup
      · exact hdup
      · cases hdup
    obtain ⟨hmem, huser, heq⟩ := eventRow_spec hevent
    exact .inr (.inl ⟨0, dup, hmem, huser, fun _ _ => heq, by simp [MessageHistory.returned]⟩)
  next hevent =>
    have hnone : input.eventLookup = true → s.eventRow input.msg = none := by
      intro hlook
      rwa [if_pos hlook] at hevent
    split
    next dup hdup =>
      have hlook : input.contentLookup = true := by
        by_contra hn
        rw [if_neg hn] at hdup
        cases hdup
      rw [if_pos hlook] at hdup
      obtain ⟨hmem, huser⟩ := contentRow_spec hdup
      exact .inr (.inl ⟨0, dup, hmem, huser, fun hown hsome => hown hsome hnone hlook dup hdup,
        by simp [MessageHistory.returned]⟩)
    next =>
      unfold MessageHistory.insertRow
      split
      next dup hdup =>
        obtain ⟨hmem, huser, heq⟩ := eventRow_spec hdup
        by_cases hretry : input.retryLookup = true
        · exact .inr (.inl ⟨1, dup, hmem, huser, fun _ _ => heq,
            by simp [hretry, MessageHistory.returned]⟩)
        · exact .inl ⟨1, by simp [hretry]⟩
      next hfree =>
        split
        next => exact .inr (.inr ⟨true, hfree, rfl⟩)
        next => exact .inl ⟨0, by simp⟩
        next => exact .inr (.inr ⟨false, hfree, rfl⟩)

/-! ## The invariants -/

/-- An event that was reported as new and not deleted since. -/
def Outstanding (log : List Entry) (userId : Int) (eventId : String) : Prop :=
  ∃ later earlier j, log = later ++ .inserted userId (some eventId) j true :: earlier ∧
    .deleted userId eventId ∉ later

theorem NewOnce.cons {log : List Entry} {x : Entry} (h : NewOnce log)
    (hx : ∀ userId eventId i, x = .inserted userId (some eventId) i true →
      ¬ Outstanding log userId eventId) : NewOnce (x :: log) := by
  intro later between earlier userId eventId i j heq
  rcases Log.cons_split heq with ⟨-, hnew, hlog⟩ | ⟨rest, -, hlog⟩
  · by_contra hdel
    exact hx userId eventId i hnew ⟨between, earlier, j, hlog, hdel⟩
  · exact h rest between earlier userId eventId i j hlog

theorem Outstanding.of_cons {log : List Entry} {x : Entry} {userId : Int} {eventId : String}
    (h : Outstanding (x :: log) userId eventId) :
    (∃ j, x = .inserted userId (some eventId) j true) ∨
      x ≠ .deleted userId eventId ∧ Outstanding log userId eventId := by
  obtain ⟨later, earlier, j, heq, hdel⟩ := h
  rcases Log.cons_split heq with ⟨-, hnew, -⟩ | ⟨rest, rfl, hlog⟩
  · exact .inl ⟨j, hnew⟩
  · obtain ⟨hne, hlater⟩ := not_or.mp (fun h => hdel (List.mem_cons.mpr h))
    exact .inr ⟨fun hy => hne hy.symm, rest, earlier, j, hlog, hlater⟩

/-- What every run keeps. -/
structure Inv (s : MessageHistory) : Prop where
  ids : ∀ row ∈ s.rows, row.id ≤ s.serial
  keyed : ∀ a ∈ s.rows, ∀ b ∈ s.rows, a.id = b.id → a = b
  logged : ∀ userId eventId i isNew, .inserted userId eventId i isNew ∈ s.log → i ≤ s.serial
  unique : OneRowPerEvent s
  stored : ∀ userId eventId, Outstanding s.log userId eventId →
    ∃ row ∈ s.rows, row.userId = userId ∧ row.matrixEventId = some eventId
  once : NewOnce s.log

/-- What a run keeps whose lookups by content answer with rows of the same event. -/
structure Tied (s : MessageHistory) : Prop where
  own : ∀ userId eventId i isNew, .inserted userId (some eventId) i isNew ∈ s.log →
    ∀ row ∈ s.rows, row.id = i → row.userId = userId ∧ row.matrixEventId = some eventId
  redacted : Redacted s

theorem inv_init : Inv init where
  ids := by simp [init]
  keyed := by simp [init]
  logged := by simp [init]
  unique := List.Pairwise.nil
  stored := by
    rintro userId eventId ⟨later, earlier, j, heq, -⟩
    simp [init] at heq
  once := by
    intro later between earlier userId eventId i j heq
    simp [init] at heq

theorem Inv.advance {s : MessageHistory} (h : Inv s) (k : Nat) :
    Inv { s with serial := s.serial + k } where
  ids := fun row hrow => by
    have := h.ids row hrow
    show row.id ≤ s.serial + k
    omega
  keyed := h.keyed
  logged := fun userId eventId i isNew hmem => by
    have := h.logged userId eventId i isNew hmem
    show i ≤ s.serial + k
    omega
  unique := h.unique
  stored := h.stored
  once := h.once

theorem Inv.returned {s : MessageHistory} (h : Inv s) {dup : OntMessage} (hdup : dup ∈ s.rows)
    (msg : NewOntMessage) : Inv (s.returned msg dup false) where
  ids := h.ids
  keyed := h.keyed
  logged := fun userId eventId i isNew hmem => by
    rcases List.mem_cons.mp hmem with heq | hmem
    · cases heq
      exact h.ids dup hdup
    · exact h.logged userId eventId i isNew hmem
  unique := h.unique
  stored := fun userId eventId hout => by
    rcases hout.of_cons with ⟨j, heq⟩ | ⟨-, hout⟩
    · injection heq with _ _ _ hnew
      cases hnew
    · exact h.stored userId eventId hout
  once := h.once.cons (fun userId eventId i heq => by
    injection heq with _ _ _ hnew
    cases hnew)

/-- The rows have none of an event that the lookup by event does not find. -/
theorem no_row_of_eventRow {s : MessageHistory} {msg : NewOntMessage} (h : s.eventRow msg = none)
    {eventId : String} (he : msg.matrixEventId = some eventId) {row : OntMessage}
    (hrow : row ∈ s.rows) : ¬ (row.userId = msg.userId ∧ row.matrixEventId = some eventId) := by
  rintro ⟨huser, hevent⟩
  have hnot := List.find?_eq_none.mp h row hrow
  simp [sameEvent, he, huser, hevent] at hnot

theorem Inv.written {s : MessageHistory} (h : Inv s) {msg : NewOntMessage}
    (hfree : s.eventRow msg = none) (isNew : Bool) : Inv (s.written msg isNew) where
  ids := fun row hrow => by
    show row.id ≤ s.serial + 1
    rcases List.mem_append.mp hrow with hrow | hrow
    · have := h.ids row hrow
      omega
    · rw [List.mem_singleton.mp hrow]
      exact le_refl (s.serial + 1)
  keyed := by
    have hnew : (s.newRow msg).id = s.serial + 1 := rfl
    intro a ha b hb hid
    rcases List.mem_append.mp ha with ha | ha <;> rcases List.mem_append.mp hb with hb | hb
    · exact h.keyed a ha b hb hid
    · have := h.ids a ha
      rw [List.mem_singleton.mp hb] at hid
      omega
    · have := h.ids b hb
      rw [List.mem_singleton.mp ha] at hid
      omega
    · rw [List.mem_singleton.mp ha, List.mem_singleton.mp hb]
  logged := fun userId eventId i isNew' hmem => by
    show i ≤ s.serial + 1
    rcases List.mem_cons.mp hmem with heq | hmem
    · cases heq
      exact le_refl (s.serial + 1)
    · have := h.logged userId eventId i isNew' hmem
      omega
  unique := by
    refine List.pairwise_append.mpr ⟨h.unique, List.pairwise_singleton _ _, ?_⟩
    intro a ha b hb huser hevent
    rw [List.mem_singleton.mp hb] at huser hevent
    cases he : msg.matrixEventId with
    | none => exact hevent.trans he
    | some eventId => exact absurd ⟨huser, hevent.trans he⟩ (no_row_of_eventRow hfree he ha)
  stored := fun userId eventId hout => by
    rcases hout.of_cons with ⟨j, heq⟩ | ⟨-, hout⟩
    · injection heq with huser hevent
      exact ⟨s.newRow msg, List.mem_append_right _ (List.mem_singleton_self _), huser, hevent⟩
    · obtain ⟨row, hrow, hof⟩ := h.stored userId eventId hout
      exact ⟨row, List.mem_append_left _ hrow, hof⟩
  once := h.once.cons (fun userId eventId i heq hout => by
    injection heq with huser hevent
    obtain ⟨row, hrow, hu, he⟩ := h.stored userId eventId hout
    exact no_row_of_eventRow hfree hevent hrow ⟨hu.trans huser.symm, he⟩)

theorem Inv.deleted {s : MessageHistory} (h : Inv s) (userId : Int) (eventId : String) :
    Inv (s.deleteMessageByMatrixEventId userId eventId) where
  ids := fun row hrow => h.ids row (List.mem_filter.mp hrow).1
  keyed := fun a ha b hb => h.keyed a (List.mem_filter.mp ha).1 b (List.mem_filter.mp hb).1
  logged := fun u e i isNew hmem => by
    rcases List.mem_cons.mp hmem with heq | hmem
    · cases heq
    · exact h.logged u e i isNew hmem
  unique := h.unique.filter _
  stored := fun u e hout => by
    rcases hout.of_cons with ⟨j, heq⟩ | ⟨hne, hout⟩
    · cases heq
    · obtain ⟨row, hrow, hu, he⟩ := h.stored u e hout
      refine ⟨row, List.mem_filter.mpr ⟨hrow, ?_⟩, hu, he⟩
      by_contra hof
      simp only [MessageHistory.ofEvent, Bool.not_eq_true', Bool.not_eq_false, Bool.and_eq_true,
        beq_iff_eq] at hof
      obtain ⟨huser, hevent⟩ := hof
      rw [he] at hevent
      exact hne (by rw [← Option.some.inj hevent, ← huser, hu])
  once := h.once.cons (fun u e i heq => by cases heq)

theorem inv_step {s t : MessageHistory} {a : Action} (h : Inv s) (hstep : step s a = some t) :
    Inv t := by
  cases a with
  | insertMessage input =>
      cases hstep
      rcases insertMessage_cases s input with ⟨k, heq⟩ | ⟨k, dup, hdup, -, -, heq⟩ |
        ⟨isNew, hfree, heq⟩
      · rw [heq]
        exact h.advance k
      · rw [heq]
        exact (h.returned hdup input.msg).advance k
      · rw [heq]
        exact h.written hfree isNew
  | deleteMessageByMatrixEventId userId eventId fate =>
      cases hstep
      exact fate.after_keeps Inv h (h.deleted userId eventId)

/-- A new entry at the head of the log that is no delete opens no obligation. -/
theorem Redacted.of_cons {s t : MessageHistory} {x : Entry} (h : Redacted s)
    (hlog : t.log = x :: s.log)
    (hold : ∀ userId eventId i isNew, .inserted userId (some eventId) i isNew ∈ s.log →
      ∀ row ∈ t.rows, row.id = i → row ∈ s.rows)
    (hdel : ∀ userId eventId, x = .deleted userId eventId →
      ∀ i isNew, .inserted userId (some eventId) i isNew ∈ s.log →
        ∀ row ∈ t.rows, row.id ≠ i) : Redacted t := by
  intro later earlier userId eventId i isNew heq hmem row hrow
  rw [hlog] at heq
  rcases Log.cons_split heq with ⟨-, hnew, rfl⟩ | ⟨rest, -, hsplit⟩
  · exact hdel userId eventId hnew i isNew hmem row hrow
  · have hin : .inserted userId (some eventId) i isNew ∈ s.log := Log.mem_of_earlier hsplit hmem
    intro hid
    exact h rest earlier userId eventId i isNew hsplit hmem row
      (hold userId eventId i isNew hin row hrow hid) hid

theorem tied_init : Tied init where
  own := by simp [init]
  redacted := by
    intro later earlier userId eventId i isNew heq
    simp [init] at heq

theorem Tied.returned {s : MessageHistory} (h : Tied s) (hinv : Inv s) {dup : OntMessage}
    (hdup : dup ∈ s.rows) {msg : NewOntMessage} (huser : dup.userId = msg.userId)
    (hevent : msg.matrixEventId.isSome = true → dup.matrixEventId = msg.matrixEventId) :
    Tied (s.returned msg dup false) where
  own := fun userId eventId i isNew hmem row hrow hid => by
    rcases List.mem_cons.mp hmem with heq | hmem
    · injection heq with hu he hi _
      have hrow : row = dup := hinv.keyed row hrow dup hdup (hid.trans hi)
      rw [hrow, huser, hevent (by rw [← he]; rfl)]
      exact ⟨hu.symm, he.symm⟩
    · exact h.own userId eventId i isNew hmem row hrow hid
  redacted := h.redacted.of_cons rfl (fun _ _ _ _ _ _ hrow _ => hrow)
    (fun _ _ heq => by cases heq)

theorem Tied.written {s : MessageHistory} (h : Tied s) (hinv : Inv s) (msg : NewOntMessage)
    (isNew : Bool) : Tied (s.written msg isNew) := by
  have hold : ∀ userId eventId i isNew', .inserted userId (some eventId) i isNew' ∈ s.log →
      ∀ row ∈ (s.written msg isNew).rows, row.id = i → row ∈ s.rows := by
    intro userId eventId i isNew' hmem row hrow hid
    rcases List.mem_append.mp hrow with hrow | hrow
    · exact hrow
    · have hnew : row.id = s.serial + 1 := by rw [List.mem_singleton.mp hrow]; rfl
      have := hinv.logged userId (some eventId) i isNew' hmem
      omega
  refine ⟨?_, h.redacted.of_cons rfl hold (fun _ _ heq => by cases heq)⟩
  intro userId eventId i isNew' hmem row hrow hid
  rcases List.mem_cons.mp hmem with heq | hmem
  · injection heq with hu he hi _
    rcases List.mem_append.mp hrow with hrow | hrow
    · have := hinv.ids row hrow
      omega
    · rw [List.mem_singleton.mp hrow]
      exact ⟨hu.symm, he.symm⟩
  · exact h.own userId eventId i isNew' hmem row (hold userId eventId i isNew' hmem row hrow hid) hid

theorem Tied.deleted {s : MessageHistory} (h : Tied s) (userId : Int) (eventId : String) :
    Tied (s.deleteMessageByMatrixEventId userId eventId) := by
  have hold : ∀ row ∈ (s.deleteMessageByMatrixEventId userId eventId).rows, row ∈ s.rows :=
    fun row hrow => (List.mem_filter.mp hrow).1
  refine ⟨?_, h.redacted.of_cons rfl (fun _ _ _ _ _ row hrow _ => hold row hrow) ?_⟩
  · intro u e i isNew hmem row hrow hid
    rcases List.mem_cons.mp hmem with heq | hmem
    · cases heq
    · exact h.own u e i isNew hmem row (hold row hrow) hid
  · intro u e heq i isNew hmem row hrow hid
    cases heq
    obtain ⟨hu, he⟩ := h.own userId eventId i isNew hmem row (hold row hrow) hid
    have hkept := (List.mem_filter.mp hrow).2
    simp [MessageHistory.ofEvent, hu, he] at hkept

theorem Tied.advance {s : MessageHistory} (h : Tied s) (k : Nat) :
    Tied { s with serial := s.serial + k } := ⟨h.own, h.redacted⟩

theorem tied_step {s t : MessageHistory} {a : Action} (hinv : Inv s) (h : Tied s)
    (hok : OwnContent s a) (hstep : step s a = some t) : Tied t := by
  cases a with
  | insertMessage input =>
      cases hstep
      rcases insertMessage_cases s input with ⟨k, heq⟩ | ⟨k, dup, hdup, huser, hevent, heq⟩ |
        ⟨isNew, -, heq⟩
      · rw [heq]
        exact h.advance k
      · rw [heq]
        exact (h.returned hinv hdup huser (hevent hok)).advance k
      · rw [heq]
        exact h.written hinv input.msg isNew
  | deleteMessageByMatrixEventId userId eventId fate =>
      cases hstep
      exact fate.after_keeps Tied h (h.deleted userId eventId)

/-- Over every sequence of inserts and redactions an event has one row and is reported as new once
between its deletions; and where no lookup by content answers for an event with a row of another
one, no row of an event is left that was deleted since. -/
theorem redaction_removes {s : MessageHistory} {actions : List Action}
    (hrun : Transition.run step init actions = some s) :
    OneRowPerEvent s ∧ NewOnce s.log ∧ (Transition.Meets step OwnContent init actions → Redacted s) := by
  have hinv : Inv s :=
    Transition.run_invariant_all (fun _ _ _ h hs => inv_step h hs) inv_init hrun
  refine ⟨hinv.unique, hinv.once, fun hmeets => ?_⟩
  have hboth : Inv s ∧ Tied s :=
    @Transition.run_invariant _ _ _ _ (fun t => Inv t ∧ Tied t)
      (fun _ _ _ h hok hs => ⟨inv_step h.1 hs, tied_step h.1 h.2 hok hs⟩) _ _ _
      ⟨inv_init, tied_init⟩ hmeets hrun
  exact hboth.2.redacted

/-- A message of the chat, as an event. -/
def lunchMessage (createdAt : Int) (eventId : String) : NewOntMessage :=
  ⟨1, "!chat:local", "whatsapp", "Ann", none, "lunch?", none, createdAt, some eventId⟩

def insertOf (msg : NewOntMessage) : Action := .insertMessage ⟨msg, true, true, true, 0, .done⟩

/-- The event arrives twice and is deleted. -/
def redeliveredRun : List Action :=
  [insertOf (lunchMessage 1000 "$a"), insertOf (lunchMessage 1000 "$a"),
    .deleteMessageByMatrixEventId 1 "$a" .done]

theorem redeliveredRun_removes :
    OneRowPerEvent (Transition.final step init redeliveredRun) ∧
      NewOnce (Transition.final step init redeliveredRun).log ∧
      Redacted (Transition.final step init redeliveredRun) := by
  have h := @redaction_removes (Transition.final step init redeliveredRun) redeliveredRun
    (show Transition.run step init redeliveredRun =
      some (Transition.final step init redeliveredRun) from
        Transition.run_eq_final (by decide +kernel))
  refine ⟨h.1, h.2.1, h.2.2 ?_⟩
  refine ⟨fun _ _ _ dup hdup => ?_, fun _ hnone _ dup _ => ?_, trivial, trivial⟩
  · cases hdup
  · exact absurd (hnone rfl) (by decide)

/-- The bridge emits the message again as another event, and that event is deleted. -/
def reemittedRun : List Action :=
  [insertOf (lunchMessage 1000 "$a"), insertOf (lunchMessage 1060 "$b"),
    .deleteMessageByMatrixEventId 1 "$b" .done]

/-- The row that the insert of the deleted event answered with is still there. -/
theorem reemittedRun_left_over : ¬ Redacted (Transition.final step init reemittedRun) := by
  intro h
  have hrow := h [] [.inserted 1 (some "$b") 1 false, .inserted 1 (some "$a") 1 true] 1 "$b" 1
    false (by decide +kernel) (by decide +kernel)
    (OntMessage.mk 1 1 "!chat:local" "whatsapp" "Ann" none "lunch?" none 1000 (some "$a"))
    (by decide +kernel)
  exact hrow rfl

end Lightfriend.Redaction
