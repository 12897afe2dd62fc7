import Lightfriend.Core.Machine
import Lightfriend.Core.Table
import Lightfriend.Core.Transition
import Lightfriend.Proactive.UrgentAlert

/-! # Temporary alert suppressions

A user asks for quiet, or for a topic to be ignored, until a time. A new quiet window
ends the ones that are in force, in one transaction with its insert; others may start,
end windows or tick between the two statements. An alert is held back while a window
that covers it is in force.
-/

namespace Lightfriend.Proactive.Suppression

open UrgentAlert (Alphabet byteLength)

/-! ## Rows -/

inductive Kind
  | topic
  | quiet
deriving DecidableEq, Repr

inductive Scope
  | all
  | critical
  | digest
deriving DecidableEq, Repr

structure NewTemporaryAlertSuppression where
  userId : Int
  kind : Kind
  scope : Scope
  matchText : Option String
  timezone : String
  createdAt : Int
  expiresAt : Int
deriving DecidableEq, Repr

structure TemporaryAlertSuppression extends NewTemporaryAlertSuppression where
  id : Int
  endedAt : Option Int
deriving DecidableEq, Repr

/-- The checks of the table on the columns that an insert gives. -/
def NewTemporaryAlertSuppression.Allowed (row : NewTemporaryAlertSuppression) : Prop :=
  row.createdAt < row.expiresAt ∧ (row.kind = .topic → row.matchText.isSome = true)

instance (row : NewTemporaryAlertSuppression) : Decidable row.Allowed :=
  inferInstanceAs (Decidable (_ ∧ _))

namespace TemporaryAlertSuppression

/-- The filter of every query but the one by id alone. -/
def InForce (now : Int) (r : TemporaryAlertSuppression) : Prop :=
  r.endedAt = none ∧ now < r.expiresAt

instance (now : Int) (r : TemporaryAlertSuppression) : Decidable (r.InForce now) :=
  inferInstanceAs (Decidable (_ ∧ _))

/-- The quiet windows of a user that are in force. -/
def QuietFor (userId now : Int) (r : TemporaryAlertSuppression) : Prop :=
  r.userId = userId ∧ r.kind = .quiet ∧ r.InForce now

instance (userId now : Int) (r : TemporaryAlertSuppression) : Decidable (r.QuietFor userId now) :=
  inferInstanceAs (Decidable (_ ∧ _ ∧ _))

theorem InForce.mono {r : TemporaryAlertSuppression} {now later : Int} (h : r.InForce later)
    (hle : now ≤ later) : r.InForce now :=
  ⟨h.1, lt_of_le_of_lt hle h.2⟩

/-- What becomes of a row: it is ended once, and nothing else of it changes. -/
structure Becomes (r r' : TemporaryAlertSuppression) : Prop where
  id : r'.id = r.id
  columns : r'.toNewTemporaryAlertSuppression = r.toNewTemporaryAlertSuppression
  final : r.endedAt.isSome = true → r' = r

theorem Becomes.refl (r : TemporaryAlertSuppression) : r.Becomes r := ⟨rfl, rfl, fun _ => rfl⟩

theorem Becomes.trans {a b c : TemporaryAlertSuppression} (hab : a.Becomes b)
    (hbc : b.Becomes c) : a.Becomes c where
  id := hbc.id.trans hab.id
  columns := hbc.columns.trans hab.columns
  final := by
    intro hended
    obtain rfl := hab.final hended
    exact hbc.final hended

end TemporaryAlertSuppression

/-! ## The system -/

/-- A transaction of `create` that is not over: the rows that its statement can see, and the
rows that it has ended, once the statement has run. It keeps them locked. -/
structure Creation where
  row : NewTemporaryAlertSuppression
  snapshot : List Int
  ended : Option (List Int)
deriving DecidableEq, Repr

structure State where
  rows : List TemporaryAlertSuppression
  nextId : Int
  /-- The latest time that anyone has read. -/
  clock : Int
  creations : List Creation
  /-- The rows that were ended, in the order in which it became visible. -/
  endings : List Int
deriving DecidableEq, Repr

def State.init : State := ⟨[], 1, 0, [], []⟩

def Creation.holds (c : Creation) (id : Int) : Prop := ∃ ids, c.ended = some ids ∧ id ∈ ids

def Creation.locks (c : Creation) (id : Int) : Bool := (c.ended.getD []).contains id

/-- `SET ended_at = now` of the rows with these ids. -/
def endRow (ids : List Int) (now : Int) (r : TemporaryAlertSuppression) :
    TemporaryAlertSuppression :=
  if r.id ∈ ids then { r with endedAt := some now } else r

theorem endRow_id (ids : List Int) (now : Int) (r : TemporaryAlertSuppression) :
    (endRow ids now r).id = r.id := by
  unfold endRow
  split <;> rfl

theorem endRow_columns (ids : List Int) (now : Int) (r : TemporaryAlertSuppression) :
    (endRow ids now r).toNewTemporaryAlertSuppression = r.toNewTemporaryAlertSuppression := by
  unfold endRow
  split <;> rfl

namespace State

def locked (s : State) (id : Int) : Bool := s.creations.any (fun c => c.locks id)

/-- The ids of the rows that an update with this filter finds. -/
def found (s : State) (p : TemporaryAlertSuppression → Bool) : List Int :=
  (s.rows.filter p).map TemporaryAlertSuppression.id

def finish (s : State) (ids : List Int) (now : Int) : State :=
  { s with rows := s.rows.map (endRow ids now), endings := s.endings ++ ids }

/-- One `UPDATE` of its own. It waits while another transaction holds a row that it wants. -/
def update (s : State) (p : TemporaryAlertSuppression → Bool) (now : Int) : Option State :=
  if s.clock < now ∨ (s.found p).any s.locked then none else some (s.finish (s.found p) now)

def insert (s : State) (row : NewTemporaryAlertSuppression) : State :=
  { s with rows := s.rows ++ [⟨row, s.nextId, none⟩], nextId := s.nextId + 1 }

def drop (s : State) (i : Nat) : State := { s with creations := s.creations.eraseIdx i }

end State

/-- A statement acts on the rows of its snapshot, in their latest version. -/
inductive Action
  | tick (now : Int)
  /-- `create` reads the clock, and its first statement starts. -/
  | start (row : NewTemporaryAlertSuppression)
  /-- The first statement of `create` of a quiet window has the locks it wants. -/
  | endCurrent (i : Nat)
  | commit (i : Nat)
  | rollback (i : Nat)
  | endQuiet (userId : Int) (scope : Option Scope) (now : Int) (snapshot : List Int)
  | endForUser (userId id now : Int)
deriving DecidableEq, Repr

namespace State

def tick (s : State) (now : Int) : Option State :=
  if now < s.clock then none else some { s with clock := now }

def start (s : State) (row : NewTemporaryAlertSuppression) : Option State :=
  if s.clock < row.createdAt then none
  else
    some { s with
      creations := s.creations ++
        [⟨row, s.rows.map TemporaryAlertSuppression.id,
          if row.kind = .quiet then none else some []⟩] }

def endCurrent (s : State) (i : Nat) : Option State :=
  match s.creations[i]? with
  | some ⟨row, snapshot, none⟩ =>
      let ids := s.found (fun r => r.QuietFor row.userId row.createdAt ∧ r.id ∈ snapshot)
      if ids.any s.locked then none
      else some { s with creations := s.creations.set i ⟨row, snapshot, some ids⟩ }
  | _ => none

def commit (s : State) (i : Nat) : Option State :=
  match s.creations[i]? with
  | some ⟨row, _, some ids⟩ =>
      -- a row that the checks refuse fails the transaction
      if row.Allowed then some (((s.drop i).finish ids row.createdAt).insert row)
      else some (s.drop i)
  | _ => none

def rollback (s : State) (i : Nat) : Option State :=
  if i < s.creations.length then some (s.drop i) else none

end State

def step (s : State) : Action → Option State
  | .tick now => s.tick now
  | .start row => s.start row
  | .endCurrent i => s.endCurrent i
  | .commit i => s.commit i
  | .rollback i => s.rollback i
  | .endQuiet userId scope now snapshot =>
      s.update (fun r => r.QuietFor userId now ∧ (∀ sc ∈ scope, r.scope = sc) ∧ r.id ∈ snapshot) now
  | .endForUser userId id now =>
      s.update (fun r => r.id = id ∧ r.userId = userId ∧ r.InForce now) now

/-! ## What a step can do -/

open TemporaryAlertSuppression (Becomes InForce QuietFor)

/-- The user for whom an action acts. -/
def Action.user (s : State) : Action → Option Int
  | .tick _ => none
  | .start row => some row.userId
  | .endCurrent i | .commit i | .rollback i => (s.creations[i]?).map (fun c => c.row.userId)
  | .endQuiet userId _ _ _ => some userId
  | .endForUser userId _ _ => some userId

variable {s next t : State} {action : Action} {actions : List Action} {now : Int} {ids : List Int}
  {r r' : TemporaryAlertSuppression} {p : TemporaryAlertSuppression → Bool}

theorem mem_found {id : Int} : id ∈ s.found p ↔ ∃ r ∈ s.rows, p r = true ∧ r.id = id := by
  simp only [State.found, List.mem_map, List.mem_filter, and_assoc]

theorem found_sublist : (s.found p).Sublist (s.rows.map TemporaryAlertSuppression.id) :=
  List.filter_sublist.map _

theorem any_locked_eq_false : ids.any s.locked = false ↔
    ∀ id ∈ ids, ∀ c ∈ s.creations, ¬ c.holds id := by
  simp only [List.any_eq_false, State.locked, Creation.locks, Creation.holds, Bool.not_eq_true]
  refine forall₂_congr (fun id _ => forall₂_congr (fun c _ => ?_))
  cases c.ended <;> simp

/-- The rows with these ids are in force, are the user's, and no transaction holds them. -/
structure CanEnd (s : State) (userId : Int) (ids : List Int) (now : Int) : Prop where
  rows : ∀ id ∈ ids, ∃ r ∈ s.rows, r.id = id ∧ r.userId = userId ∧ r.InForce now
  free : ∀ id ∈ ids, ∀ c ∈ s.creations, ¬ c.holds id

inductive Steps (s : State) : Action → State → Prop
  | tick {now : Int} : s.clock ≤ now → Steps s (.tick now) { s with clock := now }
  | start {row : NewTemporaryAlertSuppression} : row.createdAt ≤ s.clock →
      Steps s (.start row) { s with
        creations := s.creations ++
          [⟨row, s.rows.map TemporaryAlertSuppression.id,
            if row.kind = .quiet then none else some []⟩] }
  | endCurrent {i : Nat} {row : NewTemporaryAlertSuppression} {snapshot ids : List Int} :
      s.creations[i]? = some ⟨row, snapshot, none⟩ → CanEnd s row.userId ids row.createdAt →
      ids.Sublist (s.rows.map TemporaryAlertSuppression.id) →
      (∀ r ∈ s.rows, r.QuietFor row.userId row.createdAt → r.id ∈ snapshot → r.id ∈ ids) →
      Steps s (.endCurrent i) { s with creations := s.creations.set i ⟨row, snapshot, some ids⟩ }
  | commit {i : Nat} {row : NewTemporaryAlertSuppression} {snapshot ids : List Int} :
      s.creations[i]? = some ⟨row, snapshot, some ids⟩ → row.Allowed →
      Steps s (.commit i) (((s.drop i).finish ids row.createdAt).insert row)
  | drop {action : Action} (i : Nat) : Steps s action (s.drop i)
  | finish {action : Action} {userId now : Int} {ids : List Int} : action.user s = some userId →
      CanEnd s userId ids now → ids.Sublist (s.rows.map TemporaryAlertSuppression.id) →
      Steps s action (s.finish ids now)

theorem update_spec {userId : Int} (huser : action.user s = some userId)
    (h : s.update p now = some next)
    (hp : ∀ r, p r = true → r.userId = userId ∧ r.InForce now) : Steps s action next := by
  unfold State.update at h
  split at h
  next => cases h
  next hnot =>
    rw [not_or, Bool.not_eq_true, any_locked_eq_false] at hnot
    obtain rfl := Option.some.inj h
    refine .finish huser ⟨?_, hnot.2⟩ found_sublist
    intro id hid
    obtain ⟨r, hr, hpr, rfl⟩ := mem_found.mp hid
    exact ⟨r, hr, rfl, hp r hpr⟩

theorem step_spec (h : step s action = some next) : Steps s action next := by
  cases action with
  | tick now =>
      change s.tick now = some next at h
      unfold State.tick at h
      split at h
      next => cases h
      next hle =>
        obtain rfl := Option.some.inj h
        exact .tick (not_lt.mp hle)
  | start row =>
      change s.start row = some next at h
      unfold State.start at h
      split at h
      next => cases h
      next hle =>
        obtain rfl := Option.some.inj h
        exact .start (not_lt.mp hle)
  | endCurrent i =>
      change s.endCurrent i = some next at h
      unfold State.endCurrent at h
      split at h
      next row snapshot hi =>
        dsimp only at h
        split at h
        next => cases h
        next hfree =>
          obtain rfl := Option.some.inj h
          rw [Bool.not_eq_true, any_locked_eq_false] at hfree
          refine .endCurrent hi ⟨?_, hfree⟩ found_sublist ?_
          · intro id hid
            obtain ⟨r, hr, hpr, rfl⟩ := mem_found.mp hid
            obtain ⟨⟨huser, -, hforce⟩, -⟩ := of_decide_eq_true hpr
            exact ⟨r, hr, rfl, huser, hforce⟩
          · intro r hr hquiet hsnapshot
            exact mem_found.mpr ⟨r, hr, decide_eq_true ⟨hquiet, hsnapshot⟩, rfl⟩
      next => cases h
  | commit i =>
      change s.commit i = some next at h
      unfold State.commit at h
      split at h
      next row snapshot ids hi =>
        split at h
        next hallowed =>
          obtain rfl := Option.some.inj h
          exact .commit hi hallowed
        next =>
          obtain rfl := Option.some.inj h
          exact .drop i
      next => cases h
  | rollback i =>
      change s.rollback i = some next at h
      unfold State.rollback at h
      split at h
      next =>
        obtain rfl := Option.some.inj h
        exact .drop i
      next => cases h
  | endQuiet userId scope now snapshot =>
      refine update_spec rfl h (fun r hr => ?_)
      obtain ⟨⟨huser, -, hforce⟩, -⟩ := of_decide_eq_true hr
      exact ⟨huser, hforce⟩
  | endForUser userId id now =>
      refine update_spec rfl h (fun r hr => ?_)
      obtain ⟨-, huser, hforce⟩ := of_decide_eq_true hr
      exact ⟨huser, hforce⟩

/-! ## What every step keeps -/

structure Kept (s : State) : Prop where
  ids : (s.rows.map TemporaryAlertSuppression.id).Nodup
  fresh : ∀ r ∈ s.rows, r.id < s.nextId
  allowed : ∀ r ∈ s.rows, r.Allowed
  inTime : ∀ r ∈ s.rows, ∀ time, r.endedAt = some time → time < r.expiresAt
  endings : ∀ r ∈ s.rows, s.endings.count r.id = if r.endedAt.isSome then 1 else 0
  known : ∀ id ∈ s.endings, ∃ r ∈ s.rows, r.id = id
  held : ∀ c ∈ s.creations, ∀ ids, c.ended = some ids → ids.Nodup ∧
    ∀ id ∈ ids, ∃ r ∈ s.rows, r.id = id ∧ r.userId = c.row.userId ∧ r.InForce c.row.createdAt
  apart : s.creations.Pairwise (fun c c' => ∀ id, c.holds id → ¬ c'.holds id)

theorem kept_init : Kept State.init := by
  constructor <;> simp [State.init]

theorem mem_finish : r ∈ (s.finish ids now).rows ↔ ∃ r₀ ∈ s.rows, endRow ids now r₀ = r := by
  simp only [State.finish, List.mem_map]

/-- The rows of a user's update are the ones that it may end. -/
theorem CanEnd.row {userId : Int} (h : CanEnd s userId ids now) (hs : Kept s) (hr : r ∈ s.rows)
    (hid : r.id ∈ ids) : r.userId = userId ∧ r.InForce now := by
  obtain ⟨r', hr', heq, hrow⟩ := h.rows r.id hid
  rwa [List.inj_on_of_nodup_map hs.ids hr' hr heq] at hrow

theorem Kept.finish {userId : Int} (h : Kept s) (hcan : CanEnd s userId ids now)
    (hnodup : ids.Nodup) : Kept (s.finish ids now) where
  ids := by
    have hmap : (s.finish ids now).rows.map TemporaryAlertSuppression.id =
        s.rows.map TemporaryAlertSuppression.id := by
      simp only [State.finish, List.map_map]
      exact List.map_congr_left (fun r _ => endRow_id ids now r)
    rw [hmap]
    exact h.ids
  fresh := by
    intro r hr
    obtain ⟨r₀, hr₀, rfl⟩ := mem_finish.mp hr
    rw [endRow_id]
    exact h.fresh r₀ hr₀
  allowed := by
    intro r hr
    obtain ⟨r₀, hr₀, rfl⟩ := mem_finish.mp hr
    rw [endRow_columns]
    exact h.allowed r₀ hr₀
  inTime := by
    intro r hr time hended
    obtain ⟨r₀, hr₀, rfl⟩ := mem_finish.mp hr
    unfold endRow at hended ⊢
    split at hended
    next hid =>
      rw [if_pos hid]
      cases hended
      exact (hcan.row h hr₀ hid).2.2
    next hid =>
      rw [if_neg hid]
      exact h.inTime r₀ hr₀ time hended
  endings := by
    intro r hr
    obtain ⟨r₀, hr₀, rfl⟩ := mem_finish.mp hr
    simp only [State.finish]
    rw [endRow_id, List.count_append, h.endings r₀ hr₀, hnodup.count]
    unfold endRow
    by_cases hid : r₀.id ∈ ids
    · rw [if_pos hid, if_pos hid, (hcan.row h hr₀ hid).2.1]
      rfl
    · rw [if_neg hid, if_neg hid, Nat.add_zero]
  known := by
    have hrow : ∀ r ∈ s.rows, ∃ r' ∈ (s.finish ids now).rows, r'.id = r.id := fun r hr =>
      ⟨endRow ids now r, mem_finish.mpr ⟨r, hr, rfl⟩, endRow_id ids now r⟩
    intro id hid
    rcases List.mem_append.mp hid with hid | hid
    · obtain ⟨r, hr, rfl⟩ := h.known id hid
      exact hrow r hr
    · obtain ⟨r, hr, rfl, -⟩ := hcan.rows id hid
      exact hrow r hr
  held := by
    intro c hc ids' hended
    obtain ⟨hnodup', hrows⟩ := h.held c hc ids' hended
    refine ⟨hnodup', fun id hid => ?_⟩
    obtain ⟨r, hr, rfl, hrow⟩ := hrows id hid
    have hother : r.id ∉ ids := fun hmem => hcan.free r.id hmem c hc ⟨ids', hended, hid⟩
    exact ⟨r, mem_finish.mpr ⟨r, hr, if_neg hother⟩, rfl, hrow⟩
  apart := h.apart

theorem Kept.drop (h : Kept s) (i : Nat) : Kept (s.drop i) where
  ids := h.ids
  fresh := h.fresh
  allowed := h.allowed
  inTime := h.inTime
  endings := h.endings
  known := h.known
  held := fun c hc => h.held c (List.mem_of_mem_eraseIdx hc)
  apart := h.apart.sublist (List.eraseIdx_sublist _ _)

theorem Kept.insert {row : NewTemporaryAlertSuppression} (h : Kept s) (hrow : row.Allowed) :
    Kept (s.insert row) := by
  have hnew : ∀ r ∈ (s.insert row).rows, r ∈ s.rows ∨ r = ⟨row, s.nextId, none⟩ := by
    intro r hr
    rcases List.mem_append.mp hr with hr | hr
    · exact .inl hr
    · exact .inr (List.mem_singleton.mp hr)
  have hold : ∀ r ∈ s.rows, r ∈ (s.insert row).rows := fun r hr => List.mem_append_left _ hr
  constructor
  · show ((s.rows ++ _).map _).Nodup
    rw [List.map_append, List.map_singleton, List.nodup_append]
    refine ⟨h.ids, List.nodup_singleton _, ?_⟩
    intro a ha b hb
    obtain ⟨r, hr, rfl⟩ := List.mem_map.mp ha
    rw [List.mem_singleton.mp hb]
    exact (h.fresh r hr).ne
  · intro r hr
    show r.id < s.nextId + 1
    rcases hnew r hr with hr | rfl
    · exact (h.fresh r hr).trans (lt_add_one _)
    · exact lt_add_one _
  · intro r hr
    rcases hnew r hr with hr | rfl
    · exact h.allowed r hr
    · exact hrow
  · intro r hr time hended
    rcases hnew r hr with hr | rfl
    · exact h.inTime r hr time hended
    · cases hended
  · intro r hr
    rcases hnew r hr with hr | rfl
    · exact h.endings r hr
    · refine List.count_eq_zero.mpr (fun hmem => ?_)
      obtain ⟨r, hr, heq⟩ := h.known _ hmem
      exact absurd heq (h.fresh r hr).ne
  · intro id hid
    obtain ⟨r, hr, heq⟩ := h.known id hid
    exact ⟨r, hold r hr, heq⟩
  · intro c hc ids hended
    obtain ⟨hnodup, hrows⟩ := h.held c hc ids hended
    refine ⟨hnodup, fun id hid => ?_⟩
    obtain ⟨r, hr, hrow⟩ := hrows id hid
    exact ⟨r, hold r hr, hrow⟩
  · exact h.apart

/-- A transaction may end the rows that it holds. -/
theorem Kept.canEnd_of_held (h : Kept s) {i : Nat} {row : NewTemporaryAlertSuppression}
    {snapshot : List Int} (hi : s.creations[i]? = some ⟨row, snapshot, some ids⟩) :
    ids.Nodup ∧ CanEnd (s.drop i) row.userId ids row.createdAt := by
  obtain ⟨hnodup, hrows⟩ := h.held _ (List.mem_of_getElem? hi) ids rfl
  refine ⟨hnodup, hrows, ?_⟩
  intro id hid c hc hholds
  obtain ⟨j, hne, hj⟩ := List.mem_eraseIdx_iff_getElem?.mp hc
  obtain ⟨hilt, hi⟩ := List.getElem?_eq_some_iff.mp hi
  obtain ⟨hjlt, hj⟩ := List.getElem?_eq_some_iff.mp hj
  have hown : (s.creations[i]).holds id := by
    rw [hi]
    exact ⟨ids, rfl, hid⟩
  have hother : (s.creations[j]).holds id := by
    rw [hj]
    exact hholds
  have hapart := List.pairwise_iff_getElem.mp h.apart
  rcases Nat.lt_or_gt_of_ne hne with hlt | hlt
  · exact hapart j i hjlt hilt hlt id hother hown
  · exact hapart i j hilt hjlt hlt id hown hother

theorem pairwise_set {α : Type} {R : α → α → Prop} {l : List α} {c : α} (h : l.Pairwise R)
    (hc : ∀ x ∈ l, R c x ∧ R x c) (i : Nat) : (l.set i c).Pairwise R := by
  induction l generalizing i with
  | nil => exact List.Pairwise.nil
  | cons x rest ih =>
      obtain ⟨hx, hrest⟩ := List.pairwise_cons.mp h
      obtain ⟨hcx, hcrest⟩ := List.forall_mem_cons.mp hc
      cases i with
      | zero => exact List.pairwise_cons.mpr ⟨fun y hy => (hcrest y hy).1, hrest⟩
      | succ i =>
          refine List.pairwise_cons.mpr ⟨fun y hy => ?_, ih hrest hcrest i⟩
          rcases List.mem_or_eq_of_mem_set hy with hy | rfl
          · exact hx y hy
          · exact hcx.2

theorem Steps.kept (hstep : Steps s action next) (h : Kept s) : Kept next := by
  cases hstep with
  | tick _ => exact ⟨h.ids, h.fresh, h.allowed, h.inTime, h.endings, h.known, h.held, h.apart⟩
  | @start row _ =>
      have hnone : ∀ id, ¬ Creation.holds ⟨row, s.rows.map TemporaryAlertSuppression.id,
          if row.kind = .quiet then none else some []⟩ id := by
        rintro id ⟨ids, hended, hid⟩
        simp only at hended
        split at hended <;> cases hended
        cases hid
      refine ⟨h.ids, h.fresh, h.allowed, h.inTime, h.endings, h.known, ?_, ?_⟩
      · intro c hc ids hended
        rcases List.mem_append.mp hc with hc | hc
        · exact h.held c hc ids hended
        · obtain rfl := List.mem_singleton.mp hc
          simp only at hended
          split at hended <;> cases hended
          exact ⟨List.nodup_nil, fun id hid => by cases hid⟩
      · refine List.pairwise_append.mpr ⟨h.apart, List.pairwise_singleton _ _, ?_⟩
        intro c _ c' hc' id _ hholds
        obtain rfl := List.mem_singleton.mp hc'
        exact hnone id hholds
  | @endCurrent i row snapshot ids hi hcan hsub _ =>
      refine ⟨h.ids, h.fresh, h.allowed, h.inTime, h.endings, h.known, ?_, ?_⟩
      · intro c hc ids' hended
        rcases List.mem_or_eq_of_mem_set hc with hc | rfl
        · exact h.held c hc ids' hended
        · cases hended
          exact ⟨h.ids.sublist hsub, hcan.rows⟩
      · refine pairwise_set h.apart (fun c hc => ⟨?_, ?_⟩) i
        · rintro id ⟨_, ⟨⟩, hid⟩
          exact hcan.free id hid c hc
        · rintro id hholds ⟨_, ⟨⟩, hid⟩
          exact hcan.free id hid c hc hholds
  | commit hi hallowed =>
      obtain ⟨hnodup, hcan⟩ := h.canEnd_of_held hi
      exact ((h.drop _).finish hcan hnodup).insert hallowed
  | drop i => exact h.drop i
  | finish _ hcan hsub => exact h.finish hcan (h.ids.sublist hsub)

/-! ## What becomes of the rows -/

theorem endRow_becomes (h : r.endedAt = none) (ids : List Int) (now : Int) :
    r.Becomes (endRow ids now r) where
  id := endRow_id ids now r
  columns := endRow_columns ids now r
  final := by
    intro hended
    rw [h] at hended
    cases hended

theorem becomes_finish {userId : Int} (h : Kept s) (hcan : CanEnd s userId ids now)
    (hr : r ∈ s.rows) : ∃ r' ∈ (s.finish ids now).rows, r.Becomes r' ∧
      (r.userId ≠ userId → r' = r) := by
  refine ⟨_, mem_finish.mpr ⟨r, hr, rfl⟩, ?_⟩
  by_cases hid : r.id ∈ ids
  · obtain ⟨huser, hforce⟩ := hcan.row h hr hid
    exact ⟨endRow_becomes hforce.1 ids now, fun hne => absurd huser hne⟩
  · have hsame : endRow ids now r = r := if_neg hid
    rw [hsame]
    exact ⟨.refl r, fun _ => rfl⟩

/-- A step keeps every row, and changes the rows of its user only. -/
theorem Steps.becomes (hstep : Steps s action next) (h : Kept s) (hr : r ∈ s.rows) :
    ∃ r' ∈ next.rows, r.Becomes r' ∧ (action.user s ≠ some r.userId → r' = r) := by
  cases hstep with
  | tick _ => exact ⟨r, hr, .refl r, fun _ => rfl⟩
  | start _ => exact ⟨r, hr, .refl r, fun _ => rfl⟩
  | endCurrent _ _ _ _ => exact ⟨r, hr, .refl r, fun _ => rfl⟩
  | commit hi _ =>
      obtain ⟨r', hr', hbecomes, hother⟩ :=
        becomes_finish (h.drop _) (h.canEnd_of_held hi).2 hr
      refine ⟨r', List.mem_append_left _ hr', hbecomes, fun hne => hother (fun heq => hne ?_)⟩
      rw [Action.user, hi, Option.map_some, heq]
  | drop i => exact ⟨r, hr, .refl r, fun _ => rfl⟩
  | finish huser hcan _ =>
      obtain ⟨r', hr', hbecomes, hother⟩ := becomes_finish h hcan hr
      exact ⟨r', hr', hbecomes, fun hne => hother (fun heq => hne (by rw [huser, heq]))⟩

theorem step_kept (h : Kept s) (hstep : step s action = some next) : Kept next :=
  (step_spec hstep).kept h

theorem run_kept (hrun : Transition.run step State.init actions = some s) : Kept s :=
  Transition.run_invariant_all (fun _ _ _ h hstep => step_kept h hstep) kept_init hrun

/-- A run keeps every row, and changes it only for its user. -/
theorem run_becomes (h : Kept s) (hrun : Transition.run step s actions = some t)
    (hr : r ∈ s.rows) : ∃ r' ∈ t.rows, r.Becomes r' ∧
      (Transition.Meets step (fun s a => a.user s ≠ some r.userId) s actions → r' = r) := by
  induction actions generalizing s r with
  | nil =>
      obtain rfl := Option.some.inj hrun
      exact ⟨r, hr, .refl r, fun _ => rfl⟩
  | cons action rest ih =>
      obtain ⟨next, hstep, htail⟩ := Transition.run_cons_spec hrun
      obtain ⟨r', hr', hbecomes, hother⟩ := (step_spec hstep).becomes h hr
      obtain ⟨r'', hr'', hlater, hothers⟩ := ih (step_kept h hstep) htail hr'
      refine ⟨r'', hr'', hbecomes.trans hlater, fun hmeets => ?_⟩
      obtain rfl := hother hmeets.head
      exact hothers (hmeets.tail hstep)

/-- The life of every row, under any interleaving: the checks of the table hold, a row stays,
nothing of it changes but that it is ended, once, before it expires, and by its user alone. -/
theorem suppressions_lifecycle {before later : List Action}
    (hs : Transition.run step State.init before = some s)
    (ht : Transition.run step s later = some t) :
    (∀ r ∈ t.rows, r.Allowed ∧ ∀ time, r.endedAt = some time → time < r.expiresAt) ∧
    (∀ r ∈ s.rows, ∃ r' ∈ t.rows, r.Becomes r' ∧
      (Transition.Meets step (fun s a => a.user s ≠ some r.userId) s later → r' = r)) ∧
    (∀ id, t.endings.count id ≤ 1) ∧
    (∀ id, id ∈ t.endings ↔ ∃ r ∈ t.rows, r.id = id ∧ r.endedAt.isSome = true) := by
  have hkept : Kept t :=
    Transition.run_invariant_all (fun _ _ _ h hstep => step_kept h hstep) (run_kept hs) ht
  refine ⟨fun r hr => ⟨hkept.allowed r hr, hkept.inTime r hr⟩,
    fun r hr => run_becomes (run_kept hs) ht hr, ?_, ?_⟩
  · intro id
    by_cases hmem : id ∈ t.endings
    · obtain ⟨r, hr, rfl⟩ := hkept.known id hmem
      rw [hkept.endings r hr]
      split <;> omega
    · rw [List.count_eq_zero.mpr hmem]
      omega
  · intro id
    constructor
    · intro hmem
      obtain ⟨r, hr, rfl⟩ := hkept.known id hmem
      refine ⟨r, hr, rfl, ?_⟩
      by_contra hnot
      have hcount := hkept.endings r hr
      rw [if_neg hnot] at hcount
      exact List.count_eq_zero.mp hcount hmem
    · rintro ⟨r, hr, rfl, hended⟩
      have hcount := hkept.endings r hr
      rw [if_pos hended] at hcount
      exact List.count_pos_iff.mp (by omega)

/-! ## One quiet window at a time -/

/-- No quiet window is asked for while another of the user is being created. -/
def Serial (s : State) : Action → Prop
  | .start row => row.kind = .quiet →
      ∀ c ∈ s.creations, c.row.kind = .quiet → c.row.userId ≠ row.userId
  | _ => True

instance (s : State) : ∀ action, Decidable (Serial s action)
  | .start row =>
      inferInstanceAs (Decidable (row.kind = .quiet →
        ∀ c ∈ s.creations, c.row.kind = .quiet → c.row.userId ≠ row.userId))
  | .tick _ | .endCurrent _ | .commit _ | .rollback _ | .endQuiet _ _ _ _ | .endForUser _ _ _ =>
      isTrue trivial

/-- Not two quiet windows of one user. -/
def Apart (row row' : NewTemporaryAlertSuppression) : Prop :=
  row.kind = .quiet → row'.kind = .quiet → row.userId ≠ row'.userId

def Alone (creations : List Creation) : Prop :=
  creations.Pairwise (fun c c' => Apart c.row c'.row)

/-- What a quiet window that is being created must end, it sees, or has ended. -/
def Creation.Covers (c : Creation) (rows : List TemporaryAlertSuppression) : Prop :=
  c.row.kind = .quiet → ∀ r ∈ rows, r.QuietFor c.row.userId c.row.createdAt →
    match c.ended with
    | none => r.id ∈ c.snapshot
    | some ids => r.id ∈ ids

structure Single (s : State) : Prop where
  one : ∀ r ∈ s.rows, ∀ r' ∈ s.rows, ∀ userId, r.QuietFor userId s.clock →
    r'.QuietFor userId s.clock → r = r'
  alone : Alone s.creations
  read : ∀ c ∈ s.creations, c.row.createdAt ≤ s.clock
  covers : ∀ c ∈ s.creations, c.Covers s.rows

theorem single_init : Single State.init := by
  constructor <;> simp [State.init, Alone]

theorem TemporaryAlertSuppression.QuietFor.mono {userId later : Int}
    (h : r.QuietFor userId later) (hle : now ≤ later) : r.QuietFor userId now :=
  ⟨h.1, h.2.1, h.2.2.mono hle⟩

/-- A row that is still in force was not ended. -/
theorem quietFor_endRow {userId time : Int} (h : (endRow ids now r).QuietFor userId time) :
    endRow ids now r = r ∧ r.id ∉ ids := by
  unfold endRow at h ⊢
  split at h
  next => cases h.2.2.1
  next hid => exact ⟨if_neg hid, hid⟩

theorem Single.finish (h : Single s) (ids : List Int) (now : Int) :
    Single (s.finish ids now) where
  one := by
    intro r hr r' hr' userId hquiet hquiet'
    obtain ⟨r₀, hr₀, rfl⟩ := mem_finish.mp hr
    obtain ⟨r₁, hr₁, rfl⟩ := mem_finish.mp hr'
    have hsame := (quietFor_endRow hquiet).1
    have hsame' := (quietFor_endRow hquiet').1
    rw [hsame] at hquiet ⊢
    rw [hsame'] at hquiet' ⊢
    exact h.one r₀ hr₀ r₁ hr₁ userId hquiet hquiet'
  alone := h.alone
  read := h.read
  covers := by
    intro c hc hkind r hr hquiet
    obtain ⟨r₀, hr₀, rfl⟩ := mem_finish.mp hr
    have hsame := (quietFor_endRow hquiet).1
    rw [hsame] at hquiet ⊢
    exact h.covers c hc hkind r₀ hr₀ hquiet

theorem Single.drop (h : Single s) (i : Nat) : Single (s.drop i) where
  one := h.one
  alone := h.alone.sublist (List.eraseIdx_sublist _ _)
  read := fun c hc => h.read c (List.mem_of_mem_eraseIdx hc)
  covers := fun c hc => h.covers c (List.mem_of_mem_eraseIdx hc)

theorem Alone.ne {creations : List Creation} (h : Alone creations) {i j : Nat} {c c' : Creation}
    (hi : creations[i]? = some c) (hj : creations[j]? = some c') (hne : j ≠ i)
    (hkind : c.row.kind = .quiet) (hkind' : c'.row.kind = .quiet) :
    c.row.userId ≠ c'.row.userId := by
  obtain ⟨hilt, rfl⟩ := List.getElem?_eq_some_iff.mp hi
  obtain ⟨hjlt, rfl⟩ := List.getElem?_eq_some_iff.mp hj
  have hpairs := List.pairwise_iff_getElem.mp h
  rcases Nat.lt_or_gt_of_ne hne with hlt | hlt
  · exact (hpairs j i hjlt hilt hlt hkind' hkind).symm
  · exact hpairs i j hilt hjlt hlt hkind hkind'

/-- The user's window of a transaction that commits is the only one, and no other window of
the user is being created. -/
theorem Single.commit (h : Single s) {i : Nat} {row : NewTemporaryAlertSuppression}
    {snapshot : List Int} (hi : s.creations[i]? = some ⟨row, snapshot, some ids⟩) :
    Single (((s.drop i).finish ids row.createdAt).insert row) := by
  have hmem := List.mem_of_getElem? hi
  have hold := (h.drop i).finish ids row.createdAt
  have hnone : row.kind = .quiet → ∀ r ∈ ((s.drop i).finish ids row.createdAt).rows,
      ¬ r.QuietFor row.userId s.clock := by
    intro hkind r hr hquiet
    obtain ⟨r₀, hr₀, rfl⟩ := mem_finish.mp hr
    obtain ⟨hsame, hfree⟩ := quietFor_endRow hquiet
    rw [hsame] at hquiet
    exact hfree (h.covers _ hmem hkind r₀ hr₀ (hquiet.mono (h.read _ hmem)))
  have hrows : ∀ r ∈ (((s.drop i).finish ids row.createdAt).insert row).rows,
      r ∈ ((s.drop i).finish ids row.createdAt).rows ∨ r = ⟨row, s.nextId, none⟩ := by
    intro r hr
    rcases List.mem_append.mp hr with hr | hr
    · exact .inl hr
    · exact .inr (List.mem_singleton.mp hr)
  refine ⟨?_, hold.alone, hold.read, ?_⟩
  · intro r hr r' hr' userId hquiet hquiet'
    rcases hrows r hr with hr | rfl
    · rcases hrows r' hr' with hr' | rfl
      · exact hold.one r hr r' hr' userId hquiet hquiet'
      · obtain rfl : row.userId = userId := hquiet'.1
        exact absurd hquiet (hnone hquiet'.2.1 r hr)
    · rcases hrows r' hr' with hr' | rfl
      · obtain rfl : row.userId = userId := hquiet.1
        exact absurd hquiet' (hnone hquiet.2.1 r' hr')
      · rfl
  · intro c hc hkind r hr hquiet
    rcases hrows r hr with hr | rfl
    · exact hold.covers c hc hkind r hr hquiet
    · obtain ⟨j, hne, hj⟩ := List.mem_eraseIdx_iff_getElem?.mp hc
      exact absurd hquiet.1 (h.alone.ne hi hj hne hquiet.2.1 hkind)

theorem Steps.single (hstep : Steps s action next) (h : Single s) (hserial : Serial s action) :
    Single next := by
  cases hstep with
  | tick hle =>
      refine ⟨?_, h.alone, fun c hc => (h.read c hc).trans hle, h.covers⟩
      exact fun r hr r' hr' userId hquiet hquiet' =>
        h.one r hr r' hr' userId (hquiet.mono hle) (hquiet'.mono hle)
  | @start row hread =>
      refine ⟨h.one, ?_, ?_, ?_⟩
      · refine List.pairwise_append.mpr ⟨h.alone, List.pairwise_singleton _ _, ?_⟩
        intro c hc c' hc' hkind hkind'
        obtain rfl := List.mem_singleton.mp hc'
        exact hserial hkind' c hc hkind
      · intro c hc
        rcases List.mem_append.mp hc with hc | hc
        · exact h.read c hc
        · obtain rfl := List.mem_singleton.mp hc
          exact hread
      · intro c hc
        rcases List.mem_append.mp hc with hc | hc
        · exact h.covers c hc
        · obtain rfl := List.mem_singleton.mp hc
          intro hkind r hr _
          have hquiet : row.kind = .quiet := hkind
          simp only [hquiet, if_true]
          exact List.mem_map_of_mem hr
  | @endCurrent i row snapshot ids hi _ _ hall =>
      have hmem := List.mem_of_getElem? hi
      refine ⟨h.one, ?_, ?_, ?_⟩
      · have hrows : (s.creations.set i ⟨row, snapshot, some ids⟩).map Creation.row =
            s.creations.map Creation.row := by
          obtain ⟨hlt, heq⟩ := List.getElem?_eq_some_iff.mp hi
          refine List.ext_getElem (by simp) (fun j _ _ => ?_)
          rw [List.getElem_map, List.getElem_map, List.getElem_set]
          split
          next hij =>
            subst hij
            rw [heq]
          next => rfl
        have halone := List.pairwise_map.mpr h.alone
        rw [← hrows] at halone
        exact List.pairwise_map.mp halone
      · intro c hc
        rcases List.mem_or_eq_of_mem_set hc with hc | rfl
        · exact h.read c hc
        · exact h.read ⟨row, snapshot, none⟩ hmem
      · intro c hc
        rcases List.mem_or_eq_of_mem_set hc with hc | rfl
        · exact h.covers c hc
        · intro hkind r hr hquiet
          exact hall r hr hquiet (h.covers _ hmem hkind r hr hquiet)
  | commit hi _ => exact h.commit hi
  | drop i => exact h.drop i
  | finish _ _ _ => exact h.finish _ _

/-- Quiet windows that are not created at the same time are in force one at a time. -/
theorem suppressions_single (hmeets : Transition.Meets step Serial State.init actions)
    (hrun : Transition.run step State.init actions = some s) {userId : Int}
    (hnow : s.clock ≤ now) :
    ∀ r ∈ s.rows, ∀ r' ∈ s.rows, r.QuietFor userId now → r'.QuietFor userId now → r = r' := by
  have hsingle : Single s :=
    Transition.run_invariant (fun _ _ _ h hserial hstep => (step_spec hstep).single h hserial)
      single_init hmeets hrun
  intro r hr r' hr' hquiet hquiet'
  exact hsingle.one r hr r' hr' userId (hquiet.mono hnow) (hquiet'.mono hnow)

/-! ## Decisions -/

inductive SuppressionDecision
  | allow
  | suppressQuiet (scope : Scope)
  | suppressTopic (matchText : String)
deriving DecidableEq, Repr

def quietScopeMatches (scope category : Scope) : Bool := scope = .all ∨ scope = category

/-- The rows of one creation time are in no fixed order. -/
def activeForUser (s : State) (userId now : Int) : List TemporaryAlertSuppression :=
  orderBy (fun a b => b.createdAt ≤ a.createdAt)
    ((s.rows.filter (fun r => r.userId = userId)).filter (fun r => r.InForce now))

def quietCovers (category : Scope) (r : TemporaryAlertSuppression) : Bool :=
  r.kind = .quiet && quietScopeMatches r.scope category

def hasQuietScope (s : State) (userId now : Int) (category : Scope) : Bool :=
  (activeForUser s userId now).any (quietCovers category)

def genericScopeWords : List String :=
  ["alert", "alerts", "expected", "message", "messages", "notification", "notifications",
    "transaction", "transactions", "activity", "about", "from"]

def isGenericScopeWord (token : String) : Bool := genericScopeWords.contains token

section Decision

variable (alphabet : Alphabet)

def significantTokens (scope : String) : List String :=
  ((scope.toList.splitOnP (fun c => !alphabet.isAlphanumeric c)).map
    (fun token => alphabet.lower (String.ofList token))).filter
      (fun token => 3 ≤ byteLength token.toList && !isGenericScopeWord token)

def topicMatches (scope searchableText : String) : Bool :=
  !(significantTokens alphabet scope).isEmpty &&
    (significantTokens alphabet scope).all
      (fun token => containsText (alphabet.lower searchableText) token)

def topicDecision (searchableText : String) (r : TemporaryAlertSuppression) :
    Option SuppressionDecision :=
  r.matchText.bind (fun scope =>
    if topicMatches alphabet scope searchableText then some (.suppressTopic scope) else none)

def decideSuppression (active : List TemporaryAlertSuppression) (category : Scope)
    (searchableText : String) (alwaysShow : Bool) : SuppressionDecision :=
  match active.find? (quietCovers category) with
  | some r => .suppressQuiet r.scope
  | none =>
      if alwaysShow ∨ category = .digest then .allow
      else
        ((active.filter (fun r => r.kind = .topic)).findSome?
          (topicDecision alphabet searchableText)).getD .allow

def decision (s : State) (userId now : Int) (category : Scope) (searchableText : String)
    (alwaysShow : Bool) : SuppressionDecision :=
  decideSuppression alphabet (activeForUser s userId now) category searchableText alwaysShow

/-! ## What a decision rests on -/

/-- A quiet window covers an alert. -/
def TemporaryAlertSuppression.Silences (category : Scope) (r : TemporaryAlertSuppression) : Prop :=
  r.kind = .quiet ∧ (r.scope = .all ∨ r.scope = category)

/-- A topic window covers an alert: never a digest, and never what is always shown. -/
def TemporaryAlertSuppression.Ignores (category : Scope) (searchableText : String)
    (alwaysShow : Bool) (r : TemporaryAlertSuppression) : Prop :=
  alwaysShow = false ∧ category ≠ .digest ∧ r.kind = .topic ∧
    ∃ scope, r.matchText = some scope ∧ topicMatches alphabet scope searchableText = true

variable {alphabet} {active : List TemporaryAlertSuppression} {category : Scope}
  {searchableText : String} {alwaysShow : Bool} {userId : Int}

theorem mem_activeForUser : r ∈ activeForUser s userId now ↔
    r ∈ s.rows ∧ r.userId = userId ∧ r.InForce now := by
  unfold activeForUser
  rw [mem_orderBy, List.mem_filter, List.mem_filter, decide_eq_true_eq, decide_eq_true_eq,
    and_assoc]

theorem quietCovers_iff : quietCovers category r = true ↔ r.Silences category := by
  simp [quietCovers, quietScopeMatches, TemporaryAlertSuppression.Silences]

theorem topicDecision_eq_some {decided : SuppressionDecision} :
    topicDecision alphabet searchableText r = some decided ↔
      ∃ scope, r.matchText = some scope ∧ topicMatches alphabet scope searchableText = true ∧
        decided = .suppressTopic scope := by
  unfold topicDecision
  rw [Option.bind_eq_some_iff]
  refine exists_congr (fun scope => and_congr_right (fun _ => ?_))
  split
  next h => simp [h, eq_comm]
  next h => simp [h]

/-- Quiet windows decide first; topic windows decide only where they may. -/
theorem decideSuppression_spec (alphabet : Alphabet) (active : List TemporaryAlertSuppression)
    (category : Scope) (searchableText : String) (alwaysShow : Bool) :
    match decideSuppression alphabet active category searchableText alwaysShow with
    | .allow => ∀ r ∈ active, ¬ r.Silences category ∧
        ¬ r.Ignores alphabet category searchableText alwaysShow
    | .suppressQuiet scope => ∃ r ∈ active, r.Silences category ∧ r.scope = scope
    | .suppressTopic scope => (∀ r ∈ active, ¬ r.Silences category) ∧
        ∃ r ∈ active, r.Ignores alphabet category searchableText alwaysShow ∧
          r.matchText = some scope := by
  unfold decideSuppression
  cases hquiet : active.find? (quietCovers category) with
  | some r =>
      exact ⟨r, List.mem_of_find?_eq_some hquiet, quietCovers_iff.mp (List.find?_some hquiet), rfl⟩
  | none =>
      have hloud : ∀ r ∈ active, ¬ r.Silences category := fun r hr hsilences =>
        List.find?_eq_none.mp hquiet r hr (quietCovers_iff.mpr hsilences)
      simp only
      split_ifs with hshown
      · refine fun r hr => ⟨hloud r hr, ?_⟩
        rintro ⟨hnot, hdigest, -⟩
        rcases hshown with hshown | hshown
        · rw [hnot] at hshown
          cases hshown
        · exact hdigest hshown
      · rw [not_or, Bool.not_eq_true] at hshown
        cases htopic : (active.filter (fun r => r.kind = .topic)).findSome?
            (topicDecision alphabet searchableText) with
        | none =>
            refine fun r hr => ⟨hloud r hr, ?_⟩
            rintro ⟨-, -, hkind, scope, hmatch, hcovers⟩
            have hnone := List.findSome?_eq_none_iff.mp htopic r
              (List.mem_filter.mpr ⟨hr, decide_eq_true hkind⟩)
            rw [topicDecision_eq_some.mpr ⟨scope, hmatch, hcovers, rfl⟩] at hnone
            cases hnone
        | some decided =>
            obtain ⟨r, hr, hdecided⟩ := List.exists_of_findSome?_eq_some htopic
            obtain ⟨scope, hmatch, hcovers, rfl⟩ := topicDecision_eq_some.mp hdecided
            obtain ⟨hmem, hkind⟩ := List.mem_filter.mp hr
            exact ⟨hloud, r, hmem, ⟨hshown.1, hshown.2, of_decide_eq_true hkind, scope, hmatch,
              hcovers⟩, hmatch⟩

end Decision

/-! ## Over a run -/

/-- A window that is over never holds an alert back again. -/
theorem run_over (h : Kept s) (hrun : Transition.run step s actions = some t) {later : Int}
    (hle : now ≤ later) (hr : r ∈ s.rows) (hover : ¬ r.InForce now) (hr' : r' ∈ t.rows)
    (hid : r'.id = r.id) : ¬ r'.InForce later := by
  obtain ⟨r'', hr'', hbecomes, -⟩ := run_becomes h hrun hr
  have hkept : Kept t :=
    Transition.run_invariant_all (fun _ _ _ h hstep => step_kept h hstep) h hrun
  obtain rfl := List.inj_on_of_nodup_map hkept.ids hr' hr'' (hid.trans hbecomes.id.symm)
  intro hforce
  have hopen : r.endedAt = none := by
    cases hended : r.endedAt with
    | none => rfl
    | some time =>
        have hsame := hbecomes.final (by rw [hended]; rfl)
        have hnone := hforce.1
        rw [hsame, hended] at hnone
        cases hnone
  refine hover ⟨hopen, ?_⟩
  rw [← hbecomes.columns]
  exact lt_of_le_of_lt hle hforce.2

/-- What holds an alert back, in any state that is reached: a window of the user that is in
force and covers it, quiet before topic, whatever the text is. A window that is over does so
never again. -/
theorem suppressions_decision (alphabet : Alphabet) {before later : List Action} {userId now' : Int}
    (category : Scope) (searchableText : String) (alwaysShow : Bool)
    (hs : Transition.run step State.init before = some s)
    (ht : Transition.run step s later = some t) (hnow : now ≤ now') :
    (decision alphabet t userId now' category searchableText alwaysShow = .allow ↔
      ∀ r ∈ t.rows, r.userId = userId → r.InForce now' → ¬ r.Silences category ∧
        ¬ r.Ignores alphabet category searchableText alwaysShow) ∧
    (hasQuietScope t userId now' category = true ↔
      ∃ scope, decision alphabet t userId now' category searchableText alwaysShow =
        .suppressQuiet scope) ∧
    (∀ r ∈ s.rows, ¬ r.InForce now → ∀ r' ∈ t.rows, r'.id = r.id → ¬ r'.InForce now') := by
  have hspec := decideSuppression_spec alphabet (activeForUser t userId now') category
    searchableText alwaysShow
  rw [← decision] at hspec
  refine ⟨?_, ?_, fun r hr hover r' hr' => run_over (run_kept hs) ht hnow hr hover hr'⟩
  · constructor
    · intro hallow r hr huser hforce
      rw [hallow] at hspec
      exact hspec r (mem_activeForUser.mpr ⟨hr, huser, hforce⟩)
    · intro hnone
      have hnot : ∀ r ∈ activeForUser t userId now', ¬ r.Silences category ∧
          ¬ r.Ignores alphabet category searchableText alwaysShow := by
        intro r hr
        obtain ⟨hmem, huser, hforce⟩ := mem_activeForUser.mp hr
        exact hnone r hmem huser hforce
      cases hdecision : decision alphabet t userId now' category searchableText alwaysShow with
      | allow => rfl
      | suppressQuiet scope =>
          rw [hdecision] at hspec
          obtain ⟨r, hr, hsilences, -⟩ := hspec
          exact absurd hsilences (hnot r hr).1
      | suppressTopic scope =>
          rw [hdecision] at hspec
          obtain ⟨-, r, hr, hignores, -⟩ := hspec
          exact absurd hignores (hnot r hr).2
  · unfold hasQuietScope
    rw [List.any_eq_true]
    constructor
    · rintro ⟨r, hactive, hcovers⟩
      have hsilences := quietCovers_iff.mp hcovers
      cases hdecision : decision alphabet t userId now' category searchableText alwaysShow with
      | allow =>
          rw [hdecision] at hspec
          exact absurd hsilences (hspec r hactive).1
      | suppressQuiet scope => exact ⟨scope, rfl⟩
      | suppressTopic scope =>
          rw [hdecision] at hspec
          exact absurd hsilences (hspec.1 r hactive)
    · rintro ⟨scope, hdecision⟩
      rw [hdecision] at hspec
      obtain ⟨r, hr, hsilences, -⟩ := hspec
      exact ⟨r, hr, quietCovers_iff.mpr hsilences⟩

/-! ## Runs -/

def quietWindow (userId createdAt expiresAt : Int) (scope : Scope) :
    NewTemporaryAlertSuppression :=
  ⟨userId, .quiet, scope, none, "UTC", createdAt, expiresAt⟩

/-- A quiet window, and another that replaces it while a topic of another user is ended. -/
def replacedWindow : List Action :=
  [.tick 100,
    .start (quietWindow 1 100 900 .all), .endCurrent 0, .commit 0,
    .start ⟨2, .topic, .all, some "Coinbase transfers", "UTC", 100, 500⟩, .commit 0,
    .tick 200, .start (quietWindow 1 200 1200 .critical), .endCurrent 0,
    .endForUser 2 2 200, .commit 0]

def replacedState : State := Transition.final step State.init replacedWindow

/-- The user is done with quiet. -/
def quietEnded : List Action := [.tick 300, .endQuiet 1 none 300 [1, 3]]

theorem replacedWindow_steps :
    (Transition.run step State.init replacedWindow).isSome = true ∧
      (Transition.run step replacedState quietEnded).isSome = true ∧
      Transition.Meets step Serial State.init replacedWindow ∧ replacedState.clock ≤ 250 := by
  decide +kernel

theorem replacedWindow_run : Transition.run step State.init replacedWindow = some replacedState :=
  Transition.run_eq_final replacedWindow_steps.1

theorem quietEnded_run : Transition.run step replacedState quietEnded =
    some (Transition.final step replacedState quietEnded) :=
  Transition.run_eq_final replacedWindow_steps.2.1

theorem suppressions_lifecycle_replaced :
    let t := Transition.final step replacedState quietEnded
    (∀ r ∈ t.rows, r.Allowed ∧ ∀ time, r.endedAt = some time → time < r.expiresAt) ∧
    (∀ r ∈ replacedState.rows, ∃ r' ∈ t.rows, r.Becomes r' ∧
      (Transition.Meets step (fun s a => a.user s ≠ some r.userId) replacedState quietEnded →
        r' = r)) ∧
    (∀ id, t.endings.count id ≤ 1) ∧
    (∀ id, id ∈ t.endings ↔ ∃ r ∈ t.rows, r.id = id ∧ r.endedAt.isSome = true) :=
  suppressions_lifecycle replacedWindow_run quietEnded_run

theorem suppressions_single_replaced :
    (∃ r ∈ replacedState.rows, r.QuietFor 1 250) ∧
      ∀ r ∈ replacedState.rows, ∀ r' ∈ replacedState.rows, r.QuietFor 1 250 → r'.QuietFor 1 250 →
        r = r' :=
  ⟨by decide +kernel, suppressions_single replacedWindow_steps.2.2.1 replacedWindow_run
    replacedWindow_steps.2.2.2⟩

/-- The letters and digits of ASCII. -/
def plainAlphabet : Alphabet := ⟨toAsciiLowercase, Char.isAlphanum⟩

theorem suppressions_decision_replaced :
    let t := Transition.final step replacedState quietEnded
    (decision plainAlphabet t 1 310 .critical "Coinbase: a transfer" false = .allow ↔
      ∀ r ∈ t.rows, r.userId = 1 → r.InForce 310 → ¬ r.Silences .critical ∧
        ¬ r.Ignores plainAlphabet .critical "Coinbase: a transfer" false) ∧
    (hasQuietScope t 1 310 .critical = true ↔
      ∃ scope, decision plainAlphabet t 1 310 .critical "Coinbase: a transfer" false =
        .suppressQuiet scope) ∧
    (∀ r ∈ replacedState.rows, ¬ r.InForce 250 → ∀ r' ∈ t.rows, r'.id = r.id → ¬ r'.InForce 310) :=
  suppressions_decision plainAlphabet .critical "Coinbase: a transfer" false replacedWindow_run
    quietEnded_run (by decide)

end Lightfriend.Proactive.Suppression
