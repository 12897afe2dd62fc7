import Lightfriend.Email.Intake

/-! # Emails below the high-water mark

A fetch starts above the greatest UID that is marked as processed. An email
whose insertion failed is fetched again as long as no greater UID is marked.
-/

namespace Lightfriend.Email

/-- The emails above all that were marked at the start. -/
def Above (base : List Nat) (uid : Nat) : Prop := ∀ v ∈ base, v < uid

instance (base : List Nat) (uid : Nat) : Decidable (Above base uid) :=
  inferInstanceAs (Decidable (∀ v ∈ base, v < uid))

/-- At every fetch of the waiting task the emails that were owed were in its range. -/
def Refetched (base : List Nat) (s : State) : Prop :=
  ∀ w ∈ s.wakes, ∀ uid ∈ w.owed, Above base uid → w.range.covers w.highest uid

/-- No greater UID is marked when an insertion fails, no smaller one is owed when an email is
marked, and where no maximum is known, what is owed is among the last ten. -/
def InOrder (base : List Nat) (s : State) : Action → Prop
  | .advance caller fate =>
      (∀ uid ∈ failing s caller fate, Above base uid → uid ∉ s.inserted →
        ∀ v ∈ s.processedUids, v < uid) ∧
      ∀ v ∈ marking s caller fate, ∀ uid ∈ s.owed, Above base uid → v < uid
  | .wake answered =>
      (if answered then s.maxProcessedUid else none) = none →
        ∀ uid ∈ s.owed, Above base uid → (s.uidRange none).covers s.highestUid uid
  | _ => True

instance (base : List Nat) (s : State) (a : Action) : Decidable (InOrder base s a) := by
  cases a <;> unfold InOrder <;> infer_instance

/-! ## The invariant -/

structure Inv (base : List Nat) (s : State) : Prop where
  /-- What was marked since the start was inserted. -/
  marked : ∀ v ∈ s.processedUids, v ∈ base ∨ v ∈ s.inserted
  marking : ∀ c mail queue, s.tasks c = .working .markProcessed mail queue → mail.uid ∈ s.inserted
  below : ∀ uid ∈ s.owed, Above base uid → ∀ v ∈ s.processedUids, v < uid
  refetched : Refetched base s

variable {base : List Nat} {s t : State}

theorem mem_owed {uid : Nat} : uid ∈ s.owed ↔ uid ∈ s.failed ∧ uid ∉ s.inserted := by
  simp [State.owed]

theorem mem_processedUids {v : Nat} :
    v ∈ s.processedUids ↔ ∃ r ∈ s.processed, r.connectionId = some s.connectionId ∧ r.uid = v := by
  simp [State.processedUids, and_assoc]

theorem processedUids_of_eq (hprocessed : t.processed = s.processed)
    (hconn : t.connectionId = s.connectionId) : t.processedUids = s.processedUids := by
  unfold State.processedUids
  rw [hprocessed, hconn]

/-- A step that marks nothing new and fails nothing new, of the connection. -/
theorem Inv.shrink (h : Inv base s) (hprocessed : ∀ v ∈ t.processedUids, v ∈ s.processedUids)
    (hfailed : t.failed = s.failed) (hinserted : t.inserted = s.inserted)
    (htasks : ∀ c mail queue, t.tasks c = .working .markProcessed mail queue →
      s.tasks c = .working .markProcessed mail queue)
    (hwakes : Refetched base t) : Inv base t where
  marked := fun v hv => by
    rw [hinserted]
    exact h.marked v (hprocessed v hv)
  marking := fun c mail queue ht => by
    rw [hinserted]
    exact h.marking c mail queue (htasks c mail queue ht)
  below := fun uid huid habove v hv => by
    have hold : uid ∈ s.owed := by
      rw [mem_owed, hfailed, hinserted, ← mem_owed] at huid
      exact huid
    exact h.below uid hold habove v (hprocessed v hv)
  refetched := hwakes

theorem inv_advance {caller : Caller} {fate : StatementFate} (h : Inv base s)
    (hok : InOrder base s (.advance caller fate)) (hstep : s.advance caller fate = some t) :
    Inv base t := by
  obtain ⟨hprogress, hbeside⟩ := advance_progress hstep
  obtain ⟨hfailing, hmarking⟩ := hok
  have hwakes : Refetched base t := by
    intro w hw
    rw [hbeside.wakes] at hw
    exact h.refetched w hw
  have htasks : (∀ uid ∈ s.inserted, uid ∈ t.inserted) → ∀ c mail queue,
      t.tasks c = .working .markProcessed mail queue → mail.uid ∈ t.inserted := by
    intro hmono c mail queue ht
    rcases hbeside.marks c mail queue ht with hold | hnew
    · exact hmono _ (h.marking c mail queue hold)
    · exact hnew
  cases hprogress with
  | same hprocessed hfailed hinserted =>
      have hsame := processedUids_of_eq hprocessed hbeside.connectionId
      refine ⟨fun v hv => ?_, htasks (by rw [hinserted]; exact fun _ hm => hm),
        fun uid huid habove v hv => ?_, hwakes⟩
      · rw [hsame] at hv
        rw [hinserted]
        exact h.marked v hv
      · rw [hsame] at hv
        rw [mem_owed, hfailed, hinserted, ← mem_owed] at huid
        exact h.below uid huid habove v hv
  | failed uid hcause hprocessed hfailed hinserted =>
      have hsame := processedUids_of_eq hprocessed hbeside.connectionId
      refine ⟨fun v hv => ?_, htasks (by rw [hinserted]; exact fun _ hm => hm),
        fun uid' huid habove v hv => ?_, hwakes⟩
      · rw [hsame] at hv
        rw [hinserted]
        exact h.marked v hv
      · rw [hsame] at hv
        rw [mem_owed, hfailed, hinserted] at huid
        obtain ⟨hmem, hnot⟩ := huid
        rcases List.mem_cons.mp hmem with rfl | hold
        · exact hfailing uid' hcause habove hnot v hv
        · have howed : uid' ∈ s.owed := by
            rw [mem_owed]
            exact ⟨hold, hnot⟩
          exact h.below uid' howed habove v hv
  | inserted uid hprocessed hfailed hinserted =>
      have hsame := processedUids_of_eq hprocessed hbeside.connectionId
      refine ⟨fun v hv => ?_,
        htasks (by rw [hinserted]; exact fun _ hm => List.mem_cons_of_mem _ hm),
        fun uid' huid habove v hv => ?_, hwakes⟩
      · rw [hsame] at hv
        rw [hinserted]
        exact (h.marked v hv).imp_right (List.mem_cons_of_mem _)
      · rw [hsame] at hv
        rw [mem_owed, hfailed, hinserted] at huid
        have howed : uid' ∈ s.owed := by
          rw [mem_owed]
          exact ⟨huid.1, fun hm => huid.2 (List.mem_cons_of_mem _ hm)⟩
        exact h.below uid' howed habove v hv
  | marked mail queue htask hcause hprocessed hfailed hinserted =>
      have hmem : ∀ v ∈ t.processedUids, v ∈ s.processedUids ∨ v = mail.uid := by
        intro v hv
        rw [mem_processedUids] at hv
        obtain ⟨r, hr, hconn, rfl⟩ := hv
        rw [hprocessed] at hr
        rw [hbeside.connectionId] at hconn
        rcases List.mem_append.mp hr with hr | hr
        · refine .inl ?_
          rw [mem_processedUids]
          exact ⟨r, hr, hconn, rfl⟩
        · rw [List.mem_singleton.mp hr]
          exact .inr rfl
      refine ⟨fun v hv => ?_, htasks (by rw [hinserted]; exact fun _ hm => hm),
        fun uid huid habove v hv => ?_, hwakes⟩
      · rw [hinserted]
        rcases hmem v hv with hold | rfl
        · exact h.marked v hold
        · exact .inr (h.marking caller mail queue htask)
      · rw [mem_owed, hfailed, hinserted, ← mem_owed] at huid
        rcases hmem v hv with hold | rfl
        · exact h.below uid huid habove v hold
        · exact hmarking mail.uid hcause uid huid habove

theorem le_highestUid {uid : Nat} (h : uid ∈ s.mailbox.map Mail.uid) : uid ≤ s.highestUid := by
  unfold State.highestUid
  generalize s.mailbox.map Mail.uid = uids at h
  induction uids with
  | nil => cases h
  | cons v rest ih =>
      rcases List.mem_cons.mp h with rfl | h
      · exact le_max_left _ _
      · exact le_trans (ih h) (le_max_right _ _)

theorem max_mem_processedUids {n : Nat} (h : s.maxProcessedUid = some n) :
    n ∈ s.processedUids := by
  unfold State.maxProcessedUid at h
  split at h
  · cases h
  · exact List.max?_mem h

theorem refetched_wake {answered : Bool} (h : Inv base s)
    (hok : InOrder base s (.wake answered)) : Refetched base (s.wake answered) := by
  intro w hw uid huid habove
  rcases List.mem_cons.mp hw with rfl | hw
  · obtain ⟨howed, hin⟩ := List.mem_filter.mp huid
    have hmail : uid ∈ s.mailbox.map Mail.uid := of_decide_eq_true hin
    show (s.uidRange (if answered then s.maxProcessedUid else none)).covers s.highestUid uid
    cases hmax : (if answered then s.maxProcessedUid else none) with
    | none => exact hok hmax uid howed habove
    | some n =>
        have hn : n ∈ s.processedUids := by
          cases answered with
          | false => cases hmax
          | true => exact max_mem_processedUids hmax
        have hlt := h.below uid howed habove n hn
        have hle := le_highestUid hmail
        simp only [State.uidRange, UidRange.covers]
        omega
  · exact h.refetched w hw uid huid habove

theorem inv_step {a : Action} (h : Inv base s) (hok : InOrder base s a)
    (hstep : step s a = some t) : Inv base t := by
  rcases step_cases hstep with ⟨caller, fate, rfl, hadvance⟩ | ⟨hout, hwakes⟩
  · exact inv_advance h hok hadvance
  · have hprocessed : ∀ v ∈ t.processedUids, v ∈ s.processedUids := by
      intro v hv
      rw [mem_processedUids] at hv ⊢
      obtain ⟨r, hr, hconn, rfl⟩ := hv
      rw [hout.connectionId] at hconn
      exact ⟨r, hout.processed r hr hconn, hconn, rfl⟩
    have hrefetched : Refetched base t := by
      rcases hwakes with ⟨answered, rfl, rfl⟩ | hwakes
      · exact refetched_wake h hok
      · intro w hw
        rw [hwakes] at hw
        exact h.refetched w hw
    exact h.shrink hprocessed hout.failed hout.inserted
      (fun c mail queue ht => hout.tasks c .markProcessed mail queue ht) hrefetched

/-- An email above the first high-water mark whose insertion failed is in the range of every later
fetch until it is inserted, in every run that keeps the marks below what is owed. -/
theorem emails_refetched {connectionId : Int} {mailbox : List Mail} {uidNext : Nat}
    {processed : List ProcessedEmail} {rows : List EmailRow} {legacy : List Nat} {s : State}
    {actions : List Action}
    (hmeets : Transition.Meets step
      (InOrder (init connectionId mailbox uidNext processed rows legacy).processedUids)
      (init connectionId mailbox uidNext processed rows legacy) actions)
    (hrun : Transition.run step (init connectionId mailbox uidNext processed rows legacy) actions =
      some s) :
    Refetched (init connectionId mailbox uidNext processed rows legacy).processedUids s := by
  have hinit : Inv (init connectionId mailbox uidNext processed rows legacy).processedUids
      (init connectionId mailbox uidNext processed rows legacy) :=
    ⟨fun _ hv => .inl hv, (fun _ _ _ ht => by cases ht), (fun _ hu => by cases hu),
      (fun _ hw => by cases hw)⟩
  exact (Transition.run_invariant (fun _ _ _ h hok hs => inv_step h hok hs) hinit hmeets
    hrun).refetched

/-! ## Two new emails -/

def mailOf (uid : Nat) : Mail := ⟨uid, false, true, uid, "ann@mail.local", "hello"⟩

/-- The statements that take an email through, the first of them after `next`. -/
def takeIn (count : Nat) : List Action := List.replicate count (.advance .idle .done)

/-- Mail 4 is processed; 5 fails and is inserted by the next fetch. -/
def failingLast : List Action :=
  [.arrive (mailOf 5), .wake true] ++ takeIn 2 ++ [.advance .idle .refused, .advance .idle .done,
    .wake true] ++ takeIn 10

/-- Mail 5 fails, and mail 6 of the same fetch is inserted and marked. -/
def failingFirst : List Action :=
  [.arrive (mailOf 5), .arrive (mailOf 6), .wake true] ++ takeIn 2 ++ [.advance .idle .refused] ++
    takeIn 10 ++ [.wake true]

def inboxAtFour : State :=
  init 1 [mailOf 4] 5 [⟨4, some 1, 0⟩] [⟨4, "ann@mail.local", "hello", 0⟩] []

theorem failingLast_refetched :
    Refetched inboxAtFour.processedUids (Transition.final step inboxAtFour failingLast) :=
  @emails_refetched 1 [mailOf 4] 5 [⟨4, some 1, 0⟩] [⟨4, "ann@mail.local", "hello", 0⟩] []
    (Transition.final step inboxAtFour failingLast) failingLast (by decide +kernel)
    (Transition.run_eq_final (by decide +kernel))

/-- The second fetch starts above mail 6 and leaves mail 5 out. -/
theorem failingFirst_skipped :
    ¬ Refetched inboxAtFour.processedUids (Transition.final step inboxAtFour failingFirst) := by
  intro h
  have hwake : Wake.mk (.startingAt 7) 6 [5] ∈
      (Transition.final step inboxAtFour failingFirst).wakes := by decide +kernel
  have hcovers := h _ hwake 5 (by decide) (by decide +kernel)
  exact absurd hcovers (by decide)

end Lightfriend.Email
