import Lightfriend.Bridge.CleanupRun
import Lightfriend.Bridge.CleanupTrace
import Lightfriend.Core.Transition

/-! # The proof of an orphaned login

A bridge whose row is gone may still be logged in. Before the rooms of such an
orphan are deleted its login is probed over several cycles, and two columns of the
job keep what was seen. A cycle may find the job at any time, due or not.
-/

namespace Lightfriend.Bridge

open Procedure

/-! ## Runs of cycles -/

/-- What an update of the job leaves in the columns a later cycle reads. -/
def BridgeCleanupJob.write (job : BridgeCleanupJob) : Effect → BridgeCleanupJob
  | .updateJob _ _ attemptCount _ _ _ => { job with attemptCount }
  | .recordLoginProof _ proofStatus firstAbsentAt _ _ =>
      if job.triggerKind = orphanAudit then
        { job with
          portalCleanupStatus := proofStatus
          portalCleanupConfirmedAt := firstAbsentAt }
      else job
  | _ => job

/-- One cycle of a worker over the job. Each cycle may run under a new configuration. -/
structure CleanupCycle where
  config : Config
  codec : RoomCodec
  answers : JobAnswers
  progress : Progress
  /-- Does the database carry out the statement? -/
  stored : Effect → Bool
  /-- How much of the cycle happened before the worker was stopped. -/
  cut : Nat

/-- Only the write of the second observation is checked. -/
def CleanupCycle.lands (c : CleanupCycle) : Effect → Bool
  | .recordLoginProof jobId proofStatus firstAbsentAt notBefore detail =>
      c.stored (.recordLoginProof jobId proofStatus firstAbsentAt notBefore detail) ||
        (proofStatus == orphanLoginAbsentVerified &&
          match c.answers.proofStored with
          | .ok () => true
          | .error _ => false)
  | e => c.stored e

def CleanupCycle.happenings (c : CleanupCycle) (job : BridgeCleanupJob) : List Happening :=
  (jobLog c.config c.codec job c.answers c.progress).take c.cut

/-- The row of an orphan's job, and what has happened since it was enqueued. -/
structure OrphanJob where
  job : BridgeCleanupJob
  log : List Happening

namespace OrphanJob

/-- `enqueue_orphan_bridge_cleanup_audits`. -/
def enqueued (id userId : Int) (bridgeType : String) : OrphanJob where
  job :=
    { id, userId, bridgeType
      triggerKind := orphanAudit
      expectedBridgeId := none
      expectedBridgeCreatedAt := none
      attemptCount := 0
      portalCleanupStatus := "legacy_unverified"
      portalCleanupConfirmedAt := none }
  log := []

def happen (lands : Effect → Bool) (s : OrphanJob) (h : Happening) : OrphanJob where
  job := match h with
    | .issued e => if lands e then s.job.write e else s.job
    | _ => s.job
  log := s.log ++ [h]

/-- `recheck` is the configured interval, which is at least a minute. -/
def step (recheck : Int) (s : OrphanJob) (c : CleanupCycle) : Option OrphanJob :=
  if c.config.orphanProofRecheckSecs = recheck ∧ 60 ≤ recheck then
    some ((c.happenings s.job).foldl (happen c.lands) (s.happen c.lands .cycle))
  else none

end OrphanJob

/-! ## When a room may be deleted -/

/-- A probe that found a login or failed. -/
def Happening.Contrary : Happening → Prop
  | .probed _ count => reportsAbsence count = false
  | _ => False

/-- Nothing but absence within the same cycle. -/
def Happening.Quiet : Happening → Prop
  | .cycle => False
  | .probed _ count => reportsAbsence count = true
  | .issued _ => True

/-- Two probes reported absence at least `recheck` apart, and none in between said otherwise. -/
def Sustained (recheck : Int) (log : List Happening) : Prop :=
  ∃ first t₁ count₁ between t₂ count₂ later,
    log = first ++ .probed t₁ count₁ :: (between ++ .probed t₂ count₂ :: later) ∧
      reportsAbsence count₁ = true ∧ reportsAbsence count₂ = true ∧ recheck ≤ t₂ - t₁ ∧
        ∀ h ∈ between, ¬ h.Contrary

/-- The absence is sustained, one more probe of this cycle found no login before its first
deletion, and no probe of the cycle has said otherwise since. -/
def Cleared (recheck : Int) (log : List Happening) : Prop :=
  ∃ old now t since, log = old ++ .cycle :: (now ++ .probed t (.ok 0) :: since) ∧
    Sustained recheck (old ++ .cycle :: now) ∧
      (∀ h ∈ now, h.Quiet ∧ ∀ e, h = .issued e → ¬ e.Deletes) ∧ ∀ h ∈ since, h.Quiet

def DeletesCleared (recheck : Int) (log : List Happening) : Prop :=
  ∀ before roomId answer after,
    log = before ++ .issued (.deleteRoom roomId answer) :: after → Cleared recheck before

/-- The job has a first observation from `t` on that nothing has contradicted. -/
def Observed (log : List Happening) (t : Int) : Prop :=
  ∃ first count later, log = first ++ .probed t count :: later ∧ reportsAbsence count = true ∧
    ∀ h ∈ later, ¬ h.Contrary

/-- Is the next thing that happens a write the database carries out? -/
def nextLands (lands : Effect → Bool) : List Happening → Bool
  | .issued e :: _ => lands e
  | _ => false

/-- A probe that found a login or failed is followed by its write, and the write lands. -/
def resetsStored (lands : Effect → Bool) : List Happening → Bool
  | [] => true
  | .probed _ count :: rest =>
      (reportsAbsence count || nextLands lands rest) && resetsStored lands rest
  | _ :: rest => resetsStored lands rest

section Logs

variable {recheck t : Int} {log : List Happening} {h : Happening}

theorem Happening.Quiet.not_contrary (hquiet : h.Quiet) : ¬ h.Contrary := by
  cases h with
  | cycle => exact not_false
  | issued e => exact not_false
  | probed now count =>
      intro hcontrary
      have habsent : reportsAbsence count = true := hquiet
      have hpresent : reportsAbsence count = false := hcontrary
      rw [habsent] at hpresent
      cases hpresent

theorem Observed.snoc (hobserved : Observed log t) (hh : ¬ h.Contrary) :
    Observed (log ++ [h]) t := by
  obtain ⟨first, count, later, rfl, habsent, hlater⟩ := hobserved
  refine ⟨first, count, later ++ [h], by simp, habsent, fun x hx => ?_⟩
  rcases List.mem_append.mp hx with hx | hx
  · exact hlater x hx
  · rw [List.mem_singleton.mp hx]
    exact hh

theorem Sustained.append (hsustained : Sustained recheck log) (rest : List Happening) :
    Sustained recheck (log ++ rest) := by
  obtain ⟨first, t₁, count₁, between, t₂, count₂, later, rfl, h₁, h₂, hapart, hbetween⟩ :=
    hsustained
  exact ⟨first, t₁, count₁, between, t₂, count₂, later ++ rest, by simp, h₁, h₂, hapart, hbetween⟩

/-- A second absence, long enough after an uncontradicted first one. -/
theorem Observed.sustained (hobserved : Observed log t) {now : Int} {count : Except String Int}
    (habsent : reportsAbsence count = true) (hapart : recheck ≤ now - t) :
    Sustained recheck (log ++ [.probed now count]) := by
  obtain ⟨first, count₁, later, rfl, hfirst, hlater⟩ := hobserved
  exact ⟨first, t, count₁, later, now, count, [], by simp, hfirst, habsent, hapart, hlater⟩

theorem Cleared.snoc (hcleared : Cleared recheck log) (hh : h.Quiet) :
    Cleared recheck (log ++ [h]) := by
  obtain ⟨old, now, t, since, rfl, hsustained, hnow, hsince⟩ := hcleared
  refine ⟨old, now, t, since ++ [h], by simp, hsustained, hnow, fun x hx => ?_⟩
  rcases List.mem_append.mp hx with hx | hx
  · exact hsince x hx
  · rw [List.mem_singleton.mp hx]
    exact hh

theorem DeletesCleared.snoc (hlaw : DeletesCleared recheck log)
    (hh : ∀ e, h = .issued e → e.Deletes → Cleared recheck log) :
    DeletesCleared recheck (log ++ [h]) := by
  intro before roomId answer after heq
  rcases List.eq_nil_or_concat after with rfl | ⟨init, last, rfl⟩
  · obtain ⟨rfl, hlast⟩ := List.append_inj' heq rfl
    exact hh _ (List.singleton_inj.mp hlast) trivial
  · rw [List.concat_eq_append, ← List.cons_append, ← List.append_assoc] at heq
    obtain ⟨rfl, _⟩ := List.append_inj' heq rfl
    exact hlaw before roomId answer init rfl

end Logs

/-! ## The invariant -/

/-- What the two columns of the row stand for. -/
structure OrphanJob.Inv (recheck : Int) (s : OrphanJob) : Prop where
  kind : s.job.triggerKind = orphanAudit
  observed : s.job.portalCleanupStatus = orphanLoginAbsenceObserved →
    ∀ t, s.job.portalCleanupConfirmedAt = some t → Observed s.log t
  verified : s.job.portalCleanupStatus = orphanLoginAbsentVerified → Sustained recheck s.log
  law : DeletesCleared recheck s.log

section Invariant

variable {recheck : Int} {lands : Effect → Bool} {s : OrphanJob} {h : Happening} {e : Effect}

theorem write_kind (job : BridgeCleanupJob) (e : Effect) :
    (job.write e).triggerKind = job.triggerKind := by
  cases e with
  | recordLoginProof =>
      dsimp only [BridgeCleanupJob.write]
      split <;> rfl
  | _ => rfl

theorem happen_kind (s : OrphanJob) (h : Happening) :
    (s.happen lands h).job.triggerKind = s.job.triggerKind := by
  cases h with
  | issued e =>
      change (if lands e then s.job.write e else s.job).triggerKind = _
      split
      · exact write_kind s.job e
      · rfl
  | _ => rfl

/-- Only a write of the proof touches the two columns. -/
theorem happen_columns (hh : ∀ e, h = .issued e → ¬ e.Records) :
    (s.happen lands h).job.portalCleanupStatus = s.job.portalCleanupStatus ∧
      (s.happen lands h).job.portalCleanupConfirmedAt = s.job.portalCleanupConfirmedAt := by
  cases h with
  | cycle => exact ⟨rfl, rfl⟩
  | probed => exact ⟨rfl, rfl⟩
  | issued e =>
      have hnot := hh e rfl
      change (if lands e then s.job.write e else s.job).portalCleanupStatus = _ ∧
        (if lands e then s.job.write e else s.job).portalCleanupConfirmedAt = _
      split
      · cases e with
        | recordLoginProof => exact absurd trivial hnot
        | _ => exact ⟨rfl, rfl⟩
      · exact ⟨rfl, rfl⟩

namespace OrphanJob

theorem Inv.keep (hs : s.Inv recheck) (hcontrary : ¬ h.Contrary)
    (hrecords : ∀ e, h = .issued e → ¬ e.Records)
    (hdeletes : ∀ e, h = .issued e → e.Deletes → Cleared recheck s.log) :
    (s.happen lands h).Inv recheck := by
  obtain ⟨hstatus, hconfirmed⟩ :
      (s.happen lands h).job.portalCleanupStatus = s.job.portalCleanupStatus ∧
        (s.happen lands h).job.portalCleanupConfirmedAt = s.job.portalCleanupConfirmedAt :=
    happen_columns hrecords
  constructor
  · rw [happen_kind]
    exact hs.kind
  · rw [hstatus, hconfirmed]
    exact fun h t ht => (hs.observed h t ht).snoc hcontrary
  · rw [hstatus]
    exact fun h => (hs.verified h).append _
  · exact hs.law.snoc hdeletes

/-- A write of the proof may say what the log bears out. -/
theorem Inv.record (hs : s.Inv recheck) {jobId notBefore : Int} {proofStatus detail : String}
    {firstAbsentAt : Option Int}
    (hobserved : proofStatus = orphanLoginAbsenceObserved →
      ∀ t, firstAbsentAt = some t → Observed s.log t)
    (hverified : proofStatus = orphanLoginAbsentVerified → Sustained recheck s.log) :
    (s.happen lands
      (.issued (.recordLoginProof jobId proofStatus firstAbsentAt notBefore detail))).Inv
        recheck := by
  have hlaw : DeletesCleared recheck
      (s.log ++ [.issued (.recordLoginProof jobId proofStatus firstAbsentAt notBefore detail)]) :=
    hs.law.snoc (fun e he hdeletes => by cases he; exact absurd hdeletes not_false)
  cases hlands : lands (.recordLoginProof jobId proofStatus firstAbsentAt notBefore detail) with
  | false =>
      have hjob : (s.happen lands
          (.issued (.recordLoginProof jobId proofStatus firstAbsentAt notBefore detail))).job =
            s.job := if_neg (by rw [hlands]; exact Bool.false_ne_true)
      constructor
      · rw [hjob]
        exact hs.kind
      · rw [hjob]
        exact fun h t ht => (hs.observed h t ht).snoc not_false
      · rw [hjob]
        exact fun h => (hs.verified h).append _
      · exact hlaw
  | true =>
      have hjob : (s.happen lands
          (.issued (.recordLoginProof jobId proofStatus firstAbsentAt notBefore detail))).job =
            { s.job with
              portalCleanupStatus := proofStatus
              portalCleanupConfirmedAt := firstAbsentAt } :=
        (if_pos hlands).trans (if_pos hs.kind)
      constructor
      · rw [hjob]
        exact hs.kind
      · rw [hjob]
        exact fun h t ht => (hobserved h t ht).snoc not_false
      · rw [hjob]
        exact fun h => (hverified h).append _
      · exact hlaw

theorem Inv.probed (hs : s.Inv recheck) {t : Int} {count : Except String Int}
    (habsent : reportsAbsence count = true) : (s.happen lands (.probed t count)).Inv recheck := by
  have hquiet : (Happening.probed t count).Quiet := habsent
  exact hs.keep hquiet.not_contrary (fun _ h => by cases h) (fun _ h => by cases h)

/-- A contrary probe contradicts a first observation and nothing else. -/
theorem Inv.contradicted (hs : s.Inv recheck) {t : Int} {count : Except String Int}
    (hnone : s.job.portalCleanupStatus ≠ orphanLoginAbsenceObserved) :
    (s.happen lands (.probed t count)).Inv recheck where
  kind := hs.kind
  observed := fun h => absurd h hnone
  verified := fun h => (hs.verified h).append _
  law := hs.law.snoc (fun _ h => by cases h)

/-- A probe and the write it is followed by: where the row holds a first observation, a contrary
probe has its write stored. -/
theorem Inv.reset (hs : s.Inv recheck) (he : e.Resets) {t : Int} {count : Except String Int}
    (hstored : s.job.portalCleanupStatus = orphanLoginAbsenceObserved →
      reportsAbsence count = true ∨ lands e = true) :
    ((s.happen lands (.probed t count)).happen lands (.issued e)).Inv recheck := by
  cases e with
  | recordLoginProof jobId proofStatus firstAbsentAt notBefore detail =>
      obtain ⟨hstatus, rfl⟩ := he
      have hobserved : proofStatus ≠ orphanLoginAbsenceObserved := by
        rcases hstatus with rfl | rfl <;> decide
      have hverified : proofStatus ≠ orphanLoginAbsentVerified := by
        rcases hstatus with rfl | rfl <;> decide
      by_cases hlands : lands (.recordLoginProof jobId proofStatus none notBefore detail) = true
      · have hjob : ((s.happen lands (.probed t count)).happen lands
            (.issued (.recordLoginProof jobId proofStatus none notBefore detail))).job =
              { s.job with
                portalCleanupStatus := proofStatus
                portalCleanupConfirmedAt := none } :=
          (if_pos hlands).trans (if_pos hs.kind)
        constructor
        · rw [hjob]
          exact hs.kind
        · rw [hjob]
          exact fun h => absurd h hobserved
        · rw [hjob]
          exact fun h => absurd h hverified
        · refine (hs.law.snoc (fun _ h => by cases h)).snoc (fun e he hdeletes => ?_)
          cases he
          exact absurd hdeletes not_false
      · have hprobed : (s.happen lands (.probed t count)).Inv recheck := by
          by_cases hstatus : s.job.portalCleanupStatus = orphanLoginAbsenceObserved
          · exact hs.probed ((hstored hstatus).resolve_right hlands)
          · exact hs.contradicted hstatus
        exact hprobed.record (fun h => absurd h hobserved) (fun h => absurd h hverified)
  | _ => exact absurd he not_false

end OrphanJob

/-! ## The parts of a cycle -/

theorem resetsStored_append {first rest : List Happening}
    (h : resetsStored lands (first ++ rest) = true) : resetsStored lands rest = true := by
  induction first with
  | nil => exact h
  | cons x first ih =>
      apply ih
      cases x with
      | probed now count =>
          rw [List.cons_append, resetsStored, Bool.and_eq_true] at h
          exact h.2
      | _ => exact h

namespace OrphanJob

theorem Inv.plain (hs : s.Inv recheck) {items : List Happening} (hitems : AllPlain items) :
    (items.foldl (happen lands) s).Inv recheck := by
  induction items generalizing s with
  | nil => exact hs
  | cons h rest ih =>
      obtain ⟨e, rfl, hrecords, hdeletes⟩ := hitems h List.mem_cons_self
      have hnext : (s.happen lands (.issued e)).Inv recheck := by
        refine hs.keep not_false ?_ ?_
        · intro _ h
          cases h
          exact hrecords
        · intro _ h
          cases h
          exact fun h => absurd h hdeletes
      exact ih hnext (fun x hx => hitems x (List.mem_cons_of_mem _ hx))

/-- While the absence is cleared, rooms may be deleted. -/
theorem Inv.clear (hs : s.Inv recheck) (hcleared : Cleared recheck s.log)
    {items : List Happening} (hitems : Clear items) :
    (items.foldl (happen lands) s).Inv recheck := by
  induction items generalizing s with
  | nil => exact hs
  | cons h rest ih =>
      have hrest : Clear rest := fun x hx => hitems x (List.mem_cons_of_mem _ hx)
      rcases hitems h List.mem_cons_self with ⟨t, rfl⟩ | ⟨e, rfl, hrecords⟩
      · have hquiet : (Happening.probed t (.ok 0)).Quiet := rfl
        have hnext : (s.happen lands (.probed t (.ok 0))).Inv recheck :=
          hs.keep hquiet.not_contrary (fun _ h => by cases h) (fun _ h => by cases h)
        exact ih hnext (hcleared.snoc hquiet) hrest
      · have hnext : (s.happen lands (.issued e)).Inv recheck := by
          refine hs.keep not_false ?_ (fun _ _ _ => hcleared)
          intro _ h
          cases h
          exact hrecords
        exact ih hnext (hcleared.snoc trivial) hrest

theorem clear_status {items : List Happening} (hitems : Clear items) (s : OrphanJob) :
    (items.foldl (happen lands) s).job.portalCleanupStatus = s.job.portalCleanupStatus := by
  induction items generalizing s with
  | nil => rfl
  | cons h rest ih =>
      rw [List.foldl_cons, ih (fun x hx => hitems x (List.mem_cons_of_mem _ hx))]
      refine (happen_columns ?_).1
      rcases hitems h List.mem_cons_self with ⟨t, rfl⟩ | ⟨e, rfl, hrecords⟩
      · exact fun _ h => by cases h
      · intro _ h
        cases h
        exact hrecords

theorem Inv.stops (hs : s.Inv recheck) {items : List Happening} (hitems : Stops items) (n : Nat)
    (hstored : s.job.portalCleanupStatus = orphanLoginAbsenceObserved →
      resetsStored lands (items.take n) = true) :
    ((items.take n).foldl (happen lands) s).Inv recheck := by
  obtain ⟨t, count, e, rest, rfl, he, hrest⟩ := hitems
  match n with
  | 0 => exact hs
  | 1 =>
      have hnext : (s.happen lands (.probed t count)).Inv recheck := by
        by_cases hstatus : s.job.portalCleanupStatus = orphanLoginAbsenceObserved
        · have hone := hstored hstatus
          exact hs.probed (by simpa [resetsStored, nextLands] using hone)
        · exact hs.contradicted hstatus
      exact hnext
  | n + 2 =>
      have hreset : s.job.portalCleanupStatus = orphanLoginAbsenceObserved →
          reportsAbsence count = true ∨ lands e = true := by
        intro hstatus
        have hand := (Bool.and_eq_true _ _).mp (hstored hstatus)
        exact (Bool.or_eq_true _ _).mp hand.1
      exact (hs.reset he hreset).plain (hrest.take n)

/-- A clear part of the cycle that may end in a probe that stops the job. -/
theorem Inv.sweep (hs : s.Inv recheck) (hcleared : Cleared recheck s.log)
    {front tail : List Happening} (hfront : Clear front) (htail : tail = [] ∨ Stops tail)
    (n : Nat) (hstored : s.job.portalCleanupStatus = orphanLoginAbsenceObserved →
      resetsStored lands ((front ++ tail).take n) = true) :
    (((front ++ tail).take n).foldl (happen lands) s).Inv recheck := by
  rw [List.take_append] at hstored ⊢
  rw [List.foldl_append]
  have hafter : ((front.take n).foldl (happen lands) s).Inv recheck :=
    hs.clear hcleared (hfront.take n)
  rcases htail with rfl | hstops
  · rw [List.take_nil]
    exact hafter
  · refine hafter.stops hstops _ (fun hstatus => ?_)
    rw [clear_status (hfront.take n)] at hstatus
    exact resetsStored_append (hstored hstatus)

end OrphanJob

end Invariant

/-! ## The law over runs -/

section Runs

variable {recheck : Int} {lands : Effect → Bool} {s : OrphanJob}

namespace OrphanJob

/-- The final check of a cycle whose absence is sustained clears the deletions after it. -/
theorem Inv.afterProof (hs : s.Inv recheck) {old now items : List Happening}
    (hlog : s.log = old ++ .cycle :: now) (hsustained : Sustained recheck s.log)
    (hnow : ∀ h ∈ now, h.Quiet ∧ ∀ e, h = .issued e → ¬ e.Deletes) (hitems : AfterProof items)
    (n : Nat) (hstored : s.job.portalCleanupStatus = orphanLoginAbsenceObserved →
      resetsStored lands (items.take n) = true) :
    ((items.take n).foldl (happen lands) s).Inv recheck := by
  cases hitems with
  | plain hplain => exact hs.plain (hplain.take n)
  | stopped hstops => exact hs.stops hstops n hstored
  | @swept t front tail hfront htail =>
      cases n with
      | zero => exact hs
      | succ n =>
          have hprobed : (s.happen lands (.probed t (.ok 0))).Inv recheck := hs.probed rfl
          have hcleared : Cleared recheck (s.happen lands (.probed t (.ok 0))).log := by
            refine ⟨old, now, t, [], ?_, hlog ▸ hsustained, hnow,
              fun _ hx => absurd hx List.not_mem_nil⟩
            change s.log ++ [.probed t (.ok 0)] = _
            rw [hlog, List.append_assoc, List.cons_append]
          rw [List.take_succ_cons] at hstored ⊢
          rw [List.foldl_cons]
          refine hprobed.sweep hcleared hfront htail n (fun hstatus => ?_)
          have hrest := hstored hstatus
          rw [← List.singleton_append] at hrest
          exact resetsStored_append hrest

/-- The first observation is ready to be confirmed only after the interval. -/
theorem ready_spec {proofStatus : String} {firstAbsentAt : Option Int} {now : Int}
    (hrecheck : 60 ≤ recheck)
    (h : orphanAbsenceReadyForVerification proofStatus firstAbsentAt now recheck = true) :
    proofStatus = orphanLoginAbsenceObserved ∧
      ∃ t, firstAbsentAt = some t ∧ recheck ≤ now - t := by
  unfold orphanAbsenceReadyForVerification at h
  rw [Bool.and_eq_true] at h
  obtain ⟨hstatus, hready⟩ := h
  cases firstAbsentAt with
  | none => cases hready
  | some t =>
      have hle : recheck ≤ saturatingSub now t := of_decide_eq_true hready
      refine ⟨eq_of_beq hstatus, t, rfl, ?_⟩
      unfold saturatingSub clampI32 i32Min i32Max at hle
      omega

/-- One cycle keeps the invariant when the resets of a first observation are stored. -/
theorem Inv.cycle (hs : s.Inv recheck) (hrecheck : 60 ≤ recheck) {config : Config} {now : Int}
    (hconfig : config.orphanProofRecheckSecs = recheck) {items : List Happening}
    (hshape : JobShape config s.job now items) (n : Nat)
    (hstored : s.job.portalCleanupStatus = orphanLoginAbsenceObserved →
      resetsStored lands (items.take n) = true) :
    ((items.take n).foldl (happen lands) (s.happen lands .cycle)).Inv recheck := by
  have hcycle : (s.happen lands .cycle).Inv recheck :=
    hs.keep not_false (fun _ h => by cases h) (fun _ h => by cases h)
  have hprobed : ∀ count, reportsAbsence count = true →
      ((s.happen lands .cycle).happen lands (.probed now count)).Inv recheck :=
    fun _ habsent => hcycle.probed habsent
  have hrest : ∀ first rest, resetsStored lands (first ++ rest) = true →
      resetsStored lands rest = true := fun _ _ h => resetsStored_append h
  have hprobe : ∀ count : Except String Int, reportsAbsence count = true →
      ∀ h ∈ [Happening.probed now count], h.Quiet ∧ ∀ e, h = .issued e → ¬ e.Deletes := by
    intro count habsent h hh
    rw [List.mem_singleton.mp hh]
    exact ⟨habsent, fun _ h => by cases h⟩
  cases hshape with
  | idle hplain => exact hcycle.plain (hplain.take n)
  | stopped hstops => exact hcycle.stops hstops n hstored
  | observed habsent =>
      match n with
      | 0 => exact hcycle
      | 1 => exact hprobed _ habsent
      | n + 2 =>
          rw [List.take_succ_cons, List.take_succ_cons, List.take_nil]
          refine (hprobed _ habsent).record (fun _ t ht => ?_) (fun h => ?_)
          · cases ht
            exact ⟨_, _, [], rfl, habsent, fun _ hx => absurd hx List.not_mem_nil⟩
          · exact absurd h (by decide)
  | @known count items hverified habsent hafter =>
      cases n with
      | zero => exact hcycle
      | succ n =>
          rw [List.take_succ_cons] at hstored ⊢
          have hsustained : Sustained recheck
              ((s.happen lands .cycle).happen lands (.probed now count)).log :=
            (hcycle.verified hverified).append _
          exact (hprobed _ habsent).afterProof (List.append_assoc _ _ _) hsustained
            (hprobe count habsent) hafter n (fun hstatus => hrest [_] _ (hstored hstatus))
  | @verified count notBefore detail items hready habsent hafter =>
      obtain ⟨hstatus, t, ht, hapart⟩ := ready_spec hrecheck (hconfig ▸ hready)
      have hsustained : Sustained recheck
          ((s.happen lands .cycle).happen lands (.probed now count)).log :=
        (hcycle.observed hstatus t ht).sustained habsent hapart
      match n with
      | 0 => exact hcycle
      | 1 => exact hprobed _ habsent
      | n + 2 =>
          rw [List.take_succ_cons, List.take_succ_cons] at hstored ⊢
          have hrecorded : (((s.happen lands .cycle).happen lands (.probed now count)).happen lands
              (.issued (.recordLoginProof s.job.id orphanLoginAbsentVerified
                s.job.portalCleanupConfirmedAt notBefore detail))).Inv recheck :=
            (hprobed _ habsent).record (fun h => absurd h (by decide)) (fun _ => hsustained)
          have hlog : (((s.happen lands .cycle).happen lands (.probed now count)).happen lands
              (.issued (.recordLoginProof s.job.id orphanLoginAbsentVerified
                s.job.portalCleanupConfirmedAt notBefore detail))).log =
              s.log ++ .cycle :: ([.probed now count] ++ [.issued (.recordLoginProof s.job.id
                orphanLoginAbsentVerified s.job.portalCleanupConfirmedAt notBefore detail)]) := by
            unfold happen
            simp only [List.append_assoc, List.cons_append, List.nil_append]
          refine hrecorded.afterProof hlog (hsustained.append _) ?_ hafter n
            (fun _ => hrest [_, _] _ (hstored hstatus))
          intro x hx
          rcases List.mem_append.mp hx with hx | hx
          · exact hprobe count habsent x hx
          · rw [List.mem_singleton.mp hx]
            refine ⟨trivial, fun e he => ?_⟩
            cases he
            exact not_false

/-- A reset that a first observation needs is stored. -/
def KeepsProof (s : OrphanJob) (c : CleanupCycle) : Prop :=
  s.job.portalCleanupStatus = orphanLoginAbsenceObserved →
    resetsStored c.lands (c.happenings s.job) = true

instance (s : OrphanJob) (c : CleanupCycle) : Decidable (s.KeepsProof c) :=
  inferInstanceAs (Decidable (_ → _))

theorem Inv.step {c : CleanupCycle} {next : OrphanJob} (hs : s.Inv recheck)
    (hkeeps : s.KeepsProof c) (hstep : step recheck s c = some next) : next.Inv recheck := by
  unfold OrphanJob.step at hstep
  split at hstep
  next hconfig =>
    cases hstep
    exact hs.cycle hconfig.2 hconfig.1 (jobLog_shape hs.kind c.progress) c.cut hkeeps
  · cases hstep

theorem inv_enqueued (recheck id userId : Int) (bridgeType : String) :
    (enqueued id userId bridgeType).Inv recheck where
  kind := rfl
  observed := fun h =>
    absurd (show "legacy_unverified" = orphanLoginAbsenceObserved from h) (by decide)
  verified := fun h =>
    absurd (show "legacy_unverified" = orphanLoginAbsentVerified from h) (by decide)
  law := by
    intro before roomId answer after h
    have hlength := congrArg List.length h
    rw [List.length_append] at hlength
    cases hlength

end OrphanJob

/-- In every run whose cycles keep the proof, rooms of an orphan are deleted only while the
absence of its login is cleared. -/
theorem orphan_rooms_deleted_after_sustained_absence {id userId : Int} {bridgeType : String}
    {cycles : List CleanupCycle}
    (hrun : Transition.run (OrphanJob.step recheck) (.enqueued id userId bridgeType) cycles =
      some s)
    (hkeeps : Transition.Meets (OrphanJob.step recheck) OrphanJob.KeepsProof
      (.enqueued id userId bridgeType) cycles) :
    DeletesCleared recheck s.log := by
  have hstep : ∀ s c next, OrphanJob.Inv recheck s → s.KeepsProof c →
      OrphanJob.step recheck s c = some next → next.Inv recheck :=
    fun s c next hs hkeeps hstep => hs.step hkeeps hstep
  have hinv : s.Inv recheck := Transition.run_invariant hstep
    (OrphanJob.inv_enqueued recheck id userId bridgeType) hkeeps hrun
  exact hinv.law

end Runs

/-! ## A reset that is lost -/

section Split

variable {recheck : Int} {log : List Happening}

def Happening.deletes : Happening → Bool
  | .issued (.deleteRoom _ _) => true
  | _ => false

def Happening.contrary : Happening → Bool
  | .probed _ count => !reportsAbsence count
  | _ => false

/-- Every probe of the log has its date between the two. -/
def probedWithin (lo hi : Int) (log : List Happening) : Bool :=
  log.all fun
    | .probed t _ => lo ≤ t && t ≤ hi
    | _ => true

theorem Sustained.spread (h : Sustained recheck log) {lo hi : Int}
    (hwithin : probedWithin lo hi log = true) : recheck ≤ hi - lo := by
  obtain ⟨first, t₁, count₁, between, t₂, count₂, later, rfl, _, _, hapart, _⟩ := h
  have hall := List.all_eq_true.mp hwithin
  have h₁ := hall (.probed t₁ count₁) (by simp)
  have h₂ := hall (.probed t₂ count₂) (by simp)
  simp only [Bool.and_eq_true, decide_eq_true_eq] at h₁ h₂
  omega

/-- A sustained absence lies on one side of every contrary probe. -/
theorem Sustained.split {first rest : List Happening} {x : Happening}
    (h : Sustained recheck (first ++ x :: rest)) (hx : x.Contrary) :
    Sustained recheck first ∨ Sustained recheck rest := by
  obtain ⟨a, t₁, count₁, b, t₂, count₂, c, heq, h₁, h₂, hapart, hbetween⟩ := h
  have hquiet : ∀ t count, reportsAbsence count = true → x ≠ .probed t count := by
    rintro t count habsent rfl
    have hprobe : (Happening.probed t count).Quiet := habsent
    exact hprobe.not_contrary hx
  rcases List.append_eq_append_iff.mp heq with ⟨mid, rfl, hmid⟩ | ⟨mid, rfl, hmid⟩
  · cases mid with
    | nil => exact absurd (List.cons.inj hmid).1 (hquiet t₁ count₁ h₁)
    | cons y mid =>
        right
        obtain ⟨_, rfl⟩ := List.cons.inj hmid
        exact ⟨mid, t₁, count₁, b, t₂, count₂, c, rfl, h₁, h₂, hapart, hbetween⟩
  · cases mid with
    | nil => exact absurd (List.cons.inj hmid).1.symm (hquiet t₁ count₁ h₁)
    | cons y mid =>
        obtain ⟨rfl, hrest⟩ := List.cons.inj hmid
        rcases List.append_eq_append_iff.mp hrest with ⟨tail, rfl, htail⟩ | ⟨tail, rfl, htail⟩
        · cases tail with
          | nil => exact absurd (List.cons.inj htail).1.symm (hquiet t₂ count₂ h₂)
          | cons z tail =>
              left
              obtain ⟨rfl, _⟩ := List.cons.inj htail
              exact ⟨a, t₁, count₁, b, t₂, count₂, tail, rfl, h₁, h₂, hapart, hbetween⟩
        · cases tail with
          | nil => exact absurd (List.cons.inj htail).1 (hquiet t₂ count₂ h₂)
          | cons z tail =>
              obtain ⟨rfl, _⟩ := List.cons.inj htail
              exact absurd hx (hbetween x (by simp))

theorem Sustained.split_at (h : Sustained recheck log) (k : Nat)
    (hk : (log.drop k).head?.any Happening.contrary = true) :
    Sustained recheck (log.take k) ∨ Sustained recheck (log.drop (k + 1)) := by
  have htail : (log.drop k).tail = log.drop (k + 1) := List.tail_drop
  cases hdrop : log.drop k with
  | nil =>
      rw [hdrop] at hk
      cases hk
  | cons x rest =>
      rw [hdrop] at hk htail
      have hx : x.Contrary := by
        cases x with
        | cycle => cases hk
        | issued e => cases hk
        | probed t count => exact (Bool.not_eq_true' _).mp hk
      rw [← htail]
      rw [← List.take_append_drop k log, hdrop] at h
      exact h.split hx

theorem DeletesCleared.cleared_at (h : DeletesCleared recheck log) (k : Nat)
    (hk : (log.drop k).head?.any Happening.deletes = true) : Cleared recheck (log.take k) := by
  cases hdrop : log.drop k with
  | nil =>
      rw [hdrop] at hk
      cases hk
  | cons x rest =>
      rw [hdrop] at hk
      cases x with
      | cycle => cases hk
      | probed => cases hk
      | issued e =>
          cases e with
          | deleteRoom roomId answer =>
              exact h _ roomId answer rest (by rw [← hdrop, List.take_append_drop])
          | _ => cases hk

theorem Cleared.sustained (h : Cleared recheck log) : Sustained recheck log := by
  obtain ⟨old, now, t, since, rfl, hsustained, _, _⟩ := h
  have hmore := hsustained.append (.probed t (.ok 0) :: since)
  rwa [List.append_assoc, List.cons_append] at hmore

end Split

namespace OrphanExample

def presentLogin : LoginAnswers := ⟨.ok "@owner:localhost", .ran (fun _ => .ok 1)⟩

/-- The homeserver knows no such room, and every service answers. -/
def answers (now : Int) (login : LoginAnswers) : JobAnswers where
  now
  retryNow := now
  generation := .ok none
  proofLogin := login
  proofStored := .ok ()
  discovered := none
  roomsLoaded := .ok ()
  leaseAcquired := .ok true
  finalLogin := login
  leaseGeneration := .ok none
  storageBefore := ⟨none, none⟩
  storageAfter := ⟨none, none⟩
  room := fun _ =>
    { audit := ⟨.ok 0, .response 404 (.ok ""), fun _ => .ok 0, login⟩
      guard := ⟨.ok true, .ok none, login, now⟩
      deletion := .response 200 (.ok "")
      attemptStored := some now
      resultStored := some now }

def cycle (now : Int) (login : LoginAnswers) (stored : Bool) : CleanupCycle where
  config := cleanupConfig
  codec := emptyMembersCodec
  answers := answers now login
  progress := ⟨CleanupRooms.addBridgeCleanupRooms 300 1 ["!portal:localhost"] "ontology"
    Table.empty, 5⟩
  stored := fun _ => stored
  cut := 20

def reached (cycles : List CleanupCycle) : OrphanJob :=
  Transition.final (OrphanJob.step 300) (.enqueued 1 7 "whatsapp") cycles

def confirmed : List CleanupCycle := [cycle 1000 absentLogin true, cycle 1300 absentLogin true]

/-- The login is found again when the first absence is rechecked, and the write is lost. -/
def contradicted : List CleanupCycle :=
  [cycle 1000 absentLogin true, cycle 1300 presentLogin false, cycle 1330 absentLogin true]

end OrphanExample

open OrphanExample in
theorem orphan_rooms_deleted_after_sustained_absence_confirmed :
    (reached confirmed).log.any Happening.deletes = true ∧
      DeletesCleared 300 (reached confirmed).log :=
  ⟨by decide +kernel, orphan_rooms_deleted_after_sustained_absence
    (show Transition.run (OrphanJob.step 300) (.enqueued 1 7 "whatsapp") confirmed =
      some (reached confirmed) from Transition.run_eq_final (by decide +kernel))
    (by decide +kernel)⟩

open OrphanExample in
/-- The rooms are deleted half a minute after the login was seen. -/
theorem not_orphan_rooms_deleted_after_sustained_absence_contradicted :
    ¬ ∀ (recheck id userId : Int) (bridgeType : String) (cycles : List CleanupCycle)
      (s : OrphanJob), Transition.run (OrphanJob.step recheck) (.enqueued id userId bridgeType)
        cycles = some s → DeletesCleared recheck s.log := by
  intro hlaw
  have hrun : Transition.run (OrphanJob.step 300) (.enqueued 1 7 "whatsapp") contradicted =
      some (reached contradicted) := Transition.run_eq_final (by decide +kernel)
  have hcleared := (hlaw _ _ _ _ _ _ hrun).cleared_at 13 (by decide +kernel)
  rcases hcleared.sustained.split_at 4 (by decide +kernel) with hbefore | hafter
  · have hapart := hbefore.spread (show probedWithin 1000 1000 _ = true by decide +kernel)
    omega
  · have hapart := hafter.spread (show probedWithin 1330 1330 _ = true by decide +kernel)
    omega

end Lightfriend.Bridge
