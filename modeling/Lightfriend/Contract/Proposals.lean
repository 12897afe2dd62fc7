import Lightfriend.Contract.KmsVerifiable

/-! # The fates of proposals

A proposal stays in the slot until it is activated or dropped. A log tells of
every proposal which, and the contract keeps to what its log tells.
-/

namespace Lightfriend.Contract

inductive Fate
  | pending
  | dropped
  | activated (transaction : Transaction)
deriving DecidableEq

structure Proposal where
  imageId : Bytes32
  transaction : Transaction
  fate : Fate
deriving DecidableEq

/-- What the next call makes of a pending proposal; another proposal finds the slot free only when
the pending one is of the zero id. -/
def pendingAfter (imageId : Bytes32) (e : Entry) : Fate :=
  match e.call with
  | .activateImage => .activated e.transaction
  | .clearPendingImage => .dropped
  | .proposeImage _ _ => .dropped
  | .revokeImage other => if other = imageId then .dropped else .pending
  | _ => .pending

def Proposal.after (p : Proposal) (e : Entry) : Proposal :=
  match p.fate with
  | .pending => { p with fate := pendingAfter p.imageId e }
  | _ => p

/-- The proposals of a log with their fates, newest first as the log is. -/
def proposals : List Entry → List Proposal
  | [] => []
  | e :: earlier =>
      let older := (proposals earlier).map (fun p => p.after e)
      match e.proposes with
      | some imageId => ⟨imageId, e.transaction, .pending⟩ :: older
      | none => older

/-- The image that an activation activates. -/
def Entry.activates (e : Entry) : Option Bytes32 :=
  match e.call with
  | .activateImage => some e.before.pendingApproval.imageId
  | _ => none

structure Activation where
  imageId : Bytes32
  transaction : Transaction
deriving DecidableEq

/-- The activations of a log, newest first. -/
def activations (log : List Entry) : List Activation :=
  log.filterMap (fun e => e.activates.map (fun imageId => ⟨imageId, e.transaction⟩))

/-! ## One entry more -/

section After

variable {p : Proposal} {e : Entry} {t : Transaction}

@[simp] theorem Proposal.after_imageId : (p.after e).imageId = p.imageId := by
  unfold Proposal.after
  split <;> rfl

@[simp] theorem Proposal.after_transaction : (p.after e).transaction = p.transaction := by
  unfold Proposal.after
  split <;> rfl

theorem Proposal.after_activated (h : p.fate = .activated t) : p.after e = p := by
  unfold Proposal.after
  rw [h]

theorem Proposal.after_pending (h : p.fate = .pending) :
    (p.after e).fate = pendingAfter p.imageId e := by
  unfold Proposal.after
  rw [h]

theorem Proposal.after_of_stays (h : p.fate = .pending)
    (hstays : pendingAfter p.imageId e = .pending) : p.after e = p := by
  unfold Proposal.after
  rw [h, hstays]
  obtain ⟨imageId, transaction, fate⟩ := p
  cases h
  rfl

theorem Proposal.pending_of_after (h : (p.after e).fate = .pending) :
    p.fate = .pending ∧ pendingAfter p.imageId e = .pending := by
  unfold Proposal.after at h
  split at h
  next hpending => exact ⟨hpending, h⟩
  next hother => exact absurd h hother

/-- A proposal is activated in the end when it was before, or is by the entry. -/
theorem Proposal.activated_of_after (h : (p.after e).fate = .activated t) :
    p.fate = .activated t ∨
      p.fate = .pending ∧ e.call = .activateImage ∧ t = e.transaction := by
  unfold Proposal.after at h
  split at h
  next hpending =>
    refine Or.inr ⟨hpending, ?_⟩
    simp only [pendingAfter] at h
    split at h
    next hcall =>
      cases h
      exact ⟨hcall, rfl⟩
    · cases h
    · cases h
    · split at h <;> cases h
    · cases h
  next => exact Or.inl h

theorem mem_proposals_cons {log : List Entry} {q : Proposal} :
    q ∈ proposals (e :: log) ↔
      (∃ imageId, e.proposes = some imageId ∧ q = ⟨imageId, e.transaction, .pending⟩) ∨
        ∃ p ∈ proposals log, p.after e = q := by
  rw [proposals]
  cases e.proposes with
  | none => simp
  | some imageId => simp

theorem mem_activations_cons {log : List Entry} {a : Activation} :
    a ∈ activations (e :: log) ↔
      e.activates = some a.imageId ∧ a.transaction = e.transaction ∨ a ∈ activations log := by
  rw [activations, activations, List.filterMap_cons]
  cases e.activates with
  | none => simp
  | some imageId =>
      obtain ⟨image, transaction⟩ := a
      simp [eq_comm]

end After

/-! ## The contract keeps to its log -/

/-- The entry carries what the contract emits. -/
def Entry.Emits (e : Entry) : Prop :=
  ∃ next, Executed e.before e.transaction.sender e.timestamp e.call next e.events

/-- The slot holds the proposal that is pending, and activations are those of pending proposals. -/
structure Kept (c : KmsVerifiable) (log : List Entry) : Prop where
  pending : ∀ p ∈ proposals log, p.fate = .pending → c.pendingApproval.imageId = p.imageId
  slot : c.pendingApproval.imageId ≠ zero32 →
    ∃ p ∈ proposals log, p.imageId = c.pendingApproval.imageId ∧ p.fate = .pending
  activated : ∀ a ∈ activations log,
    ∃ p ∈ proposals log, p.imageId = a.imageId ∧ p.fate = .activated a.transaction
  activation : ∀ p ∈ proposals log, ∀ t, p.fate = .activated t →
    ⟨p.imageId, t⟩ ∈ activations log
  approved : ∀ imageId, c.approvedImages imageId = true →
    ∃ a ∈ activations log, a.imageId = imageId
  emitted : ∀ e ∈ log, e.Emits

theorem kept_init (deployer : Address) (initialCooldownSeconds : Nat) :
    Kept (.deploy deployer initialCooldownSeconds) [] where
  pending := fun _ h => nomatch h
  slot := fun h => absurd rfl h
  activated := fun _ h => nomatch h
  activation := fun _ h => nomatch h
  approved := fun _ h => nomatch h
  emitted := fun _ h => nomatch h

section Grow

variable {c next : KmsVerifiable} {log : List Entry} {e : Entry}

/-- A call that activates nothing. -/
theorem Kept.grow (h : Kept c log) (hactivates : e.call ≠ .activateImage)
    (hpending : ∀ p ∈ proposals (e :: log), p.fate = .pending →
      next.pendingApproval.imageId = p.imageId)
    (hslot : next.pendingApproval.imageId ≠ zero32 → ∃ p ∈ proposals (e :: log),
      p.imageId = next.pendingApproval.imageId ∧ p.fate = .pending)
    (happroved : ∀ imageId, next.approvedImages imageId = true → c.approvedImages imageId = true)
    (hemitted : e.Emits) :
    Kept next (e :: log) := by
  have hnone : e.activates = none := by
    unfold Entry.activates
    split
    next hcall => exact absurd hcall hactivates
    next => rfl
  have hactivations : activations (e :: log) = activations log := by
    rw [activations, List.filterMap_cons, hnone]
    rfl
  refine ⟨hpending, hslot, ?_, ?_, ?_, ?_⟩
  · intro a ha
    rw [hactivations] at ha
    obtain ⟨p, hp, himage, hfate⟩ := h.activated a ha
    exact ⟨p, mem_proposals_cons.2 (Or.inr ⟨p, hp, p.after_activated hfate⟩), himage, hfate⟩
  · intro q hq t hfate
    rw [hactivations]
    obtain ⟨imageId, _, rfl⟩ | ⟨p, hp, rfl⟩ := mem_proposals_cons.1 hq
    · cases hfate
    · obtain hold | ⟨_, hcall, _⟩ := p.activated_of_after hfate
      · rw [p.after_imageId]
        exact h.activation p hp t hold
      · exact absurd hcall hactivates
  · rw [hactivations]
    exact fun imageId hnow => h.approved imageId (happroved imageId hnow)
  · intro x hx
    rcases List.mem_cons.mp hx with rfl | hx
    · exact hemitted
    · exact h.emitted x hx

/-- A call that leaves what is pending as it is. -/
theorem Kept.unchanged (h : Kept c log) (hproposes : e.proposes = none)
    (hafter : ∀ p ∈ proposals log, p.fate = .pending → p.after e = p)
    (hactivates : e.call ≠ .activateImage)
    (hslot : next.pendingApproval = c.pendingApproval)
    (happroved : ∀ imageId, next.approvedImages imageId = true → c.approvedImages imageId = true)
    (hemitted : e.Emits) :
    Kept next (e :: log) := by
  refine h.grow hactivates ?_ ?_ happroved hemitted
  · intro q hq hfate
    obtain ⟨imageId, hsome, _⟩ | ⟨p, hp, rfl⟩ := mem_proposals_cons.1 hq
    · rw [hproposes] at hsome
      cases hsome
    · rw [p.after_imageId, hslot]
      exact h.pending p hp (p.pending_of_after hfate).1
  · rw [hslot]
    intro hne
    obtain ⟨p, hp, himage, hfate⟩ := h.slot hne
    exact ⟨p, mem_proposals_cons.2 (Or.inr ⟨p, hp, hafter p hp hfate⟩), himage, hfate⟩

/-- A call that empties the slot. -/
theorem Kept.emptied (h : Kept c log) (hproposes : e.proposes = none)
    (hafter : ∀ p ∈ proposals log, p.fate = .pending → pendingAfter p.imageId e = .dropped)
    (hactivates : e.call ≠ .activateImage) (hslot : next.pendingApproval = .deleted)
    (happroved : ∀ imageId, next.approvedImages imageId = true → c.approvedImages imageId = true)
    (hemitted : e.Emits) :
    Kept next (e :: log) := by
  refine h.grow hactivates ?_ (fun hne => absurd (by rw [hslot]; rfl) hne) happroved hemitted
  intro q hq hfate
  obtain ⟨imageId, hsome, _⟩ | ⟨p, hp, rfl⟩ := mem_proposals_cons.1 hq
  · rw [hproposes] at hsome
    cases hsome
  · obtain ⟨hpending, hstays⟩ := p.pending_of_after hfate
    rw [hafter p hp hpending] at hstays
    cases hstays

theorem Kept.proposed (h : Kept c log) {imageId : Bytes32} {commitHash : Bytes}
    (hcall : e.call = .proposeImage imageId commitHash)
    (hslot : next.pendingApproval.imageId = imageId)
    (happroved : next.approvedImages = c.approvedImages) (hemitted : e.Emits) :
    Kept next (e :: log) := by
  have hproposes : e.proposes = some imageId := by
    unfold Entry.proposes
    rw [hcall]
  refine h.grow (by simp [hcall]) ?_ ?_ (fun _ hnow => by rwa [happroved] at hnow) hemitted
  · intro q hq hfate
    obtain ⟨other, hsome, rfl⟩ | ⟨p, hp, rfl⟩ := mem_proposals_cons.1 hq
    · rw [hproposes] at hsome
      cases hsome
      exact hslot
    · have hstays := (p.pending_of_after hfate).2
      rw [pendingAfter, hcall] at hstays
      cases hstays
  · intro _
    exact ⟨⟨imageId, e.transaction, .pending⟩,
      mem_proposals_cons.2 (Or.inl ⟨imageId, hproposes, rfl⟩), hslot.symm, rfl⟩

theorem Kept.activates (h : Kept c log) (hcall : e.call = .activateImage) (hbefore : e.before = c)
    (hpending : c.pendingApproval.imageId ≠ zero32) (hslot : next.pendingApproval = .deleted)
    (happroved : next.approvedImages =
      Function.update c.approvedImages c.pendingApproval.imageId true) (hemitted : e.Emits) :
    Kept next (e :: log) := by
  have hactivates : e.activates = some c.pendingApproval.imageId := by
    unfold Entry.activates
    rw [hcall, hbefore]
  have hproposes : e.proposes = none := by
    unfold Entry.proposes
    rw [hcall]
  have hbecomes : ∀ imageId, pendingAfter imageId e = .activated e.transaction := by
    intro imageId
    rw [pendingAfter, hcall]
  have hnow : ⟨c.pendingApproval.imageId, e.transaction⟩ ∈ activations (e :: log) :=
    mem_activations_cons.2 (Or.inl ⟨hactivates, rfl⟩)
  refine ⟨?_, fun hne => absurd (by rw [hslot]; rfl) hne, ?_, ?_, ?_, ?_⟩
  · intro q hq hfate
    obtain ⟨imageId, hsome, _⟩ | ⟨p, hp, rfl⟩ := mem_proposals_cons.1 hq
    · rw [hproposes] at hsome
      cases hsome
    · have hstays := (p.pending_of_after hfate).2
      rw [hbecomes] at hstays
      cases hstays
  · intro a ha
    rcases mem_activations_cons.1 ha with ⟨himage, htransaction⟩ | hold
    · rw [hactivates, Option.some.injEq] at himage
      obtain ⟨p, hp, hp_image, hfate⟩ := h.slot hpending
      refine ⟨p.after e, mem_proposals_cons.2 (Or.inr ⟨p, hp, rfl⟩), ?_, ?_⟩
      · rw [p.after_imageId, hp_image, himage]
      · rw [p.after_pending hfate, hbecomes, htransaction]
    · obtain ⟨p, hp, himage, hfate⟩ := h.activated a hold
      exact ⟨p, mem_proposals_cons.2 (Or.inr ⟨p, hp, p.after_activated hfate⟩), himage, hfate⟩
  · intro q hq t hfate
    obtain ⟨imageId, hsome, _⟩ | ⟨p, hp, rfl⟩ := mem_proposals_cons.1 hq
    · rw [hproposes] at hsome
      cases hsome
    · rw [p.after_imageId]
      obtain hold | ⟨hwas, _, rfl⟩ := p.activated_of_after hfate
      · exact mem_activations_cons.2 (Or.inr (h.activation p hp t hold))
      · rwa [← h.pending p hp hwas]
  · intro imageId happ
    by_cases himage : imageId = c.pendingApproval.imageId
    · exact ⟨_, hnow, himage.symm⟩
    · rw [happroved, Function.update_of_ne himage] at happ
      obtain ⟨a, ha, himage⟩ := h.approved imageId happ
      exact ⟨a, mem_activations_cons.2 (Or.inr ha), himage⟩
  · intro x hx
    rcases List.mem_cons.mp hx with rfl | hx
    · exact hemitted
    · exact h.emitted x hx

/-- What is approved after a revocation was approved before. -/
theorem approved_of_revoked {approvedImages : Bytes32 → Bool} {revoked imageId : Bytes32}
    (h : Function.update approvedImages revoked false imageId = true) :
    approvedImages imageId = true := by
  by_cases himage : imageId = revoked
  · rw [himage, Function.update_self] at h
    cases h
  · rwa [Function.update_of_ne himage] at h

theorem Kept.executed (h : Kept c log) (hbefore : e.before = c) {call : Call}
    (hcall : e.call = call) {events : List Event} (hemitted : e.Emits)
    (hexecuted : Executed c e.transaction.sender e.timestamp call next events) :
    Kept next (e :: log) := by
  have hother : (∀ imageId commitHash, call ≠ .proposeImage imageId commitHash) →
      e.proposes = none := by
    intro hne
    unfold Entry.proposes
    split
    next imageId commitHash hpropose => exact absurd (hcall.symm.trans hpropose) (hne _ _)
    next => rfl
  cases hexecuted with
  | transferOwnership newOwner howner =>
      exact h.unchanged (hother (fun _ _ => by simp))
        (fun p _ hfate => p.after_of_stays hfate (by rw [pendingAfter, hcall])) (by simp [hcall])
        rfl (fun _ hnow => hnow) hemitted
  | setCooldownSeconds n howner =>
      exact h.unchanged (hother (fun _ _ => by simp))
        (fun p _ hfate => p.after_of_stays hfate (by rw [pendingAfter, hcall])) (by simp [hcall])
        rfl (fun _ hnow => hnow) hemitted
  | proposeImage imageId commitHash howner hfree => exact h.proposed hcall rfl rfl hemitted
  | activateImage hpending htime => exact h.activates hcall hbefore hpending rfl rfl hemitted
  | clearPendingImage howner hpending =>
      exact h.emptied (hother (fun _ _ => by simp)) (fun p _ _ => by rw [pendingAfter, hcall])
        (by simp [hcall]) rfl (fun _ hnow => hnow) hemitted
  | revokePending howner =>
      refine h.emptied (hother (fun _ _ => by simp)) ?_ (by simp [hcall]) rfl
        (fun _ hnow => approved_of_revoked hnow) hemitted
      intro p hp hfate
      rw [pendingAfter, hcall]
      exact if_pos (h.pending p hp hfate)
  | revokeImage imageId howner hdifferent =>
      refine h.unchanged (hother (fun _ _ => by simp)) ?_ (by simp [hcall]) rfl
        (fun _ hnow => approved_of_revoked hnow) hemitted
      intro p hp hfate
      apply p.after_of_stays hfate
      rw [pendingAfter, hcall]
      refine if_neg ?_
      rw [← h.pending p hp hfate]
      exact fun heq => hdifferent heq.symm

end Grow

/-- The contract keeps to its log over every history of calls. -/
theorem kept_of_run {deployer : Address} {initialCooldownSeconds clock : Nat}
    {transactions : List Transaction} {s : State}
    (hrun : Transition.run step (init deployer initialCooldownSeconds clock) transactions =
      some s) : Kept s.contract s.log := by
  have hinit : Kept (init deployer initialCooldownSeconds clock).contract
      (init deployer initialCooldownSeconds clock).log := kept_init deployer initialCooldownSeconds
  refine @Transition.run_invariant_all _ _ step (fun s => Kept s.contract s.log) ?_ _ _ _ hinit
    hrun
  rintro s t ⟨contract, clock, log⟩ h hstep
  obtain ⟨-, -, ⟨rfl, rfl⟩ | ⟨events, hexecuted, rfl⟩⟩ := step_cases hstep
  · exact h
  · exact h.executed (e := ⟨t, s.contract, events⟩) rfl rfl ⟨_, hexecuted⟩ hexecuted

end Lightfriend.Contract
