import Lightfriend.Contract.KmsVerifiable

/-! # The timelock of the verifier contract

An approved image has been pending for the whole cooldown that was in force
when it was proposed. The invariant ties the slot to the last proposal of the
log that nothing has ended.
-/

namespace Lightfriend.Contract

/-! ## What is promised -/

/-- A call that ends a pending proposal of the image. -/
def Ends (imageId : Bytes32) (e : Entry) : Prop :=
  e.call = .activateImage ∨ e.call = .clearPendingImage ∨ e.call = .revokeImage imageId

instance (imageId : Bytes32) (e : Entry) : Decidable (Ends imageId e) := by
  unfold Ends
  infer_instance

/-- The log goes back to an activation of the image, and from there to the proposal that it
activated. -/
structure ApprovedBy (imageId : Bytes32) (log later middle earlier : List Entry) (a p : Entry) :
    Prop where
  split : log = later ++ a :: (middle ++ p :: earlier)
  proposed : p.proposes = some imageId
  byOwner : p.transaction.sender = p.before.owner
  waited : p.timestamp + p.before.cooldownSeconds ≤ a.timestamp
  activated : a.call = .activateImage
  uninterrupted : ∀ e ∈ middle, ¬ Ends imageId e
  unrevoked : ∀ e ∈ later, e.call ≠ .revokeImage imageId

/-- A proposal of the log that nothing has ended. -/
structure Open (log later : List Entry) (p : Entry) (earlier : List Entry) (imageId : Bytes32) :
    Prop where
  split : log = later ++ p :: earlier
  proposed : p.proposes = some imageId
  nonzero : imageId ≠ zero32
  unended : ∀ e ∈ later, ¬ Ends imageId e

/-- A next call keeps the pending proposal, or is one that may end it and empties the slot. -/
def KeepsOrEnds (s next : State) (t : Transaction) : Prop :=
  next.contract.pendingApproval = s.contract.pendingApproval ∨
    next.contract.pendingApproval = .deleted ∧
      (t.call = .activateImage ∧ s.contract.pendingApproval.activatesAt ≤ t.timestamp ∨
        t.sender = s.contract.owner ∧ (t.call = .clearPendingImage ∨
          t.call = .revokeImage s.contract.pendingApproval.imageId))

structure TimelockHolds (s : State) : Prop where
  approved : ∀ imageId, s.contract.oysterKMSVerify imageId = true →
    ∃ later middle earlier a p, ApprovedBy imageId s.log later middle earlier a p
  slot : ∀ later p earlier imageId, Open s.log later p earlier imageId →
    s.contract.pendingApproval.imageId = imageId ∧
      s.contract.pendingApproval.activatesAt = p.activatesAt
  single : ∀ later p earlier imageId later' p' earlier' imageId',
    Open s.log later p earlier imageId → Open s.log later' p' earlier' imageId' → later = later'
  pending : s.contract.pendingApproval.imageId ≠ zero32 →
    ∃ later p earlier, Open s.log later p earlier s.contract.pendingApproval.imageId
  disappears : ∀ t next, step s t = some next → s.contract.pendingApproval.imageId ≠ zero32 →
    KeepsOrEnds s next t
  configured : ∀ t next, step s t = some next →
    (∃ newOwner, t.call = .transferOwnership newOwner) ∨
      (∃ n, t.call = .setCooldownSeconds n) →
    next.contract.pendingApproval = s.contract.pendingApproval ∧
      next.contract.approvedImages = s.contract.approvedImages

/-! ## The next call -/

theorem keepsOrEnds_of_step {s next : State} {t : Transaction} (h : step s t = some next)
    (hpending : s.contract.pendingApproval.imageId ≠ zero32) : KeepsOrEnds s next t := by
  obtain ⟨-, -, ⟨hsame, -⟩ | ⟨events, hexecuted, -⟩⟩ := step_cases h
  · exact Or.inl (by rw [hsame])
  · generalize hnext : next.contract = c at hexecuted
    generalize hcall : t.call = call at hexecuted
    unfold KeepsOrEnds
    rw [hnext, hcall]
    cases hexecuted with
    | transferOwnership newOwner howner => exact Or.inl rfl
    | setCooldownSeconds n howner => exact Or.inl rfl
    | proposeImage imageId commitHash howner hfree => exact absurd hfree hpending
    | activateImage _ htime => exact Or.inr ⟨rfl, Or.inl ⟨rfl, htime⟩⟩
    | clearPendingImage howner _ => exact Or.inr ⟨rfl, Or.inr ⟨howner, Or.inl rfl⟩⟩
    | revokePending howner => exact Or.inr ⟨rfl, Or.inr ⟨howner, Or.inr rfl⟩⟩
    | revokeImage imageId howner hother => exact Or.inl rfl

theorem configured_of_step {s next : State} {t : Transaction} (h : step s t = some next)
    (hcall : (∃ newOwner, t.call = .transferOwnership newOwner) ∨
      (∃ n, t.call = .setCooldownSeconds n)) :
    next.contract.pendingApproval = s.contract.pendingApproval ∧
      next.contract.approvedImages = s.contract.approvedImages := by
  obtain ⟨-, -, ⟨hsame, -⟩ | ⟨events, hexecuted, -⟩⟩ := step_cases h
  · rw [hsame]
    exact ⟨rfl, rfl⟩
  · generalize next.contract = c at hexecuted ⊢
    rcases hcall with ⟨newOwner, hcall⟩ | ⟨n, hcall⟩
    · rw [hcall] at hexecuted
      cases hexecuted
      exact ⟨rfl, rfl⟩
    · rw [hcall] at hexecuted
      cases hexecuted
      exact ⟨rfl, rfl⟩

/-! ## The invariant -/

/-- The proposal in the slot is the one of the log that nothing has ended, and every approved image
has its activation. -/
structure Inv (s : State) : Prop where
  approved : ∀ imageId, s.contract.approvedImages imageId = true →
    ∃ later middle earlier a p, ApprovedBy imageId s.log later middle earlier a p
  slot : ∀ later p earlier imageId, Open s.log later p earlier imageId →
    s.contract.pendingApproval.imageId = imageId ∧
      s.contract.pendingApproval.activatesAt = p.activatesAt
  single : ∀ later p earlier imageId later' p' earlier' imageId',
    Open s.log later p earlier imageId → Open s.log later' p' earlier' imageId' → later = later'
  pending : s.contract.pendingApproval.imageId ≠ zero32 →
    ∃ later p earlier, Open s.log later p earlier s.contract.pendingApproval.imageId ∧
      p.transaction.sender = p.before.owner

theorem inv_init (deployer : Address) (initialCooldownSeconds clock : Nat) :
    Inv (init deployer initialCooldownSeconds clock) where
  approved := fun _ h => by cases h
  slot := fun later _ _ _ h => absurd h.split (by simp [init])
  single := fun later _ _ _ _ _ _ _ h _ => absurd h.split (by simp [init])
  pending := fun h => absurd rfl h

section Grow

variable {log later earlier : List Entry} {x p : Entry} {imageId : Bytes32}

/-- An entry that revokes nothing of the image leaves its approval. -/
theorem ApprovedBy.cons {middle : List Entry} {a : Entry}
    (h : ApprovedBy imageId log later middle earlier a p) (hx : x.call ≠ .revokeImage imageId) :
    ApprovedBy imageId (x :: log) (x :: later) middle earlier a p where
  split := by rw [h.split]; rfl
  proposed := h.proposed
  byOwner := h.byOwner
  waited := h.waited
  activated := h.activated
  uninterrupted := h.uninterrupted
  unrevoked := by
    intro e he
    rcases List.mem_cons.mp he with rfl | he
    · exact hx
    · exact h.unrevoked e he

theorem Open.cons (h : Open log later p earlier imageId) (hx : ¬ Ends imageId x) :
    Open (x :: log) (x :: later) p earlier imageId where
  split := by rw [h.split]; rfl
  proposed := h.proposed
  nonzero := h.nonzero
  unended := by
    intro e he
    rcases List.mem_cons.mp he with rfl | he
    · exact hx
    · exact h.unended e he

/-- An open proposal of the grown log is the new entry, or an old one that the new entry leaves
open. -/
theorem Open.cons_cases (h : Open (x :: log) later p earlier imageId) :
    (later = [] ∧ p = x ∧ x.proposes = some imageId) ∨
      ∃ rest, later = x :: rest ∧ Open log rest p earlier imageId ∧ ¬ Ends imageId x := by
  rcases Log.cons_split h.split with ⟨hlater, heq, -⟩ | ⟨rest, hlater, hlog⟩
  · exact Or.inl ⟨hlater, heq.symm, by rw [heq]; exact h.proposed⟩
  · refine Or.inr ⟨rest, hlater, ⟨hlog, h.proposed, h.nonzero, fun e he => ?_⟩, ?_⟩
    · exact h.unended e (hlater ▸ List.mem_cons_of_mem _ he)
    · exact h.unended x (hlater ▸ List.mem_cons_self)

end Grow

/-- What is left to show of a logged call that proposes nothing: `Open` proposals come from before
it. -/
theorem Inv.grow {s next : State} {x : Entry} (h : Inv s) (hlog : next.log = x :: s.log)
    (hproposes : x.proposes = none)
    (happroved : ∀ imageId, next.contract.approvedImages imageId = true →
      ∃ later middle earlier a p, ApprovedBy imageId next.log later middle earlier a p)
    (hslot : ∀ imageId, ¬ Ends imageId x → s.contract.pendingApproval.imageId = imageId →
      imageId ≠ zero32 → next.contract.pendingApproval = s.contract.pendingApproval)
    (hpending : next.contract.pendingApproval.imageId ≠ zero32 →
      next.contract.pendingApproval = s.contract.pendingApproval ∧
        ¬ Ends s.contract.pendingApproval.imageId x) : Inv next where
  approved := happroved
  slot := by
    intro later p earlier imageId hopen
    rw [hlog] at hopen
    rcases hopen.cons_cases with ⟨-, -, hnew⟩ | ⟨rest, -, hold, hends⟩
    · rw [hproposes] at hnew
      cases hnew
    · have hthis := h.slot rest p earlier imageId hold
      rw [hslot imageId hends hthis.1 hold.nonzero]
      exact hthis
  single := by
    intro later p earlier imageId later' p' earlier' imageId' hopen hopen'
    rw [hlog] at hopen hopen'
    rcases hopen.cons_cases with ⟨-, -, hnew⟩ | ⟨rest, rfl, hold, -⟩
    · rw [hproposes] at hnew
      cases hnew
    · rcases hopen'.cons_cases with ⟨-, -, hnew⟩ | ⟨rest', rfl, hold', -⟩
      · rw [hproposes] at hnew
        cases hnew
      · rw [h.single _ _ _ _ _ _ _ _ hold hold']
  pending := by
    intro hne
    obtain ⟨hsame, hends⟩ := hpending hne
    rw [hsame] at hne ⊢
    obtain ⟨later, p, earlier, hopen, howner⟩ := h.pending hne
    rw [hlog]
    exact ⟨x :: later, p, earlier, hopen.cons hends, howner⟩

/-- Approvals that were there before an entry which does not revoke them. -/
theorem Inv.approved_cons {s : State} (h : Inv s) {x : Entry} {imageId : Bytes32}
    (hx : x.call ≠ .revokeImage imageId) (hold : s.contract.approvedImages imageId = true) :
    ∃ later middle earlier a p, ApprovedBy imageId (x :: s.log) later middle earlier a p := by
  obtain ⟨later, middle, earlier, a, p, happroved⟩ := h.approved imageId hold
  exact ⟨x :: later, middle, earlier, a, p, happroved.cons hx⟩

theorem proposes_eq_none {x : Entry}
    (h : ∀ imageId commitHash, x.call ≠ .proposeImage imageId commitHash) :
    x.proposes = none := by
  unfold Entry.proposes
  split
  next imageId commitHash hcall => exact absurd hcall (h imageId commitHash)
  next => rfl

/-- A proposal fills the slot that was empty, so that no other is open. -/
theorem Inv.proposed {s : State} (h : Inv s) {x : Entry} (hbefore : x.before = s.contract)
    {imageId : Bytes32} {commitHash : Bytes} (hcall : x.call = .proposeImage imageId commitHash)
    (howner : x.transaction.sender = s.contract.owner)
    (hfree : s.contract.pendingApproval.imageId = zero32) (clock : Nat) :
    Inv
      { contract :=
          { s.contract with
            pendingApproval := ⟨imageId, x.timestamp + s.contract.cooldownSeconds, commitHash⟩ }
        clock
        log := x :: s.log } := by
  have hproposes : x.proposes = some imageId := by simp [Entry.proposes, hcall]
  have honly : ∀ later p earlier other, Open (x :: s.log) later p earlier other →
      later = [] ∧ p = x ∧ other = imageId := by
    intro later p earlier other hopen
    rcases hopen.cons_cases with ⟨hlater, hp, hnew⟩ | ⟨rest, -, hold, -⟩
    · rw [hproposes] at hnew
      exact ⟨hlater, hp, (Option.some.inj hnew).symm⟩
    · exact absurd ((h.slot _ _ _ _ hold).1.symm.trans hfree) hold.nonzero
  constructor
  · intro other hold
    exact h.approved_cons (by simp [hcall]) hold
  · intro later p earlier other hopen
    obtain ⟨-, rfl, rfl⟩ := honly later p earlier other hopen
    refine ⟨rfl, ?_⟩
    rw [Entry.activatesAt, hbefore]
  · intro later p earlier other later' p' earlier' other' hopen hopen'
    rw [(honly later p earlier other hopen).1, (honly later' p' earlier' other' hopen').1]
  · intro hne
    exact ⟨[], x, s.log, ⟨rfl, hproposes, hne, by simp⟩, by rw [hbefore]; exact howner⟩

/-- An activation approves the open proposal, whose cooldown is over. -/
theorem Inv.activated {s : State} (h : Inv s) {x : Entry} (hcall : x.call = .activateImage)
    (hpending : s.contract.pendingApproval.imageId ≠ zero32)
    (htime : s.contract.pendingApproval.activatesAt ≤ x.timestamp) (clock : Nat) :
    Inv
      { contract :=
          { s.contract with
            approvedImages :=
              Function.update s.contract.approvedImages s.contract.pendingApproval.imageId true
            pendingApproval := .deleted }
        clock
        log := x :: s.log } := by
  apply h.grow (x := x) rfl (proposes_eq_none (by simp [hcall]))
  · intro imageId hnow
    by_cases hthis : imageId = s.contract.pendingApproval.imageId
    · subst hthis
      obtain ⟨later, p, earlier, hopen, howner⟩ := h.pending hpending
      rw [(h.slot _ _ _ _ hopen).2] at htime
      exact ⟨[], later, earlier, x, p,
        { split := by rw [hopen.split]; rfl
          proposed := hopen.proposed
          byOwner := howner
          waited := htime
          activated := hcall
          uninterrupted := hopen.unended
          unrevoked := by simp }⟩
    · have hold : Function.update s.contract.approvedImages s.contract.pendingApproval.imageId true
          imageId = true := hnow
      rw [Function.update_of_ne hthis] at hold
      exact h.approved_cons (by simp [hcall]) hold
  · exact fun _ hends => absurd (Or.inl hcall) hends
  · exact fun hne => absurd rfl hne

/-- A revocation takes the approval of its image. -/
theorem Inv.approved_revoke {s : State} (h : Inv s) {x : Entry} {revoked : Bytes32}
    (hcall : x.call = .revokeImage revoked) {imageId : Bytes32}
    (hnow : Function.update s.contract.approvedImages revoked false imageId = true) :
    ∃ later middle earlier a p, ApprovedBy imageId (x :: s.log) later middle earlier a p := by
  by_cases hthis : imageId = revoked
  · subst hthis
    rw [Function.update_self] at hnow
    cases hnow
  · rw [Function.update_of_ne hthis] at hnow
    refine h.approved_cons ?_ hnow
    rw [hcall]
    exact fun heq => hthis (Call.revokeImage.inj heq).symm

theorem Inv.executed {s : State} (h : Inv s) {x : Entry} (hbefore : x.before = s.contract)
    {call : Call} (hcall : x.call = call) {c : KmsVerifiable} {events : List Event}
    (hexecuted : Executed s.contract x.transaction.sender x.timestamp call c events)
    (clock : Nat) : Inv ⟨c, clock, x :: s.log⟩ := by
  cases hexecuted with
  | transferOwnership newOwner howner =>
      exact h.grow (x := x) rfl (proposes_eq_none (by simp [hcall]))
        (fun _ hold => h.approved_cons (by simp [hcall]) hold) (fun _ _ _ _ => rfl)
        (fun _ => ⟨rfl, by simp [Ends, hcall]⟩)
  | setCooldownSeconds n howner =>
      exact h.grow (x := x) rfl (proposes_eq_none (by simp [hcall]))
        (fun _ hold => h.approved_cons (by simp [hcall]) hold) (fun _ _ _ _ => rfl)
        (fun _ => ⟨rfl, by simp [Ends, hcall]⟩)
  | proposeImage imageId commitHash howner hfree =>
      exact h.proposed hbefore hcall howner hfree clock
  | activateImage hpending htime => exact h.activated hcall hpending htime clock
  | clearPendingImage howner hpending =>
      exact h.grow (x := x) rfl (proposes_eq_none (by simp [hcall]))
        (fun _ hold => h.approved_cons (by simp [hcall]) hold)
        (fun _ hends => absurd (Or.inr (Or.inl hcall)) hends) (fun hne => absurd rfl hne)
  | revokePending howner =>
      refine h.grow (x := x) rfl (proposes_eq_none (by simp [hcall]))
        (fun _ hnow => h.approved_revoke hcall hnow) ?_ (fun hne => absurd rfl hne)
      rintro imageId hends rfl -
      exact absurd (Or.inr (Or.inr hcall)) hends
  | revokeImage imageId howner hother =>
      refine h.grow (x := x) rfl (proposes_eq_none (by simp [hcall]))
        (fun _ hnow => h.approved_revoke hcall hnow) (fun _ _ _ _ => rfl) (fun _ => ⟨rfl, ?_⟩)
      simp only [Ends, hcall, reduceCtorEq, Call.revokeImage.injEq, false_or]
      exact fun heq => hother heq.symm

theorem inv_step {s next : State} {t : Transaction} (h : Inv s) (hstep : step s t = some next) :
    Inv next := by
  obtain ⟨contract, clock, log⟩ := next
  obtain ⟨-, -, ⟨rfl, rfl⟩ | ⟨events, hexecuted, rfl⟩⟩ := step_cases hstep
  · exact ⟨h.approved, h.slot, h.single, h.pending⟩
  · exact h.executed (x := ⟨t, s.contract, events⟩) rfl rfl hexecuted clock

/-- Over every history of calls, by any callers and at any times that do not go back, an approval
has waited out the cooldown of its proposal without interruption. -/
theorem approval_needs_timelock {deployer : Address} {initialCooldownSeconds clock : Nat}
    {transactions : List Transaction} {s : State}
    (hrun : Transition.run step (init deployer initialCooldownSeconds clock) transactions =
      some s) : TimelockHolds s := by
  have hinv : Inv s := Transition.run_invariant_all (fun _ _ _ h hstep => inv_step h hstep)
    (inv_init deployer initialCooldownSeconds clock) hrun
  constructor
  · exact hinv.approved
  · exact hinv.slot
  · exact hinv.single
  · intro hne
    obtain ⟨later, p, earlier, hopen, -⟩ := hinv.pending hne
    exact ⟨later, p, earlier, hopen⟩
  · exact fun _ _ hstep hne => keepsOrEnds_of_step hstep hne
  · exact fun _ _ hstep hcall => configured_of_step hstep hcall

/-! ## A proposal that is approved -/

namespace TimelockExample

def image : Bytes32 := ⟨List.replicate 32 1, rfl⟩

def transaction (sender timestamp : Nat) (call : Call) : Transaction :=
  ⟨sender, timestamp, call, image, timestamp, 0⟩

/-- The owner proposes at 10, changes the cooldown, and someone else activates in time. -/
def transactions : List Transaction :=
  [transaction 7 10 (.proposeImage image []), transaction 7 20 (.setCooldownSeconds 0),
    transaction 8 20 .activateImage, transaction 8 110 .activateImage]

def approved : State := Transition.final step (init 7 100 0) transactions

end TimelockExample

open TimelockExample in
theorem approval_needs_timelock_waited :
    approved.contract.oysterKMSVerify image = true ∧ TimelockHolds approved := by
  refine ⟨by decide, ?_⟩
  exact approval_needs_timelock (Transition.run_eq_final (by decide))

end Lightfriend.Contract
