import Lightfriend.Core.Bytes
import Lightfriend.Core.Log
import Lightfriend.Core.Transition

/-! # The verifier contract

The contract approves an enclave image after a cooldown. One image is pending
at a time; the zero id marks the empty slot, so a proposal of it is none.
-/

namespace Lightfriend.Contract

abbrev Bytes32 := { bytes : Bytes // bytes.length = 32 }

def zero32 : Bytes32 := ⟨List.replicate 32 0, rfl⟩

/-- `uint160`. -/
abbrev Address := Nat

/-! ## The contract -/

structure PendingImage where
  imageId : Bytes32
  activatesAt : Nat
  commitHash : Bytes
deriving DecidableEq

/-- `delete pendingApproval`. -/
def PendingImage.deleted : PendingImage := ⟨zero32, 0, []⟩

structure KmsVerifiable where
  owner : Address
  cooldownSeconds : Nat
  pendingApproval : PendingImage
  approvedImages : Bytes32 → Bool

inductive Event
  | ownershipTransferred (previousOwner newOwner : Address)
  | cooldownUpdated (previousCooldownSeconds newCooldownSeconds : Nat)
  | imageProposed (imageId : Bytes32) (commitHash : Bytes) (activatesAt : Nat)
  | pendingImageCleared (imageId : Bytes32)
  | imageActivated (imageId : Bytes32)
  | imageRevoked (imageId : Bytes32)
deriving DecidableEq

inductive Revert
  | notOwner
  | pendingActivation
  | nothingPending
  | timelockActive (activatesAt : Nat)
  | newOwnerIsZero
  | overflow
deriving DecidableEq

inductive Call
  | transferOwnership (newOwner : Address)
  | setCooldownSeconds (newCooldownSeconds : Nat)
  | proposeImage (imageId : Bytes32) (commitHash : Bytes)
  | activateImage
  | clearPendingImage
  | revokeImage (imageId : Bytes32)
deriving DecidableEq

/-- The contract after a call, and what it emits. -/
abbrev Outcome := Except Revert (KmsVerifiable × List Event)

namespace KmsVerifiable

/-- `constructor`. -/
def deploy (sender : Address) (initialCooldownSeconds : Nat) : KmsVerifiable where
  owner := sender
  cooldownSeconds := initialCooldownSeconds
  pendingApproval := .deleted
  approvedImages := fun _ => false

def onlyOwner (c : KmsVerifiable) (sender : Address) (body : Outcome) : Outcome :=
  if sender ≠ c.owner then .error .notOwner else body

def transferOwnership (c : KmsVerifiable) (sender newOwner : Address) : Outcome :=
  c.onlyOwner sender <|
    if newOwner = 0 then .error .newOwnerIsZero
    else .ok ({ c with owner := newOwner }, [.ownershipTransferred c.owner newOwner])

def setCooldownSeconds (c : KmsVerifiable) (sender : Address) (newCooldownSeconds : Nat) :
    Outcome :=
  c.onlyOwner sender <|
    .ok ({ c with cooldownSeconds := newCooldownSeconds },
      [.cooldownUpdated c.cooldownSeconds newCooldownSeconds])

/-- The sum is checked, as every `uint256` operation is. -/
def proposeImage (c : KmsVerifiable) (sender : Address) (timestamp : Nat) (imageId : Bytes32)
    (commitHash : Bytes) : Outcome :=
  c.onlyOwner sender <|
    if c.pendingApproval.imageId ≠ zero32 then .error .pendingActivation
    else if 2 ^ 256 ≤ timestamp + c.cooldownSeconds then .error .overflow
    else
      let activatesAt := timestamp + c.cooldownSeconds
      .ok ({ c with pendingApproval := ⟨imageId, activatesAt, commitHash⟩ },
        [.imageProposed imageId commitHash activatesAt])

def activateImage (c : KmsVerifiable) (timestamp : Nat) : Outcome :=
  let pending := c.pendingApproval
  if pending.imageId = zero32 then .error .nothingPending
  else if timestamp < pending.activatesAt then .error (.timelockActive pending.activatesAt)
  else
    .ok ({ c with
        approvedImages := Function.update c.approvedImages pending.imageId true
        pendingApproval := .deleted },
      [.imageActivated pending.imageId, .pendingImageCleared pending.imageId])

def clearPendingImage (c : KmsVerifiable) (sender : Address) : Outcome :=
  c.onlyOwner sender <|
    let imageId := c.pendingApproval.imageId
    if imageId = zero32 then .error .nothingPending
    else .ok ({ c with pendingApproval := .deleted }, [.pendingImageCleared imageId])

def revokeImage (c : KmsVerifiable) (sender : Address) (imageId : Bytes32) : Outcome :=
  c.onlyOwner sender <|
    let revoked := Function.update c.approvedImages imageId false
    if c.pendingApproval.imageId = imageId then
      .ok ({ c with approvedImages := revoked, pendingApproval := .deleted },
        [.pendingImageCleared imageId, .imageRevoked imageId])
    else .ok ({ c with approvedImages := revoked }, [.imageRevoked imageId])

def oysterKMSVerify (c : KmsVerifiable) (imageId : Bytes32) : Bool := c.approvedImages imageId

def execute (c : KmsVerifiable) (sender : Address) (timestamp : Nat) : Call → Outcome
  | .transferOwnership newOwner => c.transferOwnership sender newOwner
  | .setCooldownSeconds newCooldownSeconds => c.setCooldownSeconds sender newCooldownSeconds
  | .proposeImage imageId commitHash => c.proposeImage sender timestamp imageId commitHash
  | .activateImage => c.activateImage timestamp
  | .clearPendingImage => c.clearPendingImage sender
  | .revokeImage imageId => c.revokeImage sender imageId

end KmsVerifiable

/-! ## Histories -/

/-- A call as the chain carries it out: `logIndex` is the place of its first log in the block. -/
structure Transaction where
  sender : Address
  timestamp : Nat
  call : Call
  hash : Bytes32
  blockNumber : Nat
  logIndex : Nat
deriving DecidableEq

/-- A call that did not revert, with the contract before it. -/
structure Entry where
  transaction : Transaction
  before : KmsVerifiable
  events : List Event

namespace Entry

def call (e : Entry) : Call := e.transaction.call

def timestamp (e : Entry) : Nat := e.transaction.timestamp

/-- The image a proposal proposes. -/
def proposes (e : Entry) : Option Bytes32 :=
  match e.call with
  | .proposeImage imageId _ => some imageId
  | _ => none

/-- The first time at which the proposal may be activated. -/
def activatesAt (e : Entry) : Nat := e.timestamp + e.before.cooldownSeconds

end Entry

structure State where
  contract : KmsVerifiable
  clock : Nat
  /-- Newest first; no code reads it. -/
  log : List Entry

/-- A reverted call changes nothing. -/
def step (s : State) (t : Transaction) : Option State :=
  if s.clock ≤ t.timestamp then
    some (match s.contract.execute t.sender t.timestamp t.call with
      | .error _ => { s with clock := t.timestamp }
      | .ok (next, events) =>
          { contract := next
            clock := t.timestamp
            log := ⟨t, s.contract, events⟩ :: s.log })
  else none

def init (deployer : Address) (initialCooldownSeconds clock : Nat) : State :=
  ⟨.deploy deployer initialCooldownSeconds, clock, []⟩

/-! ## What a call does -/

/-- A call that does not revert, what it leaves and what it emits. -/
inductive Executed (c : KmsVerifiable) (sender : Address) (timestamp : Nat) :
    Call → KmsVerifiable → List Event → Prop
  | transferOwnership (newOwner : Address) (howner : sender = c.owner) :
      Executed c sender timestamp (.transferOwnership newOwner) { c with owner := newOwner }
        [.ownershipTransferred c.owner newOwner]
  | setCooldownSeconds (n : Nat) (howner : sender = c.owner) :
      Executed c sender timestamp (.setCooldownSeconds n) { c with cooldownSeconds := n }
        [.cooldownUpdated c.cooldownSeconds n]
  | proposeImage (imageId : Bytes32) (commitHash : Bytes) (howner : sender = c.owner)
      (hfree : c.pendingApproval.imageId = zero32) :
      Executed c sender timestamp (.proposeImage imageId commitHash)
        { c with pendingApproval := ⟨imageId, timestamp + c.cooldownSeconds, commitHash⟩ }
        [.imageProposed imageId commitHash (timestamp + c.cooldownSeconds)]
  | activateImage (hpending : c.pendingApproval.imageId ≠ zero32)
      (htime : c.pendingApproval.activatesAt ≤ timestamp) :
      Executed c sender timestamp .activateImage
        { c with
          approvedImages := Function.update c.approvedImages c.pendingApproval.imageId true
          pendingApproval := .deleted }
        [.imageActivated c.pendingApproval.imageId,
          .pendingImageCleared c.pendingApproval.imageId]
  | clearPendingImage (howner : sender = c.owner) (hpending : c.pendingApproval.imageId ≠ zero32) :
      Executed c sender timestamp .clearPendingImage { c with pendingApproval := .deleted }
        [.pendingImageCleared c.pendingApproval.imageId]
  | revokePending (howner : sender = c.owner) :
      Executed c sender timestamp (.revokeImage c.pendingApproval.imageId)
        { c with
          approvedImages := Function.update c.approvedImages c.pendingApproval.imageId false
          pendingApproval := .deleted }
        [.pendingImageCleared c.pendingApproval.imageId, .imageRevoked c.pendingApproval.imageId]
  | revokeImage (imageId : Bytes32) (howner : sender = c.owner)
      (hother : c.pendingApproval.imageId ≠ imageId) :
      Executed c sender timestamp (.revokeImage imageId)
        { c with approvedImages := Function.update c.approvedImages imageId false }
        [.imageRevoked imageId]

section Calls

variable {c next : KmsVerifiable} {sender : Address} {timestamp : Nat} {events : List Event}

theorem onlyOwner_eq_ok {body : Outcome} (h : c.onlyOwner sender body = .ok (next, events)) :
    sender = c.owner ∧ body = .ok (next, events) := by
  unfold KmsVerifiable.onlyOwner at h
  split at h
  · cases h
  next howner => exact ⟨not_not.mp howner, h⟩

theorem execute_spec {call : Call} (h : c.execute sender timestamp call = .ok (next, events)) :
    Executed c sender timestamp call next events := by
  cases call with
  | transferOwnership newOwner =>
      obtain ⟨howner, h⟩ := onlyOwner_eq_ok h
      split at h
      · cases h
      · cases h
        exact .transferOwnership newOwner howner
  | setCooldownSeconds n =>
      obtain ⟨howner, h⟩ := onlyOwner_eq_ok h
      cases h
      exact .setCooldownSeconds n howner
  | proposeImage imageId commitHash =>
      obtain ⟨howner, h⟩ := onlyOwner_eq_ok h
      split at h
      · cases h
      next hfree =>
        split at h
        · cases h
        · cases h
          exact .proposeImage imageId commitHash howner (not_not.mp hfree)
  | activateImage =>
      simp only [KmsVerifiable.execute, KmsVerifiable.activateImage] at h
      split at h
      · cases h
      next hpending =>
        split at h
        · cases h
        next htime =>
          cases h
          exact .activateImage hpending (not_lt.mp htime)
  | clearPendingImage =>
      obtain ⟨howner, h⟩ := onlyOwner_eq_ok h
      split at h
      · cases h
      next hpending =>
        cases h
        exact .clearPendingImage howner hpending
  | revokeImage imageId =>
      obtain ⟨howner, h⟩ := onlyOwner_eq_ok h
      split at h
      next hsame =>
        cases h
        subst hsame
        exact .revokePending howner
      next hother =>
        cases h
        exact .revokeImage imageId howner hother

end Calls

/-- A step is a reverted call, or one that is carried out and logged. -/
theorem step_cases {s next : State} {t : Transaction} (h : step s t = some next) :
    s.clock ≤ t.timestamp ∧ next.clock = t.timestamp ∧
      (next.contract = s.contract ∧ next.log = s.log ∨
        ∃ events, Executed s.contract t.sender t.timestamp t.call next.contract events ∧
          next.log = ⟨t, s.contract, events⟩ :: s.log) := by
  unfold step at h
  rw [Option.ite_none_right_eq_some] at h
  obtain ⟨hclock, h⟩ := h
  refine ⟨hclock, ?_⟩
  cases hexecute : s.contract.execute t.sender t.timestamp t.call with
  | error revert =>
      rw [hexecute] at h
      cases h
      exact ⟨rfl, Or.inl ⟨rfl, rfl⟩⟩
  | ok result =>
      rw [hexecute] at h
      cases h
      exact ⟨rfl, Or.inr ⟨result.2, execute_spec hexecute, rfl⟩⟩

end Lightfriend.Contract
