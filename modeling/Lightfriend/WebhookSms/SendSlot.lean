import Lightfriend.Core.Concurrent
import Lightfriend.Core.Database
import Lightfriend.Core.RowLock
import Lightfriend.Core.Transition

/-! # The daily cap of a webhook token

`claim_send_slot` reads the clock, and in one transaction resets the window of
the token when it has ended, reads the row, and raises the counter below the
cap. `revoke` stamps the row. Each statement is atomic on the row; those of
several calls interleave.
-/

namespace Lightfriend.WebhookSms

/-! ## The row -/

structure WebhookToken where
  userId : Int
  label : String
  dailyCap : Nat
  dailySent : Int
  dailyResetAt : Int
  lastUsedAt : Option Int
  revokedAt : Option Int
deriving DecidableEq, Repr

structure TokenRow extends WebhookToken where
  /-- The clocks of the claims that raised the counter. No code reads it. -/
  claims : List Int
deriving DecidableEq, Repr

def nextUtcMidnight (now : Int) : Int := (now.tdiv 86400 + 1) * 86400

theorem lt_nextUtcMidnight (now : Int) : now < nextUtcMidnight now :=
  Int.lt_tdiv_add_one_mul_self now (by decide)

namespace TokenRow

def windowEnded (now : Int) (r : TokenRow) : Bool := r.dailyResetAt ≤ now

def resetWindow (now : Int) (r : TokenRow) : TokenRow :=
  { r with dailySent := 0, dailyResetAt := nextUtcMidnight now }

def hasSlot (r : TokenRow) : Bool := r.revokedAt.isNone && r.dailySent < r.dailyCap

def increment (now : Int) (r : TokenRow) : TokenRow :=
  { r with
    dailySent := r.dailySent + 1
    lastUsedAt := some now
    claims := r.claims ++ [now] }

def revocable (userId : Int) (r : TokenRow) : Bool := r.userId = userId && r.revokedAt.isNone

def revoke (now : Int) (r : TokenRow) : TokenRow := { r with revokedAt := some now }

/-- The claims whose clock lies in the day that ends at `midnight`. -/
def claimsOf (r : TokenRow) (midnight : Int) : List Int :=
  r.claims.filter (fun now => nextUtcMidnight now = midnight)

end TokenRow

/-! ## The calls -/

/-- `owner` is the transaction of the statement. -/
inductive TokenStatement
  | resetWindow (owner : Nat) (now : Int)
  | readToken (owner : Nat)
  | increment (owner : Nat) (now : Int)
  | commit (owner : Nat)
  | countOwned (userId : Int)
  /-- A transaction of its own. -/
  | revoke (owner : Nat) (userId now : Int)
deriving DecidableEq, Repr

abbrev TokenAnswer : TokenStatement → Type
  | .resetWindow _ _ => Bool
  | .readToken _ => Option WebhookToken
  | .increment _ _ => Option Bool
  | .commit _ => Bool
  | .countOwned _ => Option Bool
  | .revoke _ _ _ => Bool

abbrev TokenStore : Type := LockedRow TokenRow

namespace TokenStatement

/-- The statement has to wait for the lock of another transaction. -/
def waits (t : TokenStore) : TokenStatement → Bool
  | resetWindow owner now => t.waits owner (TokenRow.windowEnded now)
  | increment owner _ => t.waits owner TokenRow.hasSlot
  | revoke owner userId _ => t.waits owner (TokenRow.revocable userId)
  | _ => false

/-- A failure inside the transaction rolls it back; a commit may lose its answer. -/
def exec : Exec TokenStatement TokenAnswer StatementFate TokenStore := fun s fate t =>
  match s with
  | resetWindow owner now =>
      match fate with
      | .done => ((t.update owner (TokenRow.windowEnded now) (TokenRow.resetWindow now)).1, true)
      | _ => (t.rollback owner, false)
  | readToken owner =>
      match fate with
      | .done => (t, some (t.view owner).toWebhookToken)
      | _ => (t.rollback owner, none)
  | increment owner now =>
      match fate with
      | .done =>
          ((t.update owner TokenRow.hasSlot (TokenRow.increment now)).1,
            some (t.update owner TokenRow.hasSlot (TokenRow.increment now)).2)
      | _ => (t.rollback owner, none)
  | commit owner =>
      match fate with
      | .done => (t.commit owner, true)
      | .refused => (t.rollback owner, false)
      | .lost => (t.commit owner, false)
  | countOwned userId => (t, fate.answer (t.committed.userId = userId))
  | revoke owner userId now =>
      (fate.after t ((t.update owner (TokenRow.revocable userId) (TokenRow.revoke now)).1.commit
        owner), (fate.answer ()).isSome)

end TokenStatement

inductive ClaimResult
  | ok (token : WebhookToken)
  | revoked
  | overCap (dailyCap : Nat) (dailySent : Int)
deriving DecidableEq, Repr

def ClaimResult.isRefused : ClaimResult → Bool
  | ok _ => false
  | revoked => true
  | overCap _ _ => true

inductive TokenResult
  | claim (result : Except String ClaimResult)
  | revoke (result : Except String Bool)

abbrev TokenProgram (ρ : Type) : Type := Program TokenStatement TokenAnswer ρ

section Calls

variable (owner : Nat) (now : Int)

def readToken : TokenProgram (Option WebhookToken) := .issue (.readToken owner) .done

/-- Commit and return the result. -/
def finish (result : ClaimResult) : TokenProgram TokenResult :=
  .issue (.commit owner) (fun committed =>
    .done (.claim (if committed then .ok result else .error "DatabaseError")))

def failed : TokenProgram TokenResult := .done (.claim (.error "DatabaseError"))

/-- A claim that affected no row is told apart by the row. -/
def refuse : TokenProgram TokenResult := do
  match ← readToken owner with
  | none => failed
  | some fresh =>
      if fresh.revokedAt.isSome then finish owner .revoked
      else finish owner (.overCap fresh.dailyCap fresh.dailySent)

def accept : TokenProgram TokenResult := do
  match ← readToken owner with
  | none => failed
  | some updated => finish owner (.ok updated)

def takeSlot : TokenProgram TokenResult :=
  .issue (.increment owner now) (fun affected =>
    match affected with
    | none => failed
    | some false => refuse owner
    | some true => accept owner)

def checkToken : TokenProgram TokenResult := do
  match ← readToken owner with
  | none => failed
  | some row =>
      if row.revokedAt.isSome then finish owner .revoked else takeSlot owner now

/-- The transaction of `claim_send_slot`, after the reading of the clock. -/
def claimSendSlot : TokenProgram TokenResult :=
  .issue (.resetWindow owner now) (fun ok => if ok then checkToken owner now else failed)

def revokeToken (userId : Int) : TokenProgram TokenResult :=
  .issue (.countOwned userId) (fun owned =>
    match owned with
    | none => .done (.revoke (.error "DatabaseError"))
    | some false => .done (.revoke (.ok false))
    | some true => .issue (.revoke owner userId now) (fun ok =>
        .done (.revoke (if ok then .ok true else .error "DatabaseError"))))

end Calls

/-! ## What a row and its versions keep -/

namespace TokenRow

/-- No day has more claims than the cap, no later day than the row's has any, and the counter
covers those of the row's day. -/
structure Capped (r : TokenRow) : Prop where
  capped : ∀ midnight, (r.claimsOf midnight).length ≤ r.dailyCap
  later : ∀ midnight, r.dailyResetAt < midnight → r.claimsOf midnight = []
  counted : ((r.claimsOf r.dailyResetAt).length : Int) ≤ r.dailySent

/-- A later version of the row: a revoked token stays revoked and has no new claims. -/
structure Later (r r' : TokenRow) : Prop where
  userId : r'.userId = r.userId
  dailyCap : r'.dailyCap = r.dailyCap
  revoked : r.revokedAt.isSome = true → r'.revokedAt.isSome = true ∧ r'.claims = r.claims

variable {r r' r'' : TokenRow}

theorem Later.refl (r : TokenRow) : Later r r := ⟨rfl, rfl, fun h => ⟨h, rfl⟩⟩

theorem Later.trans (h : Later r r') (h' : Later r' r'') : Later r r'' := by
  refine ⟨h'.userId.trans h.userId, h'.dailyCap.trans h.dailyCap, fun hrevoked => ?_⟩
  obtain ⟨hrevoked', hclaims⟩ := h.revoked hrevoked
  obtain ⟨hrevoked'', hclaims'⟩ := h'.revoked hrevoked'
  exact ⟨hrevoked'', hclaims'.trans hclaims⟩

theorem later_resetWindow (r : TokenRow) (now : Int) : Later r (r.resetWindow now) :=
  ⟨rfl, rfl, fun h => ⟨h, rfl⟩⟩

theorem later_revoke (r : TokenRow) (now : Int) : Later r (r.revoke now) :=
  ⟨rfl, rfl, fun _ => ⟨rfl, rfl⟩⟩

theorem later_increment (hslot : r.hasSlot = true) (now : Int) : Later r (r.increment now) := by
  refine ⟨rfl, rfl, fun hrevoked => ?_⟩
  have hactive : r.revokedAt.isNone = true := (Bool.and_eq_true_iff.mp hslot).1
  rw [Option.isNone_iff_eq_none.mp hactive] at hrevoked
  cases hrevoked

theorem Capped.resetWindow (h : r.Capped) {now : Int} (hended : r.windowEnded now = true) :
    (r.resetWindow now).Capped := by
  have hle : r.dailyResetAt ≤ now := of_decide_eq_true hended
  have hlt := lt_nextUtcMidnight now
  refine ⟨h.capped, fun midnight hlater => ?_, ?_⟩
  · change nextUtcMidnight now < midnight at hlater
    exact h.later midnight (by omega)
  · change ((r.claimsOf (nextUtcMidnight now)).length : Int) ≤ 0
    rw [h.later (nextUtcMidnight now) (by omega)]
    exact le_refl _

theorem claimsOf_increment (r : TokenRow) (now midnight : Int) :
    (r.increment now).claimsOf midnight =
      r.claimsOf midnight ++ if nextUtcMidnight now = midnight then [now] else [] := by
  unfold claimsOf
  change (r.claims ++ [now]).filter _ = _
  rw [List.filter_append]
  by_cases h : nextUtcMidnight now = midnight
  · simp [h]
  · simp [h]

theorem Capped.increment (h : r.Capped) {now : Int} (hslot : r.hasSlot = true)
    (hday : r.dailyResetAt = nextUtcMidnight now) : (r.increment now).Capped := by
  have hcounted := h.counted
  have hfree : r.dailySent < r.dailyCap := of_decide_eq_true (Bool.and_eq_true_iff.mp hslot).2
  refine ⟨fun midnight => ?_, fun midnight hlater => ?_, ?_⟩
  · rw [claimsOf_increment]
    by_cases heq : nextUtcMidnight now = midnight
    · rw [if_pos heq, List.length_append, List.length_singleton, ← heq, ← hday]
      change _ ≤ r.dailyCap
      omega
    · rw [if_neg heq, List.append_nil]
      exact h.capped midnight
  · change r.dailyResetAt < midnight at hlater
    rw [claimsOf_increment, if_neg (by omega), List.append_nil]
    exact h.later midnight hlater
  · change (((r.increment now).claimsOf r.dailyResetAt).length : Int) ≤ r.dailySent + 1
    rw [claimsOf_increment, if_pos hday.symm, List.length_append, List.length_singleton]
    omega

theorem Capped.revoke (h : r.Capped) (now : Int) : (r.revoke now).Capped :=
  ⟨h.capped, h.later, h.counted⟩

end TokenRow

/-! ## What a statement keeps -/

namespace TokenStatement

abbrev Kept (t : TokenStore) : Prop := t.Holds TokenRow.Capped TokenRow.Later

/-- A claim raises the counter in the window of its own day. -/
def ownDay (t : TokenStore) (fate : StatementFate) : TokenStatement → Bool
  | increment owner now =>
      fate ≠ .done || (t.view owner).dailyResetAt = nextUtcMidnight now
  | _ => true

variable {t : TokenStore} {fate : StatementFate}

theorem Kept.update {owner : Nat} {p : TokenRow → Bool} {set : TokenRow → TokenRow}
    (h : Kept t) (hset : p (t.view owner) = true → (t.view owner).Capped →
      (set (t.view owner)).Capped ∧ TokenRow.Later (t.view owner) (set (t.view owner))) :
    Kept (t.update owner p set).1 := by
  refine LockedRow.Holds.update h TokenRow.Later.refl (fun hmatch hcapped hlater => ?_)
  obtain ⟨hcapped', hlater'⟩ := hset hmatch hcapped
  exact ⟨hcapped', hlater.trans hlater'⟩

/-- The transaction of `revoke`. -/
theorem Kept.revoke (h : Kept t) (owner : Nat) (userId now : Int) :
    Kept (t.update owner (TokenRow.revocable userId) (TokenRow.revoke now)).1 :=
  Kept.update h (fun _ hcapped => ⟨hcapped.revoke now, TokenRow.later_revoke _ now⟩)

theorem Kept.exec (h : Kept t) {stmt : TokenStatement} (hown : stmt.ownDay t fate = true) :
    Kept (exec stmt fate t).1 := by
  cases stmt with
  | resetWindow owner now =>
      cases fate with
      | done =>
          refine Kept.update h (fun hended hcapped => ?_)
          exact ⟨hcapped.resetWindow hended, TokenRow.later_resetWindow _ now⟩
      | refused => exact LockedRow.Holds.rollback h owner
      | lost => exact LockedRow.Holds.rollback h owner
  | readToken owner =>
      cases fate with
      | done => exact h
      | refused => exact LockedRow.Holds.rollback h owner
      | lost => exact LockedRow.Holds.rollback h owner
  | increment owner now =>
      cases fate with
      | done =>
          have hday : (t.view owner).dailyResetAt = nextUtcMidnight now := by
            simpa [ownDay] using hown
          refine Kept.update h (fun hslot hcapped => ?_)
          exact ⟨hcapped.increment hslot hday, TokenRow.later_increment hslot now⟩
      | refused => exact LockedRow.Holds.rollback h owner
      | lost => exact LockedRow.Holds.rollback h owner
  | commit owner =>
      cases fate with
      | done => exact LockedRow.Holds.commit h TokenRow.Later.refl owner
      | refused => exact LockedRow.Holds.rollback h owner
      | lost => exact LockedRow.Holds.commit h TokenRow.Later.refl owner
  | countOwned userId => exact h
  | revoke owner userId now =>
      have hwritten := LockedRow.Holds.commit (Kept.revoke h owner userId now)
        TokenRow.Later.refl owner
      cases fate with
      | done => exact hwritten
      | refused => exact h
      | lost => exact hwritten

/-- What is committed afterwards is a later version. -/
theorem later_exec (h : Kept t) (stmt : TokenStatement) :
    TokenRow.Later t.committed (exec stmt fate t).1.committed := by
  have hrollback : ∀ owner, TokenRow.Later t.committed (t.rollback owner).committed := by
    intro owner
    rw [LockedRow.rollback_committed]
    exact TokenRow.Later.refl _
  have hupdate : ∀ owner p set,
      TokenRow.Later t.committed (t.update owner p set).1.committed := by
    intro owner p set
    rw [LockedRow.update_committed]
    exact TokenRow.Later.refl _
  have hcommit : ∀ owner, TokenRow.Later t.committed (t.commit owner).committed :=
    LockedRow.Holds.commit_rel h TokenRow.Later.refl
  cases stmt with
  | resetWindow owner now =>
      cases fate with
      | done => exact hupdate _ _ _
      | _ => exact hrollback owner
  | readToken owner =>
      cases fate with
      | done => exact TokenRow.Later.refl _
      | _ => exact hrollback owner
  | increment owner now =>
      cases fate with
      | done => exact hupdate _ _ _
      | _ => exact hrollback owner
  | commit owner =>
      cases fate with
      | refused => exact hrollback owner
      | _ => exact hcommit owner
  | countOwned userId => exact TokenRow.Later.refl _
  | revoke owner userId now =>
      have hwritten := LockedRow.Holds.commit_rel (Kept.revoke h owner userId now)
        TokenRow.Later.refl owner
      rw [LockedRow.update_committed] at hwritten
      cases fate with
      | refused => exact TokenRow.Later.refl _
      | _ => exact hwritten

/-- A revocation of the owner that did not wait stamps the row. -/
theorem revoked_of_revoke {owner : Nat} {userId now : Int}
    (hwaits : (revoke owner userId now).waits t = false) (howned : t.committed.userId = userId)
    (hfate : fate ≠ .refused) (h : Kept t) :
    (exec (revoke owner userId now) fate t).1.committed.revokedAt.isSome = true := by
  have hafter : (exec (revoke owner userId now) fate t).1 =
      (t.update owner (TokenRow.revocable userId) (TokenRow.revoke now)).1.commit owner := by
    cases fate with
    | refused => exact absurd rfl hfate
    | _ => rfl
  rw [hafter]
  cases hrevoked : t.committed.revokedAt with
  | some revokedAt =>
      have hlater := (LockedRow.Holds.commit_rel (Kept.revoke h owner userId now)
        TokenRow.Later.refl owner).revoked
      rw [LockedRow.update_committed] at hlater
      exact (hlater (by rw [hrevoked]; rfl)).1
  | none =>
      have hmatch : TokenRow.revocable userId t.committed = true := by
        simp [TokenRow.revocable, howned, hrevoked]
      have hfree : t.heldByOther owner = false := by
        simpa [waits, LockedRow.waits, hmatch] using hwaits
      rcases t.update_cases owner (TokenRow.revocable userId) (TokenRow.revoke now) with
        hsame | ⟨_, hupdate⟩
      · rw [hsame, LockedRow.commit, if_neg (by simp [hfree])]
        cases hview : (t.view owner).revokedAt with
        | some revokedAt => rfl
        | none =>
            have huser := (h.view TokenRow.Later.refl owner).2.userId
            have hmatch' : TokenRow.revocable userId (t.view owner) = true := by
              simp [TokenRow.revocable, huser, howned, hview]
            rw [LockedRow.update, hmatch', hfree] at hsame
            cases congrArg Prod.snd hsame
      · rw [hupdate]
        simp [LockedRow.commit, LockedRow.heldByOther, LockedRow.view, TokenRow.revoke]

end TokenStatement

/-! ## What a call knows -/

structure TokenKnown where
  /-- Its increment affected the row. -/
  incremented : Bool
  /-- The user that was found to own the token, and the user that it was revoked for. -/
  owned : Option Int
  revoked : Option Int
deriving DecidableEq, Repr

def TokenKnown.nothing : TokenKnown := ⟨false, none, none⟩

def TokenKnown.next (k : TokenKnown) (s : TokenStatement) (fate : StatementFate)
    (t : TokenStore) : TokenKnown :=
  match s with
  | .increment owner now =>
      { k with incremented := k.incremented ||
          (TokenStatement.exec (.increment owner now) fate t).2 = some true }
  | .countOwned userId =>
      if (TokenStatement.exec (.countOwned userId) fate t).2 = some true then
        { k with owned := some userId }
      else k
  | .revoke owner userId now =>
      if (TokenStatement.exec (.revoke owner userId now) fate t).2 = true then
        { k with revoked := some userId }
      else k
  | _ => k

def tokenProtocol : Protocol TokenStatement.exec TokenKnown where
  allows _ _ := True
  admits _ := True
  next := TokenKnown.next

/-- A claim that is refused has raised no counter; a revocation that is confirmed has revoked the
token for its owner. -/
def TokenKnown.ends (k : TokenKnown) : TokenResult → Prop
  | .claim (.ok result) => result.isRefused = true → k.incremented = false
  | .revoke (.ok true) => ∃ userId, k.owned = some userId ∧ k.revoked = some userId
  | _ => True

abbrev TokenObeys (k : TokenKnown) (p : TokenProgram TokenResult) : Prop :=
  tokenProtocol.Obeys TokenKnown.ends k p

section Obeys

variable {k : TokenKnown} {owner : Nat} {now : Int}

theorem obeys_finish {result : ClaimResult}
    (h : result.isRefused = true → k.incremented = false) : TokenObeys k (finish owner result) := by
  refine ⟨trivial, fun fate t _ => ?_⟩
  change TokenKnown.ends k (.claim (if (TokenStatement.exec (.commit owner) fate t).2 then
    .ok result else .error "DatabaseError"))
  split
  · exact h
  · trivial

theorem obeys_readToken {rest : Option WebhookToken → TokenProgram TokenResult}
    (h : ∀ row, TokenObeys k (rest row)) : TokenObeys k (readToken owner >>= rest) :=
  ⟨trivial, fun _ _ _ => h _⟩

theorem obeys_refuse (h : k.incremented = false) : TokenObeys k (refuse owner) := by
  refine obeys_readToken (fun row => ?_)
  cases row with
  | none => trivial
  | some fresh =>
      change TokenObeys k (if fresh.revokedAt.isSome then finish owner .revoked
        else finish owner (.overCap fresh.dailyCap fresh.dailySent))
      split
      · exact obeys_finish (fun _ => h)
      · exact obeys_finish (fun _ => h)

theorem obeys_accept : TokenObeys k (accept owner) := by
  refine obeys_readToken (fun row => ?_)
  cases row with
  | none => trivial
  | some updated => exact obeys_finish (fun hrefused => by cases hrefused)

theorem obeys_takeSlot (h : k.incremented = false) : TokenObeys k (takeSlot owner now) := by
  refine ⟨trivial, fun fate t _ => ?_⟩
  change TokenObeys { k with incremented := k.incremented ||
      (TokenStatement.exec (.increment owner now) fate t).2 = some true }
    (match (TokenStatement.exec (.increment owner now) fate t).2 with
      | none => failed
      | some false => refuse owner
      | some true => accept owner)
  cases (TokenStatement.exec (.increment owner now) fate t).2 with
  | none => trivial
  | some affected =>
      cases affected with
      | true => exact obeys_accept
      | false => exact obeys_refuse (by simp [h])

theorem obeys_claimSendSlot : TokenObeys .nothing (claimSendSlot owner now) := by
  refine ⟨trivial, fun fate t _ => ?_⟩
  change TokenObeys .nothing (if (TokenStatement.exec (.resetWindow owner now) fate t).2 then
    checkToken owner now else failed)
  split
  · refine obeys_readToken (fun row => ?_)
    cases row with
    | none => trivial
    | some row =>
        change TokenObeys .nothing (if row.revokedAt.isSome then finish owner .revoked
          else takeSlot owner now)
        split
        · exact obeys_finish (fun _ => rfl)
        · exact obeys_takeSlot rfl
  · trivial

theorem obeys_revokeToken (userId : Int) :
    TokenObeys .nothing (revokeToken owner now userId) := by
  refine ⟨trivial, fun fate t _ => ?_⟩
  change TokenObeys
    (if (TokenStatement.exec (.countOwned userId) fate t).2 = some true then
      { TokenKnown.nothing with owned := some userId } else .nothing)
    (match (TokenStatement.exec (.countOwned userId) fate t).2 with
      | none => .done (.revoke (.error "DatabaseError"))
      | some false => .done (.revoke (.ok false))
      | some true => .issue (.revoke owner userId now) (fun ok =>
          .done (.revoke (if ok then .ok true else .error "DatabaseError"))))
  cases (TokenStatement.exec (.countOwned userId) fate t).2 with
  | none => trivial
  | some owned =>
      cases owned with
      | false => trivial
      | true =>
          refine ⟨trivial, fun fate t _ => ?_⟩
          change TokenKnown.ends
            (if (TokenStatement.exec (.revoke owner userId now) fate t).2 = true then
              { TokenKnown.nothing with owned := some userId, revoked := some userId }
              else { TokenKnown.nothing with owned := some userId })
            (.revoke (if (TokenStatement.exec (.revoke owner userId now) fate t).2 then .ok true
              else .error "DatabaseError"))
          cases (TokenStatement.exec (.revoke owner userId now) fate t).2 with
          | false => trivial
          | true => exact ⟨userId, rfl, rfl⟩

end Obeys

/-! ## Every run -/

abbrev TokenState : Type :=
  Concurrent TokenStatement TokenAnswer TokenStore TokenKnown TokenResult

inductive TokenAction
  /-- A claim begins and reads the clock. -/
  | claim (now : Int)
  | revoke (userId now : Int)
  | issue (i : Nat) (fate : StatementFate)
deriving DecidableEq, Repr

namespace TokenState

/-- A new token. -/
def start (userId : Int) (label : String) (dailyCap : Nat) (dailyResetAt : Int) : TokenState where
  store :=
    { committed :=
        { userId := userId
          label := label
          dailyCap := dailyCap
          dailySent := 0
          dailyResetAt := dailyResetAt
          lastUsedAt := none
          revokedAt := none
          claims := [] }
      working := none }
  running := []

/-- The number of a call is its transaction. A statement that has to wait is not issued. -/
def step (s : TokenState) : TokenAction → Option TokenState
  | .claim now =>
      some (Concurrent.start s .nothing (claimSendSlot s.running.length now))
  | .revoke userId now =>
      some (Concurrent.start s .nothing (revokeToken s.running.length now userId))
  | .issue i fate =>
      if s.nextMeets (fun _ stmt => !stmt.waits s.store) i then
        Concurrent.issue tokenProtocol s i fate
      else none

def claimsOwnDay (s : TokenState) : TokenAction → Bool
  | .issue i fate => s.nextMeets (fun _ stmt => stmt.ownDay s.store fate) i
  | _ => true

/-- Whom the call found to own the token owns it, and for whom it revoked it, it is revoked. -/
def Fits (k : TokenKnown) (t : TokenStore) : Prop :=
  (∀ userId, k.owned = some userId → t.committed.userId = userId) ∧
    ∀ userId, k.revoked = some userId → t.committed.userId = userId →
      t.committed.revokedAt.isSome = true

theorem Fits.later {k : TokenKnown} {t t' : TokenStore} (h : Fits k t)
    (hlater : TokenRow.Later t.committed t'.committed) : Fits k t' := by
  refine ⟨fun userId howned => hlater.userId.trans (h.1 userId howned), ?_⟩
  intro userId hrevoked huser
  exact (hlater.revoked (h.2 userId hrevoked (hlater.userId.symm.trans huser))).1

theorem Fits.next {k : TokenKnown} {t : TokenStore} {stmt : TokenStatement}
    {fate : StatementFate} (h : Fits k t) (hkept : TokenStatement.Kept t)
    (hwaits : stmt.waits t = false) :
    Fits (k.next stmt fate t) (TokenStatement.exec stmt fate t).1 := by
  have hlater : TokenRow.Later t.committed (TokenStatement.exec stmt fate t).1.committed :=
    TokenStatement.later_exec hkept stmt
  have hfits := h.later hlater
  cases stmt with
  | countOwned userId =>
      simp only [TokenKnown.next]
      split
      next hanswer =>
        refine ⟨fun userId' howned => ?_, hfits.2⟩
        cases howned
        have hvalue := (StatementFate.answer_eq_some hanswer).2
        exact of_decide_eq_true hvalue
      next => exact hfits
  | revoke owner userId now =>
      simp only [TokenKnown.next]
      split
      next hanswer =>
        have hfate : fate ≠ .refused := by
          rintro rfl
          cases hanswer
        refine ⟨hfits.1, fun userId' hrevoked huser => ?_⟩
        cases hrevoked
        exact TokenStatement.revoked_of_revoke hwaits (hlater.userId.symm.trans huser) hfate hkept
      next => exact hfits
  | _ => exact hfits

structure Inv (s : TokenState) : Prop where
  sound : s.Sound tokenProtocol TokenStatement.Kept Fits
  ends : s.Ends tokenProtocol TokenKnown.ends

variable {s next : TokenState} {a : TokenAction}

theorem Inv.begin (h : s.Inv) {p : TokenProgram TokenResult} (hobeys : TokenObeys .nothing p) :
    Inv (Concurrent.start s .nothing p) := by
  have hfits : Fits .nothing s.store :=
    ⟨(fun _ howned => by cases howned), (fun _ hrevoked => by cases hrevoked)⟩
  exact ⟨h.sound.start hfits (hobeys.weaken (fun _ _ _ => trivial)), h.ends.start hobeys⟩

theorem Inv.step (h : s.Inv) (hown : s.claimsOwnDay a = true) (hstep : s.step a = some next) :
    next.Inv := by
  cases a with
  | claim now =>
      cases hstep
      exact h.begin obeys_claimSendSlot
  | revoke userId now =>
      cases hstep
      exact h.begin (obeys_revokeToken userId)
  | issue i fate =>
      simp only [TokenState.step, Option.ite_none_right_eq_some] at hstep
      obtain ⟨hfree, hissue⟩ := hstep
      obtain ⟨r, stmt, rest, hr, hprogram, hnext⟩ := Concurrent.issue_spec hissue
      have hwaits : stmt.waits s.store = false := by
        simpa using Concurrent.nextMeets_spec hfree hr hprogram
      have hown' : s.nextMeets (fun _ stmt => stmt.ownDay s.store fate) i = true := hown
      have hday := Concurrent.nextMeets_spec hown' hr hprogram
      have hkept := h.sound.store
      refine ⟨?_, h.ends.issue trivial hissue⟩
      rw [hnext]
      have hobeys := h.sound.obeys r (List.mem_of_getElem? hr)
      rw [hprogram] at hobeys
      have hlater : TokenRow.Later s.store.committed
          (TokenStatement.exec stmt fate s.store).1.committed :=
        TokenStatement.later_exec hkept stmt
      refine ⟨TokenStatement.Kept.exec hkept hday, fun r' hr' => ?_, fun r' hr' => ?_⟩
      · rcases List.mem_or_eq_of_mem_set hr' with hold | heq
        · exact (h.sound.fits r' hold).later hlater
        · rw [heq]
          exact (h.sound.fits r (List.mem_of_getElem? hr)).next hkept hwaits
      · rcases List.mem_or_eq_of_mem_set hr' with hold | heq
        · exact h.sound.obeys r' hold
        · rw [heq]
          exact hobeys.2 fate s.store trivial

theorem later_step (h : s.Inv) (hstep : s.step a = some next) :
    TokenRow.Later s.store.committed next.store.committed := by
  cases a with
  | claim now =>
      cases hstep
      exact TokenRow.Later.refl _
  | revoke userId now =>
      cases hstep
      exact TokenRow.Later.refl _
  | issue i fate =>
      simp only [TokenState.step, Option.ite_none_right_eq_some] at hstep
      obtain ⟨r, stmt, rest, _, _, rfl⟩ := Concurrent.issue_spec hstep.2
      exact TokenStatement.later_exec h.sound.store stmt

/-- The cap, the revocation and the refusals, from one state of a run to a later one. -/
structure SlotLaw (s final : TokenState) : Prop where
  capped : ∀ midnight, (final.store.committed.claimsOf midnight).length ≤
    final.store.committed.dailyCap
  revoked : (∃ r ∈ s.running, r.program = .done (.revoke (.ok true))) →
    final.store.committed.claims = s.store.committed.claims
  refused : ∀ r ∈ final.running, ∀ result, r.program = .done (.claim (.ok result)) →
    result.isRefused = true → r.known.incremented = false

theorem inv_start (userId : Int) (label : String) (dailyCap : Nat) (dailyResetAt : Int) :
    (start userId label dailyCap dailyResetAt).Inv := by
  constructor
  · refine Concurrent.sound_of_none_running ⟨⟨?_, ?_, ?_⟩, ?_⟩
    · exact fun _ => Nat.zero_le _
    · exact fun _ _ => rfl
    · exact le_refl _
    · intro holder row hworking
      cases hworking
  · intro r hr
    cases hr

end TokenState

namespace TokenExample

def token : TokenState := .start 1 "alerts" 2 86400

/-- The five statements of an accepted claim. -/
def accepted (i : Nat) : List TokenAction := List.replicate 5 (.issue i .done)

/-- A claim of the first day, and a revocation. -/
def revokedAfterOne : List TokenAction :=
  [.claim 100] ++ accepted 0 ++ [.revoke 1 200, .issue 1 .done, .issue 1 .done]

/-- A claim of a revoked token: the window, the row, the end of the transaction. -/
def refusedLater : List TokenAction := [.claim 300] ++ List.replicate 3 (.issue 2 .done)

/-- The third claim reads its clock before midnight. The fourth, read after it, resets the window,
and the third is counted there. -/
def overMidnight : List TokenAction :=
  [.claim 100] ++ accepted 0 ++ [.claim 200] ++ accepted 1 ++ [.claim 86399, .claim 86400] ++
    accepted 3 ++ accepted 2

def reached (s : TokenState) (actions : List TokenAction) : TokenState :=
  Transition.final TokenState.step s actions

end TokenExample

end Lightfriend.WebhookSms
