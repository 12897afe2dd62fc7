import Lightfriend.Auth.MagicLink
import Lightfriend.Auth.Pending
import Lightfriend.Core.Transition

/-! # One-time credentials

The endpoints that make and redeem login tokens, voice tickets and magic links, in any
order and under any clock.
-/

namespace Lightfriend.Auth.OneTime

/-- A login with the right password of a user with a second factor. -/
structure Accepted where
  token : String
  password : String
  user : User
deriving DecidableEq, Repr

structure State where
  clock : Int
  pending : Pending
  magic : Magic
  accepted : List Accepted

def init (users : Users) : State := ⟨0, ⟨[], [], 0, []⟩, ⟨users, [], 0, []⟩, []⟩

inductive Action
  | tick (now : Int)
  /-- `found` is the row that `find_by_email` returns, and `twoFactor` says whether its user has
  an authenticator or a passkey. -/
  | login (email password token : String) (found : Option Int) (twoFactor : Bool)
  | issueTicket (userId : Int) (ticket : String)
  | consumeTicket (ticket : String)
  | loginStart (token : String)
  | verifyLogin (token : String)
  /-- The factor of a verification has been checked. -/
  | finishLogin (number : Nat) (valid : Bool)
  | magic (a : MagicAction)
deriving DecidableEq, Repr

namespace State

def withPending (s : State) (p : Pending) : State := { s with pending := p }

def accept (s : State) (token password : String) (user : User) : State :=
  { s with
    pending := s.pending.createLogin token user.id s.clock
    accepted := ⟨token, password, user⟩ :: s.accepted }

/-- The end of a login whose user is found. A user without a second factor gets a session and
no token. -/
def passwordChecked (verify : String → String → Bool) (s : State) (token password : String)
    (twoFactor : Bool) (user : User) : State :=
  if verify password user.passwordHash && twoFactor then s.accept token password user else s

end State

/-- What a login may find: a row of the email, or none if there is no such row. -/
def mayFind (lower : String → String) (users : Users) (email : String) : Option Int → Bool
  | none => users.rows.all (fun u => decide (lower u.email ≠ lower email))
  | some id => users.rows.any (fun u => decide (u.id = id ∧ lower u.email = lower email))

/-- `lower` is the database's and `verify` is `bcrypt::verify`, an error counted as no match.
Tokens and tickets are random; one that has been made is not made again. -/
def step (lower : String → String) (verify : String → String → Bool) (s : State) :
    Action → Option State
  | .tick now => some { s with clock := now }
  | .login email password token found twoFactor =>
      if isLoginToken token && !s.pending.log.any (PendingEntry.makes token) &&
          mayFind lower s.magic.users email found then
        match found.bind s.magic.users.find? with
        | none => some s
        | some user => some (s.passwordChecked verify token password twoFactor user)
      else none
  | .issueTicket userId ticket =>
      if isUuid ticket && !s.pending.log.any (PendingEntry.makes ticket) then
        some (s.withPending (s.pending.issueTicket ticket userId s.clock))
      else none
  | .consumeTicket ticket => some (s.withPending (s.pending.consumeTicket ticket s.clock))
  | .loginStart token => some (s.withPending (s.pending.loginStart token s.clock))
  | .verifyLogin token => some (s.withPending (s.pending.verifyLogin token s.clock))
  | .finishLogin number valid =>
      (s.pending.request? number).map (fun r =>
        if valid then s.withPending (s.pending.openSession r s.clock)
        else s.withPending (s.pending.finish r))
  | .magic a => (magicStep s.clock s.magic a).map (fun m => { s with magic := m })

/-- No voice key in the map is presented as a login token, a factor is found right while the
token is still in the map and before it expires, and magic links are redeemed alone. -/
def Alone (s : State) : Action → Prop
  | .verifyLogin token => isVoiceKey token = true → s.pending.get token = none
  | .finishLogin number valid =>
      valid = true → ∀ r ∈ s.pending.request? number,
        (s.pending.get r.token).isSome = true ∧ s.clock < r.expiry
  | .magic a => MagicAlone s.magic a
  | _ => True

instance (s : State) (a : Action) : Decidable (Alone s a) := by
  cases a <;> unfold Alone <;> infer_instance

/-- A token was made by a login with the right password of its user. -/
def ByPassword (verify : String → String → Bool) (s : State) : Prop :=
  ∀ token userId expiry, .created token userId expiry ∈ s.pending.log →
    ∃ a ∈ s.accepted, a.token = token ∧ a.user.id = userId ∧
      verify a.password a.user.passwordHash = true

/-- Each credential is redeemed at most once and for its purpose. -/
structure RedeemedOnce (verify : String → String → Bool) (s : State) : Prop where
  loginTokens : LoginTokensOnce s.pending.log
  byPassword : ByPassword verify s
  magicTokens : MagicTokensOnce s.magic.log
  tickets : TicketsOnce s.pending.log
  purposes : PurposesApart s.pending.log

structure Inv (verify : String → String → Bool) (s : State) : Prop where
  pending : PendingInv s.pending
  magic : MagicInv s.magic
  byPassword : ByPassword verify s

variable {lower : String → String} {verify : String → String → Bool} {s t : State}

theorem Inv.redeemedOnce (h : Inv verify s) : RedeemedOnce verify s where
  loginTokens := h.pending.loginTokensOnce
  byPassword := h.byPassword
  magicTokens := h.magic.once
  tickets := h.pending.ticketsOnce
  purposes := h.pending.purposesApart

theorem inv_init {users : Users} (h : ∀ u ∈ users, u.magicToken = none) :
    Inv verify (init users) where
  pending := pendingInv_init
  magic := magicInv_init h
  byPassword := fun _ _ _ hin => by cases hin

/-- An operation that makes no token. -/
theorem Inv.withPending (h : Inv verify s) {p : Pending} (hp : PendingInv p)
    (hcreated : ∀ token userId expiry, .created token userId expiry ∈ p.log →
      .created token userId expiry ∈ s.pending.log) : Inv verify (s.withPending p) where
  pending := hp
  magic := h.magic
  byPassword := fun token userId expiry hin =>
    h.byPassword token userId expiry (hcreated token userId expiry hin)

theorem Inv.passwordChecked (h : Inv verify s) {token : String} (password : String)
    (twoFactor : Bool) (user : User) (htoken : isLoginToken token = true)
    (hnew : s.pending.log.any (PendingEntry.makes token) = false) :
    Inv verify (s.passwordChecked verify token password twoFactor user) := by
  unfold State.passwordChecked
  split
  next hvalid =>
    rw [Bool.and_eq_true] at hvalid
    constructor
    · exact h.pending.createLogin user.id s.clock htoken (not_created_of_new hnew)
    · exact h.magic
    · intro t userId expiry hin
      rcases List.mem_cons.mp hin with heq | hin
      · cases heq
        exact ⟨_, List.mem_cons_self, rfl, rfl, hvalid.1⟩
      · obtain ⟨a, ha, hrest⟩ := h.byPassword t userId expiry hin
        exact ⟨a, List.mem_cons_of_mem _ ha, hrest⟩
  next => exact h

/-! ## What the operations log -/

theorem created_of_consumeTicket {p : Pending} {ticket token : String} {now userId expiry : Int}
    (h : .created token userId expiry ∈ (p.consumeTicket ticket now).log) :
    .created token userId expiry ∈ p.log := by
  unfold Pending.consumeTicket at h
  split at h
  next => exact h
  next =>
    split at h
    · exact List.mem_of_ne_of_mem (by simp) h
    · exact h

theorem loginStart_log (p : Pending) (token : String) (now : Int) :
    (p.loginStart token now).log = p.log := by
  unfold Pending.loginStart
  split
  · rfl
  · split <;> rfl

theorem verifyLogin_log (p : Pending) (token : String) (now : Int) :
    (p.verifyLogin token now).log = p.log := by
  unfold Pending.verifyLogin
  split
  · rfl
  · split <;> rfl

theorem request?_spec {p : Pending} {number : Nat} {r : LoginRequest}
    (h : p.request? number = some r) : r ∈ p.requests :=
  List.mem_of_find?_eq_some h

theorem inv_step {a : Action} (h : Inv verify s) (hok : Alone s a)
    (hstep : step lower verify s a = some t) : Inv verify t := by
  cases a with
  | tick now =>
      rw [← Option.some.inj hstep]
      exact ⟨h.pending, h.magic, h.byPassword⟩
  | login email password token found twoFactor =>
      simp only [step] at hstep
      split at hstep
      next hnew =>
        simp only [Bool.and_eq_true, Bool.not_eq_true'] at hnew
        split at hstep
        next =>
          rw [← Option.some.inj hstep]
          exact h
        next user _ =>
          rw [← Option.some.inj hstep]
          exact h.passwordChecked password twoFactor user hnew.1.1 hnew.1.2
      next => cases hstep
  | issueTicket userId ticket =>
      simp only [step] at hstep
      split at hstep
      next hnew =>
        simp only [Bool.and_eq_true, Bool.not_eq_true'] at hnew
        rw [← Option.some.inj hstep]
        apply h.withPending (h.pending.issueTicket userId s.clock hnew.1 (not_issued_of_new hnew.2))
        intro token owner expiry hin
        exact List.mem_of_ne_of_mem (by simp) hin
      next => cases hstep
  | consumeTicket ticket =>
      rw [← Option.some.inj hstep]
      exact h.withPending (h.pending.consumeTicket ticket s.clock)
        (fun _ _ _ hin => created_of_consumeTicket hin)
  | loginStart token =>
      rw [← Option.some.inj hstep]
      apply h.withPending (h.pending.loginStart token s.clock)
      intro other userId expiry hin
      rwa [loginStart_log] at hin
  | verifyLogin token =>
      rw [← Option.some.inj hstep]
      apply h.withPending (h.pending.verifyLogin s.clock hok)
      intro other userId expiry hin
      rwa [verifyLogin_log] at hin
  | finishLogin number valid =>
      obtain ⟨r, hreq, rfl⟩ := Option.map_eq_some_iff.mp hstep
      cases valid with
      | true =>
          have hthere := hok rfl r hreq
          apply h.withPending (h.pending.openSession (request?_spec hreq) hthere.1 hthere.2)
          intro token userId expiry hin
          exact List.mem_of_ne_of_mem (by simp) hin
      | false => exact h.withPending (h.pending.finish r) (fun _ _ _ hin => hin)
  | magic a =>
      obtain ⟨m, hmagic, rfl⟩ := Option.map_eq_some_iff.mp hstep
      exact ⟨h.pending, magicInv_step h.magic hok hmagic, h.byPassword⟩

/-- Where no voice key is presented as a login token, factors are found right while the token is
there and before it expires, and magic links are redeemed alone, every credential is redeemed at
most once and for its purpose. -/
theorem credentials_are_redeemed_once (lower : String → String)
    (verify : String → String → Bool) {users : Users} (hnone : ∀ u ∈ users, u.magicToken = none)
    {actions : List Action}
    (hmeets : Transition.Meets (step lower verify) Alone (init users) actions)
    (hrun : Transition.run (step lower verify) (init users) actions = some s) :
    RedeemedOnce verify s := by
  have hinv : Inv verify s :=
    Transition.run_invariant (fun _ _ _ h hok hstep => inv_step h hok hstep) (inv_init hnone)
      hmeets hrun
  exact hinv.redeemedOnce

/-! ## Credentials redeemed alone and twice -/

/-- A user whose password is its own hash, and one who has none yet. -/
def twoUsers : Users :=
  ⟨[⟨7, "a@x", "right-password", none, none⟩, ⟨8, "b@x", "NOT_SET", none, none⟩], by decide⟩

def sameText (a b : String) : Bool := a == b

def token : String := "aB3dE5gH7jK9mN1pQ2sT4vX6zA8cD0fG"

def ticket : String := "01234567-89ab-4cde-8f01-23456789abcd"

/-- A login, a call and a password, one after the other. -/
def onceEach : List Action :=
  [.tick 100, .login "a@x" "right-password" token (some 7) true, .issueTicket 7 ticket,
    .consumeTicket ticket, .consumeTicket ticket, .consumeTicket token, .verifyLogin ticket,
    .verifyLogin token, .finishLogin 0 true, .verifyLogin token, .magic (.setMagicToken 8 "h"),
    .magic (.setPassword "h" "long-enough" "long-enough"), .magic (.updatePassword 0 .done),
    .magic (.clearMagicToken 0 .done), .magic (.validateMagicLink "h")]

theorem credentials_are_redeemed_once_each :
    RedeemedOnce sameText
      (Transition.final (step id sameText) (init twoUsers) onceEach) :=
  credentials_are_redeemed_once id sameText (show ∀ u ∈ twoUsers, u.magicToken = none by decide)
    (show Transition.Meets (step id sameText) Alone (init twoUsers) onceEach by decide +kernel)
    (Transition.run_eq_final (by decide +kernel))

/-- Two verifications look the token up before either of them removes it, and a ticket's key is
presented as a login token. -/
def redeemedTwice : List Action :=
  [.tick 100, .login "a@x" "right-password" token (some 7) true, .verifyLogin token,
    .verifyLogin token, .finishLogin 0 true, .finishLogin 1 true, .issueTicket 7 ticket,
    .verifyLogin (voiceKey ticket), .finishLogin 2 true, .magic (.setMagicToken 7 "h"),
    .magic (.validateMagicLink "h"), .magic (.validateMagicLink "h"),
    .magic (.clearMagicToken 0 .done), .magic (.clearMagicToken 1 .done)]

theorem credentials_redeemed_twice :
    ∃ s, Transition.run (step id sameText) (init twoUsers) redeemedTwice = some s ∧
      s.pending.log.countP (PendingEntry.opens token) = 2 ∧
      .opened (voiceKey ticket) 7 100 ∈ s.pending.log ∧ .issued ticket 7 ∈ s.pending.log ∧
      s.magic.log.count (.redeemed "h") = 2 :=
  ⟨_, Transition.run_eq_final (by decide +kernel), by decide +kernel, by decide +kernel,
    by decide +kernel, by decide +kernel⟩

end Lightfriend.Auth.OneTime
