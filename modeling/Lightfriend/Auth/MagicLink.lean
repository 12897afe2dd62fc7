import Lightfriend.Core.Database
import Lightfriend.Core.Log
import Lightfriend.Core.Table

/-! # Magic links

A link carries a token whose hash lies in the row of its user for a day. Both handlers
look the row up, act, and clear the token, each in a statement of its own. The
statement that clears it names the user and nothing else.
-/

namespace Lightfriend.Auth

/-- The columns of `users` that logins and magic links use. -/
structure User where
  id : Int
  email : String
  passwordHash : String
  magicToken : Option String
  magicTokenExpiresAt : Option Int
deriving DecidableEq, Repr

namespace User

/-- `password_hash.is_empty() || password_hash == "NOT_SET"`. -/
def needsPassword (u : User) : Bool := u.passwordHash.isEmpty || u.passwordHash == "NOT_SET"

def withMagicToken (hashed : String) (expiresAt : Int) (u : User) : User :=
  { u with magicToken := some hashed, magicTokenExpiresAt := some expiresAt }

def withPassword (passwordHash : String) (u : User) : User := { u with passwordHash := passwordHash }

def cleared (u : User) : User := { u with magicToken := none, magicTokenExpiresAt := none }

theorem withMagicToken_id (hashed : String) (expiresAt : Int) (u : User) :
    (u.withMagicToken hashed expiresAt).id = u.id := rfl

theorem withPassword_id (passwordHash : String) (u : User) :
    (u.withPassword passwordHash).id = u.id := rfl

theorem cleared_id (u : User) : u.cleared.id = u.id := rfl

end User

abbrev Users := Table User Int User.id

inductive MagicStage
  /-- `validate_magic_link` clears the token, then opens a session. -/
  | openSession
  /-- `set_password_from_magic_link` has hashed the password. -/
  | setPassword (passwordHash : String)
  /-- The password is set. -/
  | clear
deriving DecidableEq, Repr

/-- A request that has found the user of its token. -/
structure MagicRequest where
  number : Nat
  hashed : String
  userId : Int
  stage : MagicStage
deriving DecidableEq, Repr

inductive MagicEntry
  | sent (hashed : String) (userId : Int)
  | found (number : Nat)
  /-- A password set, or a session opened without one. -/
  | redeemed (hashed : String)
deriving DecidableEq, Repr

def MagicEntry.sends (hashed : String) : MagicEntry → Bool
  | .sent h _ => decide (h = hashed)
  | _ => false

structure Magic where
  users : Users
  requests : List MagicRequest
  nextRequest : Nat
  log : List MagicEntry

inductive MagicAction
  /-- The signup stores the hash of a new token. -/
  | setMagicToken (userId : Int) (hashed : String)
  | validateMagicLink (hashed : String)
  | setPassword (hashed password passwordHash : String)
  | updatePassword (number : Nat) (fate : StatementFate)
  | clearMagicToken (number : Nat) (fate : StatementFate)
  | abandon (number : Nat)
deriving DecidableEq, Repr

/-- A day. -/
def magicTokenTtl : Int := 24 * 60 * 60

def Users.setMagicToken (users : Users) (userId : Int) (hashed : String) (now : Int) : Users :=
  users.updateWhere (fun u => decide (u.id = userId))
    (User.withMagicToken hashed (now + magicTokenTtl)) (User.withMagicToken_id hashed _)

def Users.updatePassword (users : Users) (userId : Int) (passwordHash : String) : Users :=
  users.updateWhere (fun u => decide (u.id = userId)) (User.withPassword passwordHash)
    (User.withPassword_id passwordHash)

def Users.clearMagicToken (users : Users) (userId : Int) : Users :=
  users.updateWhere (fun u => decide (u.id = userId)) User.cleared User.cleared_id

/-- `find_by_valid_magic_token`. -/
def Users.findByValidMagicToken (users : Users) (hashed : String) (now : Int) : Option User :=
  users.rows.find? (fun u =>
    decide (u.magicToken = some hashed) && u.magicTokenExpiresAt.any (fun at_ => decide (now < at_)))

namespace Magic

def request? (m : Magic) (number : Nat) : Option MagicRequest :=
  m.requests.find? (fun r => r.number = number)

def finish (m : Magic) (r : MagicRequest) : Magic := { m with requests := m.requests.erase r }

def withUsers (m : Magic) (users : Users) : Magic := { m with users := users }

def redeem (m : Magic) (hashed : String) : Magic := { m with log := .redeemed hashed :: m.log }

def find (m : Magic) (hashed : String) (userId : Int) (stage : MagicStage) : Magic :=
  { m with
    requests := m.requests ++ [⟨m.nextRequest, hashed, userId, stage⟩]
    nextRequest := m.nextRequest + 1
    log := .found m.nextRequest :: m.log }

def send (m : Magic) (userId : Int) (hashed : String) (now : Int) : Magic :=
  { m with
    users := m.users.setMagicToken userId hashed now
    log := .sent hashed userId :: m.log }

/-- `validate_magic_link`, up to its lookup. -/
def validate (m : Magic) (hashed : String) (now : Int) : Magic :=
  match m.users.findByValidMagicToken hashed now with
  | none => m
  | some user => if user.needsPassword then m else m.find hashed user.id .openSession

/-- `set_password_from_magic_link`, up to its lookup. -/
def startPassword (m : Magic) (hashed password passwordHash : String) (now : Int) : Magic :=
  if password.utf8ByteSize < 8 then m
  else
    match m.users.findByValidMagicToken hashed now with
    | none => m
    | some user => m.find hashed user.id (.setPassword passwordHash)

/-- The password is stored, and the request goes on to `next`, or ends. -/
def storePassword (m : Magic) (r : MagicRequest) (passwordHash : String)
    (next : List MagicRequest) : Magic :=
  { m with
    users := m.users.updatePassword r.userId passwordHash
    requests := m.requests.erase r ++ next
    log := .redeemed r.hashed :: m.log }

def updatePassword (m : Magic) (r : MagicRequest) (passwordHash : String) :
    StatementFate → Magic
  | .done => m.storePassword r passwordHash [{ r with stage := .clear }]
  | .refused => m.finish r
  | .lost => m.storePassword r passwordHash []

def clear (m : Magic) (r : MagicRequest) : Magic :=
  (m.withUsers (m.users.clearMagicToken r.userId)).finish r

end Magic

/-- A token is random; one that has been sent is not made again. -/
def magicStep (now : Int) (m : Magic) : MagicAction → Option Magic
  | .setMagicToken userId hashed =>
      if m.log.any (MagicEntry.sends hashed) then none else some (m.send userId hashed now)
  | .validateMagicLink hashed => some (m.validate hashed now)
  | .setPassword hashed password passwordHash => some (m.startPassword hashed password passwordHash now)
  | .updatePassword number fate =>
      (m.request? number).bind (fun r =>
        match r.stage with
        | .setPassword passwordHash => some (m.updatePassword r passwordHash fate)
        | _ => none)
  | .clearMagicToken number fate =>
      (m.request? number).bind (fun r =>
        match r.stage, fate with
        | .openSession, .done => some ((m.clear r).redeem r.hashed)
        | .clear, .done => some (m.clear r)
        | .setPassword _, _ => none
        | _, .refused => some (m.finish r)
        | _, .lost => some (m.clear r))
  | .abandon number => (m.request? number).map m.finish

/-- A lookup finds no token with which a password has been set and whose request still has to
clear it, a token is not redeemed behind the back of a request that has looked it up, and
once a password is set the token is cleared. -/
def MagicAlone (m : Magic) : MagicAction → Prop
  | .setMagicToken _ _ => True
  | .validateMagicLink hashed => ∀ r ∈ m.requests, r.stage = .clear → r.hashed ≠ hashed
  | .setPassword hashed _ _ => ∀ r ∈ m.requests, r.stage = .clear → r.hashed ≠ hashed
  | .updatePassword number fate =>
      fate ≠ .lost ∧
        ∀ r ∈ m.request? number, .redeemed r.hashed ∉ Log.since (.found number) m.log
  | .clearMagicToken number fate =>
      ∀ r ∈ m.request? number,
        (r.stage = .clear → fate ≠ .refused) ∧
          (r.stage = .openSession → .redeemed r.hashed ∉ Log.since (.found number) m.log)
  | .abandon number => ∀ r ∈ m.request? number, r.stage ≠ .clear

instance (m : Magic) (a : MagicAction) : Decidable (MagicAlone m a) := by
  cases a <;> unfold MagicAlone <;> infer_instance

/-- A token sets one password or opens one session. -/
def MagicTokensOnce (log : List MagicEntry) : Prop :=
  ∀ hashed, log.count (.redeemed hashed) ≤ 1

/-! ## The invariant -/

structure MagicInv (m : Magic) : Prop where
  carried : ∀ u ∈ m.users, ∀ h, u.magicToken = some h → .sent h u.id ∈ m.log
  sentTo : ∀ h a b, .sent h a ∈ m.log → .sent h b ∈ m.log → a = b
  requested : ∀ r ∈ m.requests, .sent r.hashed r.userId ∈ m.log
  redeemedSent : ∀ h, .redeemed h ∈ m.log → ∃ userId, .sent h userId ∈ m.log
  numbers : ∀ r ∈ m.requests, r.number < m.nextRequest
  /-- A token that a request has looked up was redeemed after the lookup, if at all. -/
  fresh : ∀ r ∈ m.requests, r.stage ≠ .clear → .redeemed r.hashed ∈ m.log →
    .redeemed r.hashed ∈ Log.since (.found r.number) m.log
  /-- A redeemed token that is still stored is about to be cleared. -/
  pending : ∀ u ∈ m.users, ∀ h, u.magicToken = some h → .redeemed h ∈ m.log →
    ∃ r ∈ m.requests, r.stage = .clear ∧ r.hashed = h
  once : MagicTokensOnce m.log

theorem magicInv_init {users : Users} (h : ∀ u ∈ users, u.magicToken = none) :
    MagicInv ⟨users, [], 0, []⟩ where
  carried := fun u hu t ht => by rw [h u hu] at ht; cases ht
  sentTo := fun _ _ _ hin => by cases hin
  requested := fun _ hin => by cases hin
  redeemedSent := fun _ hin => by cases hin
  numbers := fun _ hin => by cases hin
  fresh := fun _ hin => by cases hin
  pending := fun u hu t ht => by rw [h u hu] at ht; cases ht
  once := fun _ => Nat.zero_le _

variable {m : Magic}

theorem Magic.request?_spec {number : Nat} {r : MagicRequest} (h : m.request? number = some r) :
    r ∈ m.requests ∧ r.number = number :=
  ⟨List.mem_of_find?_eq_some h, by simpa using List.find?_some h⟩

/-- No user gets a token. -/
def Users.Within (later users : Users) : Prop :=
  ∀ u ∈ later, ∀ h, u.magicToken = some h → ∃ old ∈ users, old.id = u.id ∧ old.magicToken = some h

theorem Users.updatePassword_within (users : Users) (userId : Int) (passwordHash : String) :
    (users.updatePassword userId passwordHash).Within users := by
  intro u hu h htoken
  obtain ⟨old, hold, rfl⟩ := (Table.mem_updateWhere (User.withPassword_id passwordHash)).mp hu
  refine ⟨old, hold, ?_⟩
  split at htoken
  next hid => exact ⟨by rw [if_pos hid]; rfl, htoken⟩
  next hid => exact ⟨by rw [if_neg hid], htoken⟩

theorem Users.mem_clearMagicToken {users : Users} {userId : Int} {u : User} {h : String}
    (hu : u ∈ users.clearMagicToken userId) (htoken : u.magicToken = some h) :
    u ∈ users ∧ u.id ≠ userId := by
  obtain ⟨old, hold, rfl⟩ := (Table.mem_updateWhere User.cleared_id).mp hu
  split at htoken
  next => cases htoken
  next hid =>
    rw [if_neg hid]
    exact ⟨hold, by simpa using hid⟩

theorem Users.clearMagicToken_within (users : Users) (userId : Int) :
    (users.clearMagicToken userId).Within users := by
  intro u hu h htoken
  have hold := Users.mem_clearMagicToken hu htoken
  exact ⟨u, hold.1, rfl, htoken⟩

theorem Users.findByValidMagicToken_spec {users : Users} {hashed : String} {now : Int} {u : User}
    (h : users.findByValidMagicToken hashed now = some u) :
    u ∈ users ∧ u.magicToken = some hashed := by
  have hsome := List.find?_some h
  simp only [Bool.and_eq_true, decide_eq_true_eq] at hsome
  exact ⟨List.mem_of_find?_eq_some h, hsome.1⟩

/-- A request that ends, with the users it leaves. -/
theorem MagicInv.finish (h : MagicInv m) (r : MagicRequest) {users : Users}
    (hwithin : users.Within m.users)
    (hclear : r.stage = .clear → ∀ u ∈ users, u.magicToken ≠ some r.hashed) :
    MagicInv ((m.withUsers users).finish r) where
  carried := by
    intro u hu t ht
    obtain ⟨old, hold, hid, htoken⟩ := hwithin u hu t ht
    exact hid ▸ h.carried old hold t htoken
  sentTo := h.sentTo
  requested := fun other hother => h.requested other (List.mem_of_mem_erase hother)
  redeemedSent := h.redeemedSent
  numbers := fun other hother => h.numbers other (List.mem_of_mem_erase hother)
  fresh := fun other hother => h.fresh other (List.mem_of_mem_erase hother)
  pending := by
    intro u hu t ht hredeemed
    obtain ⟨old, hold, -, htoken⟩ := hwithin u hu t ht
    obtain ⟨other, hother, hstage, hhash⟩ := h.pending old hold t htoken hredeemed
    refine ⟨other, (List.mem_erase_of_ne ?_).mpr hother, hstage, hhash⟩
    rintro rfl
    exact hclear hstage u hu (hhash ▸ ht)
  once := h.once

/-- The user of a request is the only one who carries its token, and is cleared. -/
theorem MagicInv.not_carried_of_clear (h : MagicInv m) {r : MagicRequest} (hr : r ∈ m.requests) :
    ∀ u ∈ m.users.clearMagicToken r.userId, u.magicToken ≠ some r.hashed := by
  intro u hu htoken
  have hold := Users.mem_clearMagicToken hu htoken
  exact hold.2 (h.sentTo r.hashed _ _ (h.carried u hold.1 r.hashed htoken) (h.requested r hr))

theorem MagicInv.clear (h : MagicInv m) {r : MagicRequest} (hr : r ∈ m.requests) :
    MagicInv (m.clear r) :=
  h.finish r (m.users.clearMagicToken_within r.userId) (fun _ => h.not_carried_of_clear hr)

/-- An entry about no new link and no request under way. -/
theorem MagicInv.cons (h : MagicInv m) {x : MagicEntry} (hsent : ∀ t userId, x ≠ .sent t userId)
    (hfound : ∀ r ∈ m.requests, x ≠ .found r.number)
    (hredeemed : ∀ t, x = .redeemed t → .redeemed t ∉ m.log ∧ (∃ userId, .sent t userId ∈ m.log) ∧
      ∀ u ∈ m.users, u.magicToken = some t → ∃ r ∈ m.requests, r.stage = .clear ∧ r.hashed = t) :
    MagicInv { m with log := x :: m.log } where
  carried := fun u hu t ht => List.mem_cons_of_mem _ (h.carried u hu t ht)
  sentTo := fun t a b ha hb =>
    h.sentTo t a b (List.mem_of_ne_of_mem (hsent t a).symm ha)
      (List.mem_of_ne_of_mem (hsent t b).symm hb)
  requested := fun r hr => List.mem_cons_of_mem _ (h.requested r hr)
  redeemedSent := by
    intro t hin
    rcases List.mem_cons.mp hin with heq | hin
    · obtain ⟨owner, howner⟩ := (hredeemed t heq.symm).2.1
      exact ⟨owner, List.mem_cons_of_mem _ howner⟩
    · obtain ⟨owner, howner⟩ := h.redeemedSent t hin
      exact ⟨owner, List.mem_cons_of_mem _ howner⟩
  numbers := h.numbers
  fresh := by
    intro r hr hstage hin
    show _ ∈ Log.since (.found r.number) (x :: m.log)
    rw [Log.since_cons_of_ne (hfound r hr)]
    rcases List.mem_cons.mp hin with heq | hin
    · rw [heq]
      exact List.mem_cons_self
    · exact List.mem_cons_of_mem _ (h.fresh r hr hstage hin)
  pending := by
    intro u hu t ht hin
    rcases List.mem_cons.mp hin with heq | hin
    · exact (hredeemed t heq.symm).2.2 u hu ht
    · exact h.pending u hu t ht hin
  once := by
    intro t
    have honce := h.once t
    show (x :: m.log).count _ ≤ 1
    rw [List.count_cons]
    split
    next heq =>
      rw [List.count_eq_zero.mpr (hredeemed t (by simpa using heq)).1]
    next => omega

/-- A token is redeemed for the first time, and stored no longer or about to be cleared. -/
theorem MagicInv.redeem (h : MagicInv m) {hashed : String} {userId : Int}
    (hsent : .sent hashed userId ∈ m.log) (hfirst : .redeemed hashed ∉ m.log)
    (hpending : ∀ u ∈ m.users, u.magicToken = some hashed →
      ∃ r ∈ m.requests, r.stage = .clear ∧ r.hashed = hashed) :
    MagicInv (m.redeem hashed) := by
  apply h.cons
  · exact fun _ _ heq => by cases heq
  · exact fun _ _ heq => by cases heq
  · intro t heq
    cases heq
    exact ⟨hfirst, ⟨userId, hsent⟩, hpending⟩

/-- A request for a token that was sent, and that has not been redeemed unless the request is to
clear it. -/
theorem MagicInv.add (h : MagicInv m) {r : MagicRequest} {next : Nat}
    (hsent : .sent r.hashed r.userId ∈ m.log) (hnumber : r.number < next)
    (hnext : m.nextRequest ≤ next) (hfresh : r.stage ≠ .clear → .redeemed r.hashed ∉ m.log) :
    MagicInv ⟨m.users, m.requests ++ [r], next, m.log⟩ where
  carried := h.carried
  sentTo := h.sentTo
  requested := by
    intro other hother
    rcases List.mem_append.mp hother with hother | hother
    · exact h.requested other hother
    · rw [List.mem_singleton.mp hother]
      exact hsent
  redeemedSent := h.redeemedSent
  numbers := by
    intro other hother
    rcases List.mem_append.mp hother with hother | hother
    · exact (h.numbers other hother).trans_le hnext
    · rw [List.mem_singleton.mp hother]
      exact hnumber
  fresh := by
    intro other hother hstage hin
    rcases List.mem_append.mp hother with hother | hother
    · exact h.fresh other hother hstage hin
    · rw [List.mem_singleton.mp hother] at hstage hin
      exact absurd hin (hfresh hstage)
  pending := by
    intro u hu t ht hin
    obtain ⟨other, hother, hrest⟩ := h.pending u hu t ht hin
    exact ⟨other, List.mem_append_left _ hother, hrest⟩
  once := h.once

/-- The lookup of a token that has not been redeemed. -/
theorem MagicInv.find (h : MagicInv m) {u : User} {hashed : String} (hu : u ∈ m.users)
    (htoken : u.magicToken = some hashed) (stage : MagicStage)
    (hclear : ∀ r ∈ m.requests, r.stage = .clear → r.hashed ≠ hashed) :
    MagicInv (m.find hashed u.id stage) := by
  have hlogged : MagicInv { m with log := .found m.nextRequest :: m.log } := by
    apply h.cons
    · exact fun _ _ heq => by cases heq
    · intro r hr heq
      have hnumber := h.numbers r hr
      rw [MagicEntry.found.injEq] at heq
      omega
    · exact fun _ heq => by cases heq
  apply hlogged.add
  · exact List.mem_cons_of_mem _ (h.carried u hu hashed htoken)
  · exact Nat.lt_succ_self _
  · exact Nat.le_succ _
  · intro _ hin
    obtain ⟨other, hother, hstage, hhash⟩ :=
      h.pending u hu hashed htoken (List.mem_of_ne_of_mem (by simp) hin)
    exact hclear other hother hstage hhash

theorem MagicInv.validate (h : MagicInv m) {hashed : String} (now : Int)
    (hclear : ∀ r ∈ m.requests, r.stage = .clear → r.hashed ≠ hashed) :
    MagicInv (m.validate hashed now) := by
  unfold Magic.validate
  split
  next => exact h
  next u hfind =>
    have hu := Users.findByValidMagicToken_spec hfind
    split
    · exact h
    · exact h.find hu.1 hu.2 .openSession hclear

theorem MagicInv.startPassword (h : MagicInv m) {hashed : String} (password passwordHash : String)
    (now : Int) (hclear : ∀ r ∈ m.requests, r.stage = .clear → r.hashed ≠ hashed) :
    MagicInv (m.startPassword hashed password passwordHash now) := by
  unfold Magic.startPassword
  split
  next => exact h
  next =>
    split
    next => exact h
    next u hfind =>
      have hu := Users.findByValidMagicToken_spec hfind
      exact h.find hu.1 hu.2 (.setPassword passwordHash) hclear

theorem Magic.not_sent {hashed : String} (hnew : m.log.any (MagicEntry.sends hashed) = false)
    (userId : Int) : .sent hashed userId ∉ m.log := by
  intro hin
  have hsends := List.any_eq_false.mp hnew _ hin
  simp [MagicEntry.sends] at hsends

/-- A token that was never sent. -/
theorem MagicInv.send (h : MagicInv m) (userId now : Int) {hashed : String}
    (hnew : m.log.any (MagicEntry.sends hashed) = false) :
    MagicInv (m.send userId hashed now) := by
  have hnot := Magic.not_sent hnew
  have huser : ∀ u ∈ m.users.setMagicToken userId hashed now, ∀ t, u.magicToken = some t →
      (t = hashed ∧ u.id = userId) ∨ u ∈ m.users := by
    intro u hu t ht
    obtain ⟨old, hold, rfl⟩ := (Table.mem_updateWhere (User.withMagicToken_id hashed _)).mp hu
    split at ht
    next hid =>
      rw [if_pos hid]
      exact Or.inl ⟨(Option.some.inj ht).symm, of_decide_eq_true hid⟩
    next hid =>
      rw [if_neg hid]
      exact Or.inr hold
  constructor
  · intro u hu t ht
    rcases huser u hu t ht with ⟨rfl, hid⟩ | hold
    · rw [hid]
      exact List.mem_cons_self
    · exact List.mem_cons_of_mem _ (h.carried u hold t ht)
  · intro t a b ha hb
    rcases List.mem_cons.mp ha with heqa | ha <;> rcases List.mem_cons.mp hb with heqb | hb
    · cases heqa
      cases heqb
      rfl
    · cases heqa
      exact absurd hb (hnot b)
    · cases heqb
      exact absurd ha (hnot a)
    · exact h.sentTo t a b ha hb
  · exact fun r hr => List.mem_cons_of_mem _ (h.requested r hr)
  · intro t hin
    obtain ⟨owner, howner⟩ := h.redeemedSent t (List.mem_of_ne_of_mem (by simp) hin)
    exact ⟨owner, List.mem_cons_of_mem _ howner⟩
  · exact h.numbers
  · intro r hr hstage hin
    show _ ∈ Log.since (.found r.number) (.sent hashed userId :: m.log)
    rw [Log.since_cons_of_ne (by simp)]
    exact List.mem_cons_of_mem _ (h.fresh r hr hstage (List.mem_of_ne_of_mem (by simp) hin))
  · intro u hu t ht hin
    have hold := List.mem_of_ne_of_mem (by simp) hin
    rcases huser u hu t ht with ⟨rfl, -⟩ | hu
    · obtain ⟨owner, howner⟩ := h.redeemedSent t hold
      exact absurd howner (hnot owner)
    · exact h.pending u hu t ht hold
  · intro t
    show (MagicEntry.sent hashed userId :: m.log).count _ ≤ 1
    rw [List.count_cons_of_ne (by simp)]
    exact h.once t

/-- The request goes on to clear the token. -/
theorem MagicInv.advance (h : MagicInv m) {r : MagicRequest} (hr : r ∈ m.requests)
    (hstage : r.stage ≠ .clear) {users : Users} (hwithin : users.Within m.users) :
    MagicInv ⟨users, m.requests.erase r ++ [{ r with stage := .clear }], m.nextRequest, m.log⟩ := by
  have hended := h.finish r hwithin (fun hclear => absurd hclear hstage)
  apply hended.add
  · exact h.requested r hr
  · exact h.numbers r hr
  · exact le_rfl
  · exact fun hne => absurd rfl hne

/-- A request whose token has not been redeemed since the lookup has the first one. -/
theorem MagicInv.first (h : MagicInv m) {r : MagicRequest} (hr : r ∈ m.requests)
    (hstage : r.stage ≠ .clear)
    (halone : .redeemed r.hashed ∉ Log.since (.found r.number) m.log) :
    .redeemed r.hashed ∉ m.log :=
  fun hin => halone (h.fresh r hr hstage hin)

theorem MagicInv.updatePassword (h : MagicInv m) {r : MagicRequest} (hr : r ∈ m.requests)
    {passwordHash : String} (hstage : r.stage = .setPassword passwordHash) {fate : StatementFate}
    (hlost : fate ≠ .lost)
    (halone : .redeemed r.hashed ∉ Log.since (.found r.number) m.log) :
    MagicInv (m.updatePassword r passwordHash fate) := by
  have hne : r.stage ≠ .clear := by simp [hstage]
  have hwithin := m.users.updatePassword_within r.userId passwordHash
  cases fate with
  | done =>
      have hadvanced := h.advance hr hne hwithin
      exact hadvanced.redeem (h.requested r hr) (h.first hr hne halone)
        (fun _ _ _ => ⟨_, List.mem_append_right _ List.mem_cons_self, rfl, rfl⟩)
  | refused =>
      exact h.finish r (fun u hu t ht => ⟨u, hu, rfl, ht⟩) (fun hclear => absurd hclear hne)
  | lost => exact absurd rfl hlost

theorem magicInv_step {now : Int} {t : Magic} {a : MagicAction} (h : MagicInv m)
    (hok : MagicAlone m a) (hstep : magicStep now m a = some t) : MagicInv t := by
  have hkeep : ∀ r : MagicRequest, r.stage ≠ .clear → MagicInv (m.finish r) :=
    fun r hne => h.finish r (fun u hu t ht => ⟨u, hu, rfl, ht⟩) (fun hclear => absurd hclear hne)
  cases a with
  | setMagicToken userId hashed =>
      simp only [magicStep] at hstep
      split at hstep
      next => cases hstep
      next hnew =>
        rw [← Option.some.inj hstep]
        exact h.send userId now (by simpa using hnew)
  | validateMagicLink hashed =>
      rw [← Option.some.inj hstep]
      exact h.validate now hok
  | setPassword hashed password passwordHash =>
      rw [← Option.some.inj hstep]
      exact h.startPassword password passwordHash now hok
  | updatePassword number fate =>
      obtain ⟨r, hreq, hr⟩ := Option.bind_eq_some_iff.mp hstep
      have hmem := Magic.request?_spec hreq
      split at hr
      next passwordHash hstage =>
        rw [← Option.some.inj hr]
        exact h.updatePassword hmem.1 hstage hok.1 (hmem.2 ▸ hok.2 r hreq)
      next => cases hr
  | clearMagicToken number fate =>
      obtain ⟨r, hreq, hr⟩ := Option.bind_eq_some_iff.mp hstep
      have hmem := Magic.request?_spec hreq
      have halone := hok r hreq
      split at hr
      next hstage =>
        have hne : r.stage ≠ .clear := by simp [hstage]
        rw [← Option.some.inj hr]
        refine (h.clear hmem.1).redeem (h.requested r hmem.1)
          (h.first hmem.1 hne (hmem.2 ▸ halone.2 hstage)) ?_
        intro u hu htoken
        exact absurd htoken (h.not_carried_of_clear hmem.1 u hu)
      next =>
        rw [← Option.some.inj hr]
        exact h.clear hmem.1
      next => cases hr
      next =>
        rw [← Option.some.inj hr]
        exact hkeep r (fun hclear => halone.1 hclear rfl)
      next =>
        rw [← Option.some.inj hr]
        exact h.clear hmem.1
  | abandon number =>
      obtain ⟨r, hreq, rfl⟩ := Option.map_eq_some_iff.mp hstep
      exact hkeep r (hok r hreq)

end Lightfriend.Auth
