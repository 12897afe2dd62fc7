import Lightfriend.Core.Machine

/-! # Pending logins and voice tickets

Login tokens and voice tickets lie in one map, the tickets under a key of their own
form. A verification looks a token up, checks the factor and removes the token in
separate steps; a ticket is removed in the step that looks it up.
-/

namespace Lightfriend.Auth

/-- A verification that has found its token and is checking the factor. -/
structure LoginRequest where
  number : Nat
  token : String
  userId : Int
  expiry : Int
deriving DecidableEq, Repr

inductive PendingEntry
  /-- A login with the right password, up to the second factor. -/
  | created (token : String) (userId expiry : Int)
  /-- A session, at the instant it is opened. -/
  | opened (token : String) (userId openedAt : Int)
  | issued (ticket : String) (userId : Int)
  /-- A voice call. -/
  | called (ticket : String) (userId : Int)
deriving DecidableEq, Repr

/-- `pending_totp_logins` and the verifications under way. -/
structure Pending where
  logins : List (String × Int × Int)
  requests : List LoginRequest
  nextRequest : Nat
  log : List PendingEntry
deriving DecidableEq, Repr

/-- Five minutes. -/
def loginTtl : Int := 300

/-- `WEB_VOICE_TICKET_TTL_SECONDS`. -/
def webVoiceTicketTtlSeconds : Int := 30

def voiceKey (ticket : String) : String := "voice_" ++ ticket

/-- Has the text the form of a voice key? -/
def isVoiceKey (key : String) : Bool := startsWithText key "voice_"

/-- What `Alphanumeric` makes. -/
def isLoginToken (token : String) : Bool := token.toList.all Char.isAlphanum

/-- The text of a uuid has its first hyphen behind eight digits. -/
def isUuid (ticket : String) : Bool := ticket.toList[8]? == some '-'

namespace Pending

def get (p : Pending) (key : String) : Option (Int × Int) :=
  (p.logins.find? (fun e => e.1 = key)).map Prod.snd

def remove (p : Pending) (key : String) : Pending :=
  { p with logins := p.logins.filter (fun e => e.1 ≠ key) }

/-- `DashMap::insert`. -/
def insert (p : Pending) (key : String) (userId expiry : Int) : Pending :=
  { p with logins := (key, userId, expiry) :: (p.remove key).logins }

/-- The end of `login` for a user with a second factor. -/
def createLogin (p : Pending) (token : String) (userId now : Int) : Pending :=
  { p.insert token userId (now + loginTtl) with
    log := .created token userId (now + loginTtl) :: p.log }

/-- The end of `issue_web_voice_ticket`. -/
def issueTicket (p : Pending) (ticket : String) (userId now : Int) : Pending :=
  { p.insert (voiceKey ticket) userId (now + webVoiceTicketTtlSeconds) with
    log := .issued ticket userId :: p.log }

/-- `consume_web_voice_ticket`. -/
def consumeTicket (p : Pending) (ticket : String) (now : Int) : Pending :=
  match p.get (voiceKey ticket) with
  | none => p
  | some (userId, expiry) =>
      if now < expiry then
        { p.remove (voiceKey ticket) with log := .called ticket userId :: p.log }
      else p.remove (voiceKey ticket)

/-- The lookup of `login_start`. -/
def loginStart (p : Pending) (token : String) (now : Int) : Pending :=
  match p.get token with
  | none => p
  | some (_, expiry) => if expiry < now then p.remove token else p

/-- The lookup of the two `verify_login`. -/
def verifyLogin (p : Pending) (token : String) (now : Int) : Pending :=
  match p.get token with
  | none => p
  | some (userId, expiry) =>
      if expiry < now then p.remove token
      else
        { p with
          requests := p.requests ++ [⟨p.nextRequest, token, userId, expiry⟩]
          nextRequest := p.nextRequest + 1 }

def request? (p : Pending) (number : Nat) : Option LoginRequest :=
  p.requests.find? (fun r => r.number = number)

def finish (p : Pending) (r : LoginRequest) : Pending := { p with requests := p.requests.erase r }

/-- The factor is right: the token is removed and a session opened. -/
def openSession (p : Pending) (r : LoginRequest) (now : Int) : Pending :=
  { (p.remove r.token).finish r with log := .opened r.token r.userId now :: p.log }

end Pending

/-! ## What tokens and tickets promise -/

namespace PendingEntry

def opens (token : String) : PendingEntry → Bool
  | .opened t _ _ => decide (t = token)
  | _ => false

def calls (ticket : String) : PendingEntry → Bool
  | .called t _ => decide (t = ticket)
  | _ => false

/-- Is the text made, as a token or as a ticket? -/
def makes (text : String) : PendingEntry → Bool
  | .created t _ _ => decide (t = text)
  | .issued t _ => decide (t = text)
  | _ => false

end PendingEntry

/-- A login token opens one session, before it expires and for the user who logged in. -/
def LoginTokensOnce (log : List PendingEntry) : Prop :=
  (∀ token, log.countP (PendingEntry.opens token) ≤ 1) ∧
    ∀ token userId openedAt, .opened token userId openedAt ∈ log →
      ∃ expiry, .created token userId expiry ∈ log ∧ openedAt < expiry

/-- A ticket opens one call, for the user it was issued to. -/
def TicketsOnce (log : List PendingEntry) : Prop :=
  (∀ ticket, log.countP (PendingEntry.calls ticket) ≤ 1) ∧
    ∀ ticket userId, .called ticket userId ∈ log → .issued ticket userId ∈ log

/-- No ticket is accepted as a login token, by itself or with its key, and no login token as a
ticket. -/
def PurposesApart (log : List PendingEntry) : Prop :=
  (∀ token userId openedAt, .opened token userId openedAt ∈ log →
    ∀ ticket owner, .issued ticket owner ∈ log → token ≠ ticket ∧ token ≠ voiceKey ticket) ∧
  ∀ ticket userId, .called ticket userId ∈ log →
    ∀ token owner expiry, .created token owner expiry ∈ log → ticket ≠ token

theorem voiceKey_toList (ticket : String) :
    (voiceKey ticket).toList = 'v' :: 'o' :: 'i' :: 'c' :: 'e' :: '_' :: ticket.toList := by
  rw [voiceKey, String.toList_append]
  rfl

theorem voiceKey_injective {a b : String} (h : voiceKey a = voiceKey b) : a = b := by
  have hlist := congrArg String.toList h
  rw [voiceKey_toList, voiceKey_toList] at hlist
  simp only [List.cons.injEq, true_and] at hlist
  exact String.ext hlist

theorem isVoiceKey_voiceKey (ticket : String) : isVoiceKey (voiceKey ticket) = true := by
  rw [isVoiceKey, startsWithText, voiceKey_toList]
  rfl

/-- A login token has no underscore. -/
theorem not_isLoginToken_voiceKey (ticket : String) : isLoginToken (voiceKey ticket) = false := by
  rw [isLoginToken, voiceKey_toList]
  rfl

/-- A login token has no hyphen. -/
theorem not_isUuid_of_isLoginToken {token : String} (h : isLoginToken token = true) :
    isUuid token = false := by
  rw [isUuid, beq_eq_false_iff_ne]
  intro hhyphen
  have hall := List.all_eq_true.mp h '-' (List.mem_of_getElem? hhyphen)
  exact absurd hall (by decide)

theorem not_created_of_new {log : List PendingEntry} {token : String}
    (hnew : log.any (PendingEntry.makes token) = false) (userId expiry : Int) :
    .created token userId expiry ∉ log := by
  intro hin
  have hmakes := List.any_eq_false.mp hnew _ hin
  simp [PendingEntry.makes] at hmakes

theorem not_issued_of_new {log : List PendingEntry} {ticket : String}
    (hnew : log.any (PendingEntry.makes ticket) = false) (userId : Int) :
    .issued ticket userId ∉ log := by
  intro hin
  have hmakes := List.any_eq_false.mp hnew _ hin
  simp [PendingEntry.makes] at hmakes

/-! ## The invariant -/

structure PendingInv (p : Pending) : Prop where
  origin : ∀ e ∈ p.logins, .created e.1 e.2.1 e.2.2 ∈ p.log ∨
    ∃ ticket, e.1 = voiceKey ticket ∧ .issued ticket e.2.1 ∈ p.log
  tokens : ∀ token userId expiry, .created token userId expiry ∈ p.log → isLoginToken token = true
  uuids : ∀ ticket userId, .issued ticket userId ∈ p.log → isUuid ticket = true
  requests : ∀ r ∈ p.requests, .created r.token r.userId r.expiry ∈ p.log
  unopened : ∀ e ∈ p.logins, p.log.countP (PendingEntry.opens e.1) = 0
  uncalled : ∀ e ∈ p.logins, ∀ ticket, e.1 = voiceKey ticket →
    p.log.countP (PendingEntry.calls ticket) = 0
  loginTokensOnce : LoginTokensOnce p.log
  ticketsOnce : TicketsOnce p.log

theorem pendingInv_init : PendingInv ⟨[], [], 0, []⟩ where
  origin := fun _ h => by cases h
  tokens := fun _ _ _ h => by cases h
  uuids := fun _ _ h => by cases h
  requests := fun _ h => by cases h
  unopened := fun _ h => by cases h
  uncalled := fun _ h => by cases h
  loginTokensOnce := ⟨fun _ => Nat.zero_le _, fun _ _ _ h => by cases h⟩
  ticketsOnce := ⟨fun _ => Nat.zero_le _, fun _ _ h => by cases h⟩

variable {p : Pending}

/-- The forms of tokens, tickets and keys keep the purposes apart. -/
theorem PendingInv.purposesApart (h : PendingInv p) : PurposesApart p.log := by
  constructor
  · intro token userId openedAt hopened ticket owner hissued
    obtain ⟨expiry, hcreated, -⟩ := h.loginTokensOnce.2 token userId openedAt hopened
    have htoken := h.tokens token userId expiry hcreated
    constructor
    · rintro rfl
      exact absurd (h.uuids token owner hissued) (by simp [not_isUuid_of_isLoginToken htoken])
    · rintro rfl
      rw [not_isLoginToken_voiceKey] at htoken
      cases htoken
  · intro ticket userId hcalled token owner expiry hcreated
    have hissued := h.ticketsOnce.2 ticket userId hcalled
    rintro rfl
    have huuid := h.uuids ticket userId hissued
    rw [not_isUuid_of_isLoginToken (h.tokens ticket owner expiry hcreated)] at huuid
    cases huuid

/-- Tokens and requests that have gone. -/
theorem PendingInv.shrink (h : PendingInv p) {logins : List (String × Int × Int)}
    {requests : List LoginRequest} (next : Nat) (hlogins : ∀ e ∈ logins, e ∈ p.logins)
    (hrequests : ∀ r ∈ requests, .created r.token r.userId r.expiry ∈ p.log) :
    PendingInv ⟨logins, requests, next, p.log⟩ where
  origin := fun e he => h.origin e (hlogins e he)
  tokens := h.tokens
  uuids := h.uuids
  requests := hrequests
  unopened := fun e he => h.unopened e (hlogins e he)
  uncalled := fun e he => h.uncalled e (hlogins e he)
  loginTokensOnce := h.loginTokensOnce
  ticketsOnce := h.ticketsOnce

theorem PendingInv.remove (h : PendingInv p) (key : String) : PendingInv (p.remove key) :=
  h.shrink p.nextRequest (fun _ he => (List.mem_filter.mp he).1) h.requests

theorem PendingInv.finish (h : PendingInv p) (r : LoginRequest) : PendingInv (p.finish r) :=
  h.shrink p.nextRequest (fun _ he => he) (fun other hother =>
    h.requests other (List.mem_of_mem_erase hother))

theorem get_mem {key : String} {userId expiry : Int} (h : p.get key = some (userId, expiry)) :
    (key, userId, expiry) ∈ p.logins := by
  obtain ⟨⟨k, v⟩, hfind, rfl⟩ := Option.map_eq_some_iff.mp h
  have hkey := List.find?_some hfind
  simp only [decide_eq_true_eq] at hkey
  exact hkey ▸ List.mem_of_find?_eq_some hfind

/-- What was opened was created. -/
theorem PendingInv.not_opened (h : PendingInv p) {token : String}
    (hnew : ∀ userId expiry, .created token userId expiry ∉ p.log) :
    p.log.countP (PendingEntry.opens token) = 0 := by
  rw [List.countP_eq_zero]
  intro e he hopens
  cases e with
  | opened t userId openedAt =>
      simp only [PendingEntry.opens, decide_eq_true_eq] at hopens
      obtain ⟨expiry, hcreated, -⟩ := h.loginTokensOnce.2 t userId openedAt he
      exact hnew userId expiry (hopens ▸ hcreated)
  | _ => cases hopens

/-- What was called was issued. -/
theorem PendingInv.not_called (h : PendingInv p) {ticket : String}
    (hnew : ∀ userId, .issued ticket userId ∉ p.log) :
    p.log.countP (PendingEntry.calls ticket) = 0 := by
  rw [List.countP_eq_zero]
  intro e he hcalls
  cases e with
  | called t userId =>
      simp only [PendingEntry.calls, decide_eq_true_eq] at hcalls
      exact hnew userId (hcalls ▸ h.ticketsOnce.2 t userId he)
  | _ => cases hcalls

theorem LoginTokensOnce.cons {log : List PendingEntry} (h : LoginTokensOnce log) {e : PendingEntry}
    (he : ∀ token, e.opens token = false) : LoginTokensOnce (e :: log) := by
  constructor
  · intro token
    rw [List.countP_cons_of_neg (by simp [he token])]
    exact h.1 token
  · intro token userId openedAt hin
    rcases List.mem_cons.mp hin with heq | hin
    · have hopens := he token
      rw [← heq] at hopens
      simp [PendingEntry.opens] at hopens
    · obtain ⟨expiry, hcreated, hlt⟩ := h.2 token userId openedAt hin
      exact ⟨expiry, List.mem_cons_of_mem _ hcreated, hlt⟩

theorem TicketsOnce.cons {log : List PendingEntry} (h : TicketsOnce log) {e : PendingEntry}
    (he : ∀ ticket, e.calls ticket = false) : TicketsOnce (e :: log) := by
  constructor
  · intro ticket
    rw [List.countP_cons_of_neg (by simp [he ticket])]
    exact h.1 ticket
  · intro ticket userId hin
    rcases List.mem_cons.mp hin with heq | hin
    · have hcalls := he ticket
      rw [← heq] at hcalls
      simp [PendingEntry.calls] at hcalls
    · exact List.mem_cons_of_mem _ (h.2 ticket userId hin)

/-- An entry about a token that is not in the map, or about no token at all. -/
theorem PendingInv.cons (h : PendingInv p) {x : PendingEntry}
    (htoken : ∀ token userId expiry, x = .created token userId expiry → isLoginToken token = true)
    (huuid : ∀ ticket userId, x = .issued ticket userId → isUuid ticket = true)
    (hopens : ∀ e ∈ p.logins, x.opens e.1 = false)
    (hcalls : ∀ e ∈ p.logins, ∀ ticket, e.1 = voiceKey ticket → x.calls ticket = false)
    (hlogins : LoginTokensOnce (x :: p.log)) (htickets : TicketsOnce (x :: p.log)) :
    PendingInv { p with log := x :: p.log } where
  origin := by
    intro e he
    rcases h.origin e he with hcreated | ⟨ticket, hkey, hissued⟩
    · exact Or.inl (List.mem_cons_of_mem _ hcreated)
    · exact Or.inr ⟨ticket, hkey, List.mem_cons_of_mem _ hissued⟩
  tokens := by
    intro token userId expiry hin
    rcases List.mem_cons.mp hin with heq | hin
    · exact htoken token userId expiry heq.symm
    · exact h.tokens token userId expiry hin
  uuids := by
    intro ticket userId hin
    rcases List.mem_cons.mp hin with heq | hin
    · exact huuid ticket userId heq.symm
    · exact h.uuids ticket userId hin
  requests := fun r hr => List.mem_cons_of_mem _ (h.requests r hr)
  unopened := by
    intro e he
    show (x :: p.log).countP _ = 0
    rw [List.countP_cons_of_neg (by simp [hopens e he])]
    exact h.unopened e he
  uncalled := by
    intro e he ticket hkey
    show (x :: p.log).countP _ = 0
    rw [List.countP_cons_of_neg (by simp [hcalls e he ticket hkey])]
    exact h.uncalled e he ticket hkey
  loginTokensOnce := hlogins
  ticketsOnce := htickets

/-- A new key in the map. -/
theorem mem_insert {key : String} {userId expiry : Int} {e : String × Int × Int}
    (h : e ∈ (p.insert key userId expiry).logins) : e = (key, userId, expiry) ∨ e ∈ p.logins := by
  rcases List.mem_cons.mp h with h | h
  · exact Or.inl h
  · exact Or.inr (List.mem_filter.mp h).1

/-- A key that has been logged, and whose token or ticket has not been redeemed. -/
theorem PendingInv.insert (h : PendingInv p) {key : String} {userId expiry : Int}
    (horigin : .created key userId expiry ∈ p.log ∨
      ∃ ticket, key = voiceKey ticket ∧ .issued ticket userId ∈ p.log)
    (hopens : p.log.countP (PendingEntry.opens key) = 0)
    (hcalls : ∀ ticket, key = voiceKey ticket → p.log.countP (PendingEntry.calls ticket) = 0) :
    PendingInv (p.insert key userId expiry) where
  origin := by
    intro e he
    rcases mem_insert he with rfl | he
    · exact horigin
    · exact h.origin e he
  tokens := h.tokens
  uuids := h.uuids
  requests := h.requests
  unopened := by
    intro e he
    rcases mem_insert he with rfl | he
    · exact hopens
    · exact h.unopened e he
  uncalled := by
    intro e he ticket hkey
    rcases mem_insert he with rfl | he
    · exact hcalls ticket hkey
    · exact h.uncalled e he ticket hkey
  loginTokensOnce := h.loginTokensOnce
  ticketsOnce := h.ticketsOnce

theorem PendingInv.createLogin (h : PendingInv p) {token : String} (userId now : Int)
    (htoken : isLoginToken token = true)
    (hnew : ∀ userId expiry, .created token userId expiry ∉ p.log) :
    PendingInv (p.createLogin token userId now) := by
  have hlogged : PendingInv { p with log := .created token userId (now + loginTtl) :: p.log } := by
    apply h.cons
    · intro t u e heq
      cases heq
      exact htoken
    · exact fun _ _ heq => by cases heq
    · exact fun _ _ => rfl
    · exact fun _ _ _ _ => rfl
    · exact h.loginTokensOnce.cons (fun _ => rfl)
    · exact h.ticketsOnce.cons (fun _ => rfl)
  apply hlogged.insert
  · exact Or.inl List.mem_cons_self
  · show (PendingEntry.created token userId _ :: p.log).countP _ = 0
    rw [List.countP_cons_of_neg (by simp [PendingEntry.opens])]
    exact h.not_opened hnew
  · intro ticket hkey
    rw [hkey, not_isLoginToken_voiceKey] at htoken
    cases htoken

theorem PendingInv.issueTicket (h : PendingInv p) {ticket : String} (userId now : Int)
    (huuid : isUuid ticket = true) (hnew : ∀ userId, .issued ticket userId ∉ p.log) :
    PendingInv (p.issueTicket ticket userId now) := by
  have hlogged : PendingInv { p with log := .issued ticket userId :: p.log } := by
    apply h.cons
    · exact fun _ _ _ heq => by cases heq
    · intro t u heq
      cases heq
      exact huuid
    · exact fun _ _ => rfl
    · exact fun _ _ _ _ => rfl
    · exact h.loginTokensOnce.cons (fun _ => rfl)
    · exact h.ticketsOnce.cons (fun _ => rfl)
  apply hlogged.insert
  · exact Or.inr ⟨ticket, rfl, List.mem_cons_self⟩
  · show (PendingEntry.issued ticket userId :: p.log).countP _ = 0
    rw [List.countP_cons_of_neg (by simp [PendingEntry.opens])]
    apply h.not_opened
    intro u expiry hcreated
    have htoken := h.tokens _ u expiry hcreated
    rw [not_isLoginToken_voiceKey] at htoken
    cases htoken
  · intro other hkey
    show (PendingEntry.issued ticket userId :: p.log).countP _ = 0
    rw [List.countP_cons_of_neg (by simp [PendingEntry.calls]), ← voiceKey_injective hkey]
    exact h.not_called hnew

/-- A key that is not in the map any more. -/
theorem ne_of_mem_remove {key : String} {e : String × Int × Int} (he : e ∈ (p.remove key).logins) :
    e.1 ≠ key :=
  of_decide_eq_true (List.mem_filter.mp he).2

/-- A ticket is called once it is out of the map, for the first time. -/
theorem TicketsOnce.call {log : List PendingEntry} (h : TicketsOnce log) {ticket : String}
    {userId : Int} (hissued : .issued ticket userId ∈ log)
    (huncalled : log.countP (PendingEntry.calls ticket) = 0) :
    TicketsOnce (.called ticket userId :: log) := by
  constructor
  · intro other
    by_cases hsame : ticket = other
    · rw [← hsame, List.countP_cons, huncalled]
      split <;> omega
    · rw [List.countP_cons_of_neg (by simp [PendingEntry.calls, hsame])]
      exact h.1 other
  · intro other u hcalled
    rcases List.mem_cons.mp hcalled with heq | hcalled
    · cases heq
      exact List.mem_cons_of_mem _ hissued
    · exact List.mem_cons_of_mem _ (h.2 other u hcalled)

/-- A session is opened before the token expires, for the first time. -/
theorem LoginTokensOnce.openFirst {log : List PendingEntry} (h : LoginTokensOnce log)
    {token : String} {userId expiry now : Int} (hcreated : .created token userId expiry ∈ log)
    (hunopened : log.countP (PendingEntry.opens token) = 0) (hnow : now < expiry) :
    LoginTokensOnce (.opened token userId now :: log) := by
  constructor
  · intro other
    by_cases hsame : token = other
    · rw [← hsame, List.countP_cons, hunopened]
      split <;> omega
    · rw [List.countP_cons_of_neg (by simp [PendingEntry.opens, hsame])]
      exact h.1 other
  · intro other u openedAt hin
    rcases List.mem_cons.mp hin with heq | hin
    · cases heq
      exact ⟨expiry, List.mem_cons_of_mem _ hcreated, hnow⟩
    · obtain ⟨e, hmade, hlt⟩ := h.2 other u openedAt hin
      exact ⟨e, List.mem_cons_of_mem _ hmade, hlt⟩

/-- A ticket is taken out of the map in the step that accepts it. -/
theorem PendingInv.consumeTicket (h : PendingInv p) (ticket : String) (now : Int) :
    PendingInv (p.consumeTicket ticket now) := by
  unfold Pending.consumeTicket
  split
  next => exact h
  next userId expiry hget =>
    have hremoved := h.remove (voiceKey ticket)
    split
    next =>
      have hin := get_mem hget
      have hissued : .issued ticket userId ∈ p.log := by
        rcases h.origin _ hin with hcreated | ⟨other, hkey, hissued⟩
        · have htoken := h.tokens _ _ _ hcreated
          rw [not_isLoginToken_voiceKey] at htoken
          cases htoken
        · rw [voiceKey_injective hkey]
          exact hissued
      apply hremoved.cons
      · exact fun _ _ _ heq => by cases heq
      · exact fun _ _ heq => by cases heq
      · exact fun _ _ => rfl
      · intro e he other hkey
        have hother : ticket ≠ other := by
          rintro rfl
          exact ne_of_mem_remove he hkey
        simp [PendingEntry.calls, hother]
      · exact h.loginTokensOnce.cons (fun _ => rfl)
      · exact h.ticketsOnce.call hissued (h.uncalled _ hin ticket rfl)
    next => exact hremoved

theorem PendingInv.loginStart (h : PendingInv p) (token : String) (now : Int) :
    PendingInv (p.loginStart token now) := by
  unfold Pending.loginStart
  split
  · exact h
  · split
    · exact h.remove token
    · exact h

/-- A token that is no voice key in the map belongs to the user whose login created it. -/
theorem PendingInv.verifyLogin (h : PendingInv p) {token : String} (now : Int)
    (hkey : isVoiceKey token = true → p.get token = none) :
    PendingInv (p.verifyLogin token now) := by
  unfold Pending.verifyLogin
  split
  next => exact h
  next userId expiry hget =>
    split
    next => exact h.remove token
    next =>
      apply h.shrink (p.nextRequest + 1) (fun _ he => he)
      intro r hr
      rcases List.mem_append.mp hr with hr | hr
      · exact h.requests r hr
      · rw [List.mem_singleton.mp hr]
        rcases h.origin _ (get_mem hget) with hcreated | ⟨ticket, hvoice, -⟩
        · exact hcreated
        · have hform : token = voiceKey ticket := hvoice
          rw [hkey (by rw [hform]; exact isVoiceKey_voiceKey ticket)] at hget
          cases hget

/-- A token that is still there has opened no session yet. -/
theorem PendingInv.openSession (h : PendingInv p) {r : LoginRequest} (hr : r ∈ p.requests)
    {now : Int} (hthere : (p.get r.token).isSome = true) (hnow : now < r.expiry) :
    PendingInv (p.openSession r now) := by
  obtain ⟨⟨userId, expiry⟩, hget⟩ := Option.isSome_iff_exists.mp hthere
  have hunopened := h.unopened _ (get_mem hget)
  apply ((h.remove r.token).finish r).cons
  · exact fun _ _ _ heq => by cases heq
  · exact fun _ _ heq => by cases heq
  · intro e he
    have hother := ne_of_mem_remove he
    simp [PendingEntry.opens, hother.symm]
  · exact fun _ _ _ _ => rfl
  · exact h.loginTokensOnce.openFirst (h.requests r hr) hunopened hnow
  · exact h.ticketsOnce.cons (fun _ => rfl)

end Lightfriend.Auth
