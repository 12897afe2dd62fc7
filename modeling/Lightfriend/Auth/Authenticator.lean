import Lightfriend.Core.Database
import Lightfriend.Core.Log
import Lightfriend.Core.Transition

/-! # The authenticator and the passkeys of one user

One row holds the secret, pending or enabled. Its handlers read it, check a code and
write in statements of their own, and so do the handlers of the passkeys, which
are offered only beside an enabled authenticator.
-/

namespace Lightfriend.Auth.Authenticator

/-- A row of `totp_secrets`. The column `user_id` is unique. -/
structure SecretRow where
  secret : String
  enabled : Bool
deriving DecidableEq, Repr

/-- A row of `totp_backup_codes`. -/
structure CodeRow where
  id : Nat
  codeHash : String
  used : Bool
deriving DecidableEq, Repr

/-- What a request has shown. -/
inductive Factor
  | code (secret code : String) (checkedAt : Int)
  | backup (code : String) (row : CodeRow)
deriving DecidableEq, Repr

/-- What a code is checked for. -/
inductive Purpose
  | setup
  | disable
  | regenerate
  | login
deriving DecidableEq, Repr

/-- What a request does next. -/
inductive Stage
  | insertSecret (secret : String)
  | readSecret (purpose : Purpose) (code : String)
  /-- `get_secret` has returned the secret of the row. -/
  | check (purpose : Purpose) (row : SecretRow) (code : String)
  | loadCodes (purpose : Purpose) (code : String)
  | markUsed (purpose : Purpose) (code : String) (row : CodeRow)
  | enable (secret code : String) (checkedAt : Int)
  /-- The old backup codes are deleted; so many new ones follow. -/
  | deleteCodes (count : Nat)
  | insertCodes (count : Nat)
  | deleteSecret (shown : Factor)
  | clearChallenges (expiresAt : Int)
  | createChallenge (expiresAt : Int)
  | createCredential (credentialId : String)
  | deleteChallenges
deriving DecidableEq, Repr

structure Request where
  number : Nat
  stage : Stage
deriving DecidableEq, Repr

inductive Entry
  /-- A secret, at the instant it becomes enabled. -/
  | enabled (secret : String) (shown : Factor)
  /-- An enabled secret, at the instant it is no longer stored. -/
  | dropped (secret : String) (shown : Option Factor)
  /-- A code that the login step accepts, with the row it has read. -/
  | accepted (row : SecretRow) (code : String) (checkedAt : Int)
deriving DecidableEq, Repr

structure State where
  clock : Int
  secret : Option SecretRow
  codes : List CodeRow
  nextCode : Nat
  passkeys : List String
  /-- When the challenges of registrations expire. -/
  challenges : List Int
  requests : List Request
  nextRequest : Nat
  log : List Entry
deriving DecidableEq, Repr

def init : State := ⟨0, none, [], 0, [], [], [], 0, []⟩

inductive Action
  | tick (now : Int)
  | setupStart (secret : String) (fate : StatementFate)
  | setupVerify (code : String)
  /-- `answered` says whether the passkeys can be counted. -/
  | disable (code : String) (answered : Bool)
  | regenerateBackupCodes (code : String)
  | registerStart (answered : Bool)
  /-- The response is right for the challenge when it makes a credential. -/
  | registerFinish (credentialId : Option String)
  | deletePasskey (credentialId : String) (fate : StatementFate)
  | verifyLogin (code : String) (isBackupCode : Bool)
  | read (number : Nat)
  | check (number : Nat)
  | load (number : Nat) (rows : List CodeRow)
  /-- `hash` is the one of a new backup code. -/
  | write (number : Nat) (hash : String) (fate : StatementFate)
  | abandon (number : Nat)
deriving DecidableEq, Repr

/-- The enabled secret of a row. -/
def enabledSecret : Option SecretRow → Option String
  | some row => if row.enabled then some row.secret else none
  | none => none

/-- Five minutes. -/
def challengeTtl : Int := 300

namespace State

def request? (s : State) (number : Nat) : Option Request :=
  s.requests.find? (fun r => r.number = number)

def start (s : State) (stage : Stage) : State :=
  { s with
    requests := s.requests ++ [⟨s.nextRequest, stage⟩]
    nextRequest := s.nextRequest + 1 }

/-- The request goes on to its next stage or ends. -/
def proceed (s : State) (r : Request) (next : Option Stage) : State :=
  { s with requests := s.requests.erase r ++ (next.map (Request.mk r.number)).toList }

/-- `DELETE FROM totp_secrets`. -/
def dropSecret (s : State) (shown : Option Factor) : State :=
  { s with
    secret := none
    log := ((enabledSecret s.secret).map (Entry.dropped · shown)).toList ++ s.log }

/-- `UPDATE totp_secrets SET enabled = 1`. -/
def enableTotp (s : State) (shown : Factor) : State :=
  match s.secret with
  | none => s
  | some row =>
      if row.enabled then s
      else
        { s with
          secret := some { row with enabled := true }
          log := .enabled row.secret shown :: s.log }

/-- `INSERT INTO totp_secrets`, refused where there is a row. -/
def insertSecret (s : State) (secret : String) : State :=
  match s.secret with
  | some _ => s
  | none => { s with secret := some ⟨secret, false⟩ }

/-- What the next statement of a request leaves in the store. -/
def written (s : State) (hash : String) : Stage → State
  | .insertSecret secret => s.insertSecret secret
  | .enable secret code checkedAt => s.enableTotp (.code secret code checkedAt)
  | .deleteCodes _ => { s with codes := [] }
  | .insertCodes _ =>
      { s with codes := s.codes ++ [⟨s.nextCode, hash, false⟩], nextCode := s.nextCode + 1 }
  | .markUsed _ _ row =>
      { s with codes := s.codes.map (fun c => if c.id = row.id then { c with used := true } else c) }
  | .deleteSecret shown => s.dropSecret (some shown)
  | .clearChallenges _ => { s with challenges := [] }
  | .createChallenge expiresAt => { s with challenges := s.challenges ++ [expiresAt] }
  | .createCredential credentialId => { s with passkeys := s.passkeys ++ [credentialId] }
  | .deleteChallenges => { s with challenges := [] }
  | .readSecret _ _ => s
  | .check _ _ _ => s
  | .loadCodes _ _ => s

end State

namespace Stage

def writes : Stage → Bool
  | .readSecret _ _ => false
  | .check _ _ _ => false
  | .loadCodes _ _ => false
  | _ => true

/-- What follows a statement that was answered. -/
def next : Stage → Option Stage
  | .enable _ _ _ => some (.deleteCodes 10)
  | .deleteCodes 0 => none
  | .deleteCodes (count + 1) => some (.insertCodes count)
  | .insertCodes 0 => none
  | .insertCodes (count + 1) => some (.insertCodes count)
  | .markUsed .disable code row => some (.deleteSecret (.backup code row))
  | .deleteSecret _ => some (.deleteCodes 0)
  | .clearChallenges expiresAt => some (.createChallenge expiresAt)
  | .createCredential _ => some .deleteChallenges
  | _ => none

/-- A statement that was not answered ends its request. -/
def afterWrite (stage : Stage) : StatementFate → Option Stage
  | .done => stage.next
  | .refused => none
  | .lost => none

/-- What follows a right code, or a wrong one. -/
def checked (purpose : Purpose) (row : SecretRow) (code : String) (now : Int) :
    Bool → Option Stage
  | true =>
      match purpose with
      | .setup => some (.enable row.secret code now)
      | .disable => some (.deleteSecret (.code row.secret code now))
      | .regenerate => some (.deleteCodes 10)
      | .login => none
  | false => if purpose = .disable then some (.loadCodes .disable code) else none

end Stage

/-- `verify_login` opens a session. -/
def State.accept (s : State) (purpose : Purpose) (row : SecretRow) (code : String) : State :=
  match purpose with
  | .login => { s with log := .accepted row code s.clock :: s.log }
  | _ => s

variable (checkCurrent : String → Int → String → Bool) (verify : String → String → Bool)

/-- `checkCurrent` is `TOTP::check_current` for a secret and a time, and `verify` is
`bcrypt::verify`, an error of either counted as no match. -/
def step (s : State) : Action → Option State
  | .tick now => some { s with clock := now }
  | .setupStart secret fate =>
      some (match fate with
        | .done => (s.dropSecret none).start (.insertSecret secret)
        | .refused => s
        | .lost => s.dropSecret none)
  | .setupVerify code => some (s.start (.readSecret .setup code))
  | .disable code answered =>
      -- passkeys that cannot be counted count as none
      some (if answered && !s.passkeys.isEmpty then s else s.start (.readSecret .disable code))
  | .regenerateBackupCodes code =>
      some (if (enabledSecret s.secret).isSome then s.start (.readSecret .regenerate code) else s)
  | .registerStart answered =>
      some (if answered && (enabledSecret s.secret).isSome then
        s.start (.clearChallenges (s.clock + challengeTtl)) else s)
  | .registerFinish credentialId =>
      some (match credentialId with
        | none => s
        | some id =>
            if s.challenges.any (fun expiresAt => decide (s.clock < expiresAt)) then
              s.start (.createCredential id)
            else s)
  | .deletePasskey credentialId fate =>
      some (fate.after s { s with passkeys := s.passkeys.filter (· ≠ credentialId) })
  | .verifyLogin code isBackupCode =>
      some (s.start (if isBackupCode then .loadCodes .login code else .readSecret .login code))
  | .read number =>
      (s.request? number).bind (fun r =>
        match r.stage with
        | .readSecret purpose code => some (s.proceed r (s.secret.map (Stage.check purpose · code)))
        | _ => none)
  | .check number =>
      (s.request? number).bind (fun r =>
        match r.stage with
        | .check purpose row code =>
            let valid := checkCurrent row.secret s.clock code
            some ((if valid then s.accept purpose row code else s).proceed r
              (Stage.checked purpose row code s.clock valid))
        | _ => none)
  | .load number rows =>
      (s.request? number).bind (fun r =>
        match r.stage with
        | .loadCodes purpose code =>
            if rows.Perm (s.codes.filter (fun c => !c.used)) then
              some (s.proceed r
                ((rows.find? (fun c => verify code c.codeHash)).map (Stage.markUsed purpose code)))
            else none
        | _ => none)
  | .write number hash fate =>
      (s.request? number).bind (fun r =>
        if r.stage.writes then
          some ((fate.after s (s.written hash r.stage)).proceed r (r.stage.afterWrite fate))
        else none)
  | .abandon number => (s.request? number).map (fun r => s.proceed r none)

/-! ## What the second factor promises -/

namespace Factor

/-- The code was right when it was checked, or was an unused backup code. -/
def Valid : Factor → Prop
  | .code secret text checkedAt => checkCurrent secret checkedAt text = true
  | .backup text row => row.used = false ∧ verify text row.codeHash = true

/-- The secret of the code; a backup code has none. -/
def secret? : Factor → Option String
  | .code secret _ _ => some secret
  | .backup _ _ => none

end Factor

/-- The enabled secret by the log. -/
def logged : List Entry → Option String
  | [] => none
  | .enabled secret _ :: _ => some secret
  | .dropped _ _ :: _ => none
  | .accepted _ _ _ :: rest => logged rest

/-- The authenticator of a user with passkeys is enabled; an enabled secret is dropped by a disable
request that has shown a code of it or a backup code, and by nothing else; a secret is enabled by a
code of it; and the login step accepts codes of enabled secrets. -/
structure Kept (secret : Option SecretRow) (passkeys : List String) (log : List Entry) : Prop where
  passkeys : passkeys ≠ [] → (enabledSecret secret).isSome = true
  logged : enabledSecret secret = logged log
  dropped : ∀ text shown, .dropped text shown ∈ log →
    ∃ factor, shown = some factor ∧ factor.Valid checkCurrent verify ∧
      (factor.secret? = none ∨ factor.secret? = some text)
  enabled : ∀ text shown, .enabled text shown ∈ log →
    shown.Valid checkCurrent verify ∧ shown.secret? = some text
  /-- A secret is enabled where none is. -/
  apart : ∀ later text shown earlier, log = later ++ .enabled text shown :: earlier →
    Authenticator.logged earlier = none
  accepted : ∀ row code checkedAt, .accepted row code checkedAt ∈ log →
    row.enabled = true ∧ checkCurrent row.secret checkedAt code = true

/-- When the next statement of a request keeps the promise. -/
def WriteKeeps (s : State) : Stage → Prop
  | .enable secret _ _ => ∀ row ∈ s.secret, row.enabled = true ∨ row.secret = secret
  | .deleteSecret shown =>
      ∀ text ∈ enabledSecret s.secret, s.passkeys = [] ∧
        (shown.secret? = none ∨ shown.secret? = some text)
  | .createCredential _ => (enabledSecret s.secret).isSome = true
  | _ => True

/-- A setup is started while no authenticator is enabled, a pending secret that is enabled is the
one whose code was checked, an enabled secret that is deleted too, and then there are no passkeys;
a passkey is stored while the authenticator is enabled, and the login step has read an enabled
secret. -/
def Keeps (s : State) : Action → Prop
  | .setupStart _ fate => fate = .refused ∨ enabledSecret s.secret = none
  | .check number =>
      ∀ r ∈ s.request? number, match r.stage with
        | .check .login row code => checkCurrent row.secret s.clock code = true → row.enabled = true
        | _ => True
  | .write number _ fate => fate = .refused ∨ ∀ r ∈ s.request? number, WriteKeeps s r.stage
  | _ => True

instance (s : State) (stage : Stage) : Decidable (WriteKeeps s stage) := by
  cases stage <;> unfold WriteKeeps <;> infer_instance

instance (s : State) (a : Action) : Decidable (Keeps checkCurrent s a) := by
  cases a with
  | check number =>
      unfold Keeps
      have hstage : ∀ r : Request, Decidable (match r.stage with
          | .check .login row code =>
              checkCurrent row.secret s.clock code = true → row.enabled = true
          | _ => True) := by
        intro r
        split <;> infer_instance
      infer_instance
  | _ => unfold Keeps; infer_instance

/-! ## What the statements keep -/

/-- What a request carries has been checked. -/
def Stage.Proved : Stage → Prop
  | .enable secret code checkedAt => checkCurrent secret checkedAt code = true
  | .markUsed _ code row => row.used = false ∧ verify code row.codeHash = true
  | .deleteSecret shown => shown.Valid checkCurrent verify
  | _ => True

variable {checkCurrent : String → Int → String → Bool} {verify : String → String → Bool}
  {secret : Option SecretRow} {passkeys : List String} {log : List Entry} {s t : State}

/-- An entry that enables no secret. -/
theorem apart_cons {x : Entry} (hx : ∀ text shown, x ≠ .enabled text shown)
    (h : ∀ later text shown earlier, log = later ++ .enabled text shown :: earlier →
      logged earlier = none) :
    ∀ later text shown earlier, x :: log = later ++ .enabled text shown :: earlier →
      logged earlier = none := by
  intro later text shown earlier hsplit
  rcases Log.cons_split hsplit with ⟨-, heq, -⟩ | ⟨rest, -, hrest⟩
  · exact absurd heq (hx text shown)
  · exact h rest text shown earlier hrest

theorem kept_init : Kept checkCurrent verify none [] [] where
  passkeys := fun h => absurd rfl h
  logged := rfl
  dropped := fun _ _ h => by cases h
  enabled := fun _ _ h => by cases h
  apart := fun later _ _ _ h => by cases later <;> cases h
  accepted := fun _ _ _ h => by cases h

/-- A row that is not enabled may come and go. -/
theorem Kept.pending (h : Kept checkCurrent verify secret passkeys log)
    {later : Option SecretRow} (hsame : enabledSecret later = enabledSecret secret) :
    Kept checkCurrent verify later passkeys log where
  passkeys := fun hne => by rw [hsame]; exact h.passkeys hne
  logged := hsame.trans h.logged
  dropped := h.dropped
  enabled := h.enabled
  apart := h.apart
  accepted := h.accepted

theorem Kept.passkeys_of (h : Kept checkCurrent verify secret passkeys log)
    {later : List String} (hlater : later ≠ [] → (enabledSecret secret).isSome = true) :
    Kept checkCurrent verify secret later log :=
  { h with passkeys := hlater }

theorem Kept.accept (h : Kept checkCurrent verify secret passkeys log) {row : SecretRow}
    {code : String} {now : Int} (henabled : row.enabled = true)
    (hcode : checkCurrent row.secret now code = true) :
    Kept checkCurrent verify secret passkeys (.accepted row code now :: log) where
  passkeys := h.passkeys
  logged := h.logged
  dropped := fun text shown hin => h.dropped text shown (List.mem_of_ne_of_mem (by simp) hin)
  enabled := fun text shown hin => h.enabled text shown (List.mem_of_ne_of_mem (by simp) hin)
  apart := apart_cons (fun _ _ => by simp) h.apart
  accepted := by
    intro other c at_ hin
    rcases List.mem_cons.mp hin with heq | hin
    · cases heq
      exact ⟨henabled, hcode⟩
    · exact h.accepted other c at_ hin

/-- An enabled secret is dropped by a factor shown for it. -/
theorem Kept.drop (h : Kept checkCurrent verify secret [] log) {text : String} {factor : Factor}
    (hvalid : factor.Valid checkCurrent verify)
    (hsecret : factor.secret? = none ∨ factor.secret? = some text) :
    Kept checkCurrent verify none [] (.dropped text (some factor) :: log) where
  passkeys := fun hne => absurd rfl hne
  logged := rfl
  dropped := by
    intro other shown hin
    rcases List.mem_cons.mp hin with heq | hin
    · cases heq
      exact ⟨factor, rfl, hvalid, hsecret⟩
    · exact h.dropped other shown hin
  enabled := fun other shown hin => h.enabled other shown (List.mem_of_ne_of_mem (by simp) hin)
  apart := apart_cons (fun _ _ => by simp) h.apart
  accepted := fun row c at_ hin => h.accepted row c at_ (List.mem_of_ne_of_mem (by simp) hin)

/-- A pending secret is enabled by a code of it. -/
theorem Kept.enable (h : Kept checkCurrent verify secret passkeys log) {text code : String}
    {checkedAt : Int} (hcode : checkCurrent text checkedAt code = true)
    (hnone : enabledSecret secret = none) :
    Kept checkCurrent verify (some ⟨text, true⟩) passkeys
      (.enabled text (.code text code checkedAt) :: log) where
  passkeys := fun _ => rfl
  logged := rfl
  dropped := fun other shown hin => h.dropped other shown (List.mem_of_ne_of_mem (by simp) hin)
  enabled := by
    intro other shown hin
    rcases List.mem_cons.mp hin with heq | hin
    · cases heq
      exact ⟨hcode, rfl⟩
    · exact h.enabled other shown hin
  apart := by
    intro later other shown earlier hsplit
    rcases Log.cons_split hsplit with ⟨-, -, rfl⟩ | ⟨rest, -, hrest⟩
    · rw [← h.logged]
      exact hnone
    · exact h.apart rest other shown earlier hrest
  accepted := fun row c at_ hin => h.accepted row c at_ (List.mem_of_ne_of_mem (by simp) hin)

/-! ## The invariant -/

/-- The promise, for the store of a state. -/
abbrev State.Kept (checkCurrent : String → Int → String → Bool)
    (verify : String → String → Bool) (s : State) : Prop :=
  Authenticator.Kept checkCurrent verify s.secret s.passkeys s.log

structure Inv (checkCurrent : String → Int → String → Bool) (verify : String → String → Bool)
    (s : State) : Prop where
  kept : s.Kept checkCurrent verify
  proved : ∀ r ∈ s.requests, r.stage.Proved checkCurrent verify

theorem inv_init : Inv checkCurrent verify init where
  kept := kept_init
  proved := fun _ h => by cases h

theorem request?_spec {number : Nat} {r : Request} (h : s.request? number = some r) :
    r ∈ s.requests :=
  List.mem_of_find?_eq_some h

theorem Inv.start (h : Inv checkCurrent verify s) {stage : Stage}
    (hstage : stage.Proved checkCurrent verify) : Inv checkCurrent verify (s.start stage) where
  kept := h.kept
  proved := by
    intro r hr
    rcases List.mem_append.mp hr with hr | hr
    · exact h.proved r hr
    · rw [List.mem_singleton.mp hr]
      exact hstage

theorem Inv.proceed (h : Inv checkCurrent verify s) (r : Request) {next : Option Stage}
    (hnext : ∀ stage ∈ next, stage.Proved checkCurrent verify) :
    Inv checkCurrent verify (s.proceed r next) where
  kept := h.kept
  proved := by
    intro other hother
    rcases List.mem_append.mp hother with hother | hother
    · exact h.proved other (List.mem_of_mem_erase hother)
    · rw [Option.mem_toList] at hother
      obtain ⟨stage, hstage, rfl⟩ := Option.map_eq_some_iff.mp hother
      exact hnext stage hstage

/-- A secret that is not enabled is dropped without a trace. -/
theorem Inv.dropPending (h : Inv checkCurrent verify s) (shown : Option Factor)
    (hnone : enabledSecret s.secret = none) : Inv checkCurrent verify (s.dropSecret shown) := by
  have hlog : (s.dropSecret shown).log = s.log := by simp [State.dropSecret, hnone]
  constructor
  · rw [State.Kept, hlog]
    exact h.kept.pending hnone.symm
  · exact h.proved

theorem Inv.dropEnabled (h : Inv checkCurrent verify s) {factor : Factor}
    (hvalid : factor.Valid checkCurrent verify) {text : String}
    (hsome : enabledSecret s.secret = some text) (hempty : s.passkeys = [])
    (hsecret : factor.secret? = none ∨ factor.secret? = some text) :
    Inv checkCurrent verify (s.dropSecret (some factor)) := by
  have hlog : (s.dropSecret (some factor)).log = .dropped text (some factor) :: s.log := by
    simp [State.dropSecret, hsome]
  have hkept : Kept checkCurrent verify s.secret [] s.log := hempty ▸ h.kept
  constructor
  · rw [State.Kept, hlog]
    show Kept checkCurrent verify none s.passkeys _
    rw [hempty]
    exact hkept.drop hvalid hsecret
  · exact h.proved

theorem Inv.enableTotp (h : Inv checkCurrent verify s) {text code : String} {checkedAt : Int}
    (hcode : checkCurrent text checkedAt code = true)
    (hsame : ∀ row ∈ s.secret, row.enabled = true ∨ row.secret = text) :
    Inv checkCurrent verify (s.enableTotp (.code text code checkedAt)) := by
  unfold State.enableTotp
  split
  next => exact h
  next row hrow =>
    split
    next => exact h
    next hpending =>
      rcases hsame row hrow with henabled | rfl
      · exact absurd henabled hpending
      · have hnone : enabledSecret s.secret = none := by
          rw [hrow, enabledSecret, if_neg hpending]
        exact ⟨h.kept.enable hcode hnone, h.proved⟩

/-- Every statement that keeps the promise keeps the invariant. -/
theorem Inv.written (h : Inv checkCurrent verify s) (hash : String) {stage : Stage}
    (hproved : stage.Proved checkCurrent verify) (hkeeps : WriteKeeps s stage) :
    Inv checkCurrent verify (s.written hash stage) := by
  cases stage with
  | insertSecret text =>
      show Inv checkCurrent verify (s.insertSecret text)
      unfold State.insertSecret
      split
      next => exact h
      next hnone => exact ⟨h.kept.pending (by rw [hnone]; rfl), h.proved⟩
  | enable text code checkedAt => exact h.enableTotp hproved hkeeps
  | deleteSecret shown =>
      show Inv checkCurrent verify (s.dropSecret (some shown))
      cases hsome : enabledSecret s.secret with
      | none => exact h.dropPending _ hsome
      | some text =>
          have hthis := hkeeps text hsome
          exact h.dropEnabled hproved hsome hthis.1 hthis.2
  | createCredential credentialId => exact ⟨h.kept.passkeys_of (fun _ => hkeeps), h.proved⟩
  | _ => exact ⟨h.kept, h.proved⟩

theorem Stage.proved_next {stage : Stage} (h : stage.Proved checkCurrent verify) :
    ∀ later ∈ stage.next, later.Proved checkCurrent verify := by
  intro later hlater
  unfold Stage.next at hlater
  split at hlater
  next => cases hlater; trivial
  next => cases hlater
  next => cases hlater; trivial
  next => cases hlater
  next => cases hlater; trivial
  next => cases hlater; exact h
  next => cases hlater; trivial
  next => cases hlater; trivial
  next => cases hlater; trivial
  next => cases hlater

theorem Stage.proved_checked {purpose : Purpose} {row : SecretRow} {code : String} {now : Int} :
    ∀ later ∈ Stage.checked purpose row code now (checkCurrent row.secret now code),
      later.Proved checkCurrent verify := by
  intro later hlater
  cases hvalid : checkCurrent row.secret now code with
  | true =>
      rw [hvalid] at hlater
      cases purpose with
      | setup => cases hlater; exact hvalid
      | disable => cases hlater; exact hvalid
      | regenerate => cases hlater; trivial
      | login => cases hlater
  | false =>
      rw [hvalid] at hlater
      simp only [Stage.checked] at hlater
      split at hlater
      · cases hlater; trivial
      · cases hlater

theorem Inv.accept (h : Inv checkCurrent verify s) {purpose : Purpose} {row : SecretRow}
    {code : String} (hcode : checkCurrent row.secret s.clock code = true)
    (henabled : purpose = .login → row.enabled = true) :
    Inv checkCurrent verify (s.accept purpose row code) := by
  cases purpose with
  | login => exact ⟨h.kept.accept (henabled rfl) hcode, h.proved⟩
  | setup => exact h
  | disable => exact h
  | regenerate => exact h

theorem Inv.setupStart (h : Inv checkCurrent verify s) {secret : String} {fate : StatementFate}
    (hok : fate = .refused ∨ enabledSecret s.secret = none)
    (hstep : step checkCurrent verify s (.setupStart secret fate) = some t) :
    Inv checkCurrent verify t := by
  rw [← Option.some.inj hstep]
  cases fate with
  | done =>
      rcases hok with heq | hnone
      · cases heq
      · exact (h.dropPending none hnone).start trivial
  | refused => exact h
  | lost =>
      rcases hok with heq | hnone
      · cases heq
      · exact h.dropPending none hnone

theorem Inv.write (h : Inv checkCurrent verify s) {r : Request} (hr : r ∈ s.requests)
    (hash : String) {fate : StatementFate} (hok : fate = .refused ∨ WriteKeeps s r.stage) :
    Inv checkCurrent verify
      ((fate.after s (s.written hash r.stage)).proceed r (r.stage.afterWrite fate)) := by
  have hproved := h.proved r hr
  have hafter : Inv checkCurrent verify (fate.after s (s.written hash r.stage)) := by
    rcases hok with rfl | hkeeps
    · exact h
    · exact fate.after_keeps (Inv checkCurrent verify) h (h.written hash hproved hkeeps)
  apply hafter.proceed r
  cases fate with
  | done => exact Stage.proved_next hproved
  | refused => exact fun _ hnone => by cases hnone
  | lost => exact fun _ hnone => by cases hnone

/-- The code is checked against the row that was read. -/
theorem Inv.check (h : Inv checkCurrent verify s) {number : Nat}
    (hok : Keeps checkCurrent s (.check number))
    (hstep : step checkCurrent verify s (.check number) = some t) : Inv checkCurrent verify t := by
  obtain ⟨r, hreq, hcheck⟩ := Option.bind_eq_some_iff.mp hstep
  split at hcheck
  next purpose row code hstage =>
    have hlogin := hok r hreq
    rw [hstage] at hlogin
    rw [← Option.some.inj hcheck]
    apply Inv.proceed
    · split
      next hvalid =>
        apply h.accept hvalid
        rintro rfl
        exact hlogin hvalid
      next => exact h
    · exact Stage.proved_checked
  next => cases hcheck

/-- The backup code that is found is unused and verifies. -/
theorem Inv.load (h : Inv checkCurrent verify s) {number : Nat} {rows : List CodeRow}
    (hstep : step checkCurrent verify s (.load number rows) = some t) :
    Inv checkCurrent verify t := by
  obtain ⟨r, -, hload⟩ := Option.bind_eq_some_iff.mp hstep
  split at hload
  next purpose code _ =>
    split at hload
    next hperm =>
      rw [← Option.some.inj hload]
      apply h.proceed r
      intro stage hstage
      obtain ⟨row, hfind, rfl⟩ := Option.map_eq_some_iff.mp hstage
      have hunused := hperm.mem_iff.mp (List.mem_of_find?_eq_some hfind)
      have hverify := List.find?_some hfind
      exact ⟨by simpa using (List.mem_filter.mp hunused).2, hverify⟩
    next => cases hload
  next => cases hload

theorem inv_step {a : Action} (h : Inv checkCurrent verify s) (hok : Keeps checkCurrent s a)
    (hstep : step checkCurrent verify s a = some t) : Inv checkCurrent verify t := by
  cases a with
  | tick now =>
      rw [← Option.some.inj hstep]
      exact ⟨h.kept, h.proved⟩
  | setupStart secret fate => exact h.setupStart hok hstep
  | setupVerify code =>
      rw [← Option.some.inj hstep]
      exact h.start trivial
  | disable code answered =>
      rw [← Option.some.inj hstep]
      split
      · exact h
      · exact h.start trivial
  | regenerateBackupCodes code =>
      rw [← Option.some.inj hstep]
      split
      · exact h.start trivial
      · exact h
  | registerStart answered =>
      rw [← Option.some.inj hstep]
      split
      · exact h.start trivial
      · exact h
  | registerFinish credentialId =>
      rw [← Option.some.inj hstep]
      split
      next => exact h
      next =>
        split
        · exact h.start trivial
        · exact h
  | deletePasskey credentialId fate =>
      rw [← Option.some.inj hstep]
      apply fate.after_keeps (Inv checkCurrent verify) h
      constructor
      · apply h.kept.passkeys_of
        intro hne
        apply h.kept.passkeys
        intro hnil
        exact hne (by rw [hnil]; rfl)
      · exact h.proved
  | verifyLogin code isBackupCode =>
      rw [← Option.some.inj hstep]
      apply h.start
      split <;> trivial
  | read number =>
      obtain ⟨r, -, hread⟩ := Option.bind_eq_some_iff.mp hstep
      split at hread
      next purpose code _ =>
        rw [← Option.some.inj hread]
        apply h.proceed r
        intro stage hstage
        obtain ⟨row, -, rfl⟩ := Option.map_eq_some_iff.mp hstage
        trivial
      next => cases hread
  | check number => exact h.check hok hstep
  | load number rows => exact h.load hstep
  | write number hash fate =>
      obtain ⟨r, hreq, hwrite⟩ := Option.bind_eq_some_iff.mp hstep
      split at hwrite
      next =>
        rw [← Option.some.inj hwrite]
        exact h.write (request?_spec hreq) hash (hok.imp_right (fun hkeeps => hkeeps r hreq))
      next => cases hwrite
  | abandon number =>
      obtain ⟨r, -, rfl⟩ := Option.map_eq_some_iff.mp hstep
      exact h.proceed r (fun _ hnone => by cases hnone)

/-- The codes of a secret are those that begin with it. -/
def beginsWith (secret : String) (_ : Int) (code : String) : Bool :=
  secret.toList.isPrefixOf code.toList

def sameText (a b : String) : Bool := a == b

/-- A setup, a passkey, a login, and a disable request once the passkey is gone. -/
def kept : List Action :=
  [.setupStart "A" .done, .write 0 "" .done, .setupVerify "A1", .read 1, .check 1,
    .write 1 "" .done, .write 1 "" .done, .write 1 "h1" .done, .registerStart true,
    .write 2 "" .done, .write 2 "" .done, .registerFinish (some "key"), .write 3 "" .done,
    .verifyLogin "A2" false, .read 4, .check 4, .disable "A3" true, .deletePasskey "key" .done,
    .disable "A3" true, .read 5, .check 5, .write 5 "" .done]

/-- The authenticator is set up and has a passkey beside it. -/
def withPasskey : List Action :=
  [.setupStart "A" .done, .write 0 "" .done, .setupVerify "A1", .read 1, .check 1,
    .write 1 "" .done, .registerStart true, .write 2 "" .done, .write 2 "" .done,
    .registerFinish (some "key"), .write 3 "" .done]

/-- A second setup is started, and a login gives a code of its secret. -/
def setupAgain : List Action :=
  withPasskey ++ [.setupStart "B" .done, .write 4 "" .done, .verifyLogin "B1" false, .read 5,
    .check 5]

end Lightfriend.Auth.Authenticator
