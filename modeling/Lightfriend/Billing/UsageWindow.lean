import Lightfriend.Billing.Credits
import Lightfriend.Core.Transition

/-! # The windows of the included usage

Views, credit checks and deductions refill the included credits when the window
of their copy of the row has ended; turning the user's own Twilio account on
clears the window, turning it off checks it again. The calls interleave
statement by statement, under a clock that does not go back.
-/

namespace Lightfriend.Billing

/-! ## The next window -/

section Window

variable {now : Int} {w window : IncludedUsageWindow}

theorem lt_saturatingAdd_window {start : Int} (hpos : 0 < start) (hmax : start < i32Max) :
    start < saturatingAdd start includedUsageWindowSeconds := by
  unfold saturatingAdd clampI32
  simp only [i32Max, i32Min, includedUsageWindowSeconds] at *
  omega

/-- The loop moves a window of full length up to `now`. -/
theorem rollWindow_spec {fuel : Nat} (h : rollWindow now fuel window = some w)
    (hmax : now < i32Max) (hpos : 0 < window.start) (hstart : window.start ≤ now)
    (hends : window.ends = saturatingAdd window.start includedUsageWindowSeconds) :
    window.start ≤ w.start ∧ w.start ≤ now ∧ now < w.ends ∧
      w.ends = saturatingAdd w.start includedUsageWindowSeconds := by
  induction fuel generalizing window with
  | zero => cases h
  | succ fuel ih =>
      rw [rollWindow] at h
      split at h
      next hended =>
        have hlonger := lt_saturatingAdd_window hpos (by omega)
        obtain ⟨hle, hrest⟩ := ih h (by simp only; omega) hended rfl
        exact ⟨by simp only at hle; omega, hrest⟩
      next hcurrent =>
        cases h
        exact ⟨le_refl _, hstart, by omega, hends⟩

/-- The rounds of the model's loop suffice before the last timestamp. -/
theorem rollWindow_isSome {fuel : Nat} (hpos : 0 < window.ends) (hmax : now < i32Max)
    (hfuel : now < window.ends + fuel * includedUsageWindowSeconds) :
    (rollWindow now (fuel + 1) window).isSome = true := by
  induction fuel generalizing window with
  | zero =>
      have hcurrent : ¬ window.ends ≤ now := by simpa using hfuel
      rw [rollWindow, if_neg hcurrent]
      rfl
  | succ fuel ih =>
      rw [rollWindow]
      split
      next hended =>
        refine ih ?_ ?_ <;>
        · simp only [saturatingAdd, clampI32, i32Max, i32Min, includedUsageWindowSeconds] at *
          push_cast at hfuel
          omega
      next => rfl

/-- What a refill writes for a copy of the row. -/
def RefillFor (start ends : Option Int) (w : IncludedUsageWindow) : Prop :=
  0 < w.start ∧ w.start < w.ends ∧ w.ends = saturatingAdd w.start includedUsageWindowSeconds ∧
    ∀ s e, start = some s → ends = some e → 0 < s → s < e → e ≤ w.start

theorem currentIncludedUsageWindow_refill {start ends : Option Int} (hpos : 0 < now)
    (hmax : now < i32Max) (h : currentIncludedUsageWindow now start ends = some (w, true)) :
    RefillFor start ends w := by
  have hfresh : ∀ v : IncludedUsageWindow,
      (⟨now, saturatingAdd now includedUsageWindowSeconds⟩ : IncludedUsageWindow) = v →
        (∀ s e, start = some s → ends = some e → 0 < s → s < e → False) →
          RefillFor start ends v := by
    intro v hv hnone
    rw [← hv]
    exact ⟨hpos, lt_saturatingAdd_window hpos hmax, rfl,
      fun s e hs he h0 hlt => (hnone s e hs he h0 hlt).elim⟩
  unfold currentIncludedUsageWindow at h
  cases start with
  | none => exact hfresh w (by simpa using h) (fun s e hs => by cases hs)
  | some s =>
      cases ends with
      | none => exact hfresh w (by simpa using h) (fun s e _ he => by cases he)
      | some e =>
          simp only at h
          split at h
          next hproper =>
            split at h
            · cases h
            next hended =>
              obtain ⟨v, hroll, hv⟩ := Option.map_eq_some_iff.mp h
              cases hv
              have hle : e ≤ now := by omega
              rw [rollRounds, rollWindow, if_pos hle] at hroll
              obtain ⟨hstart, hnow, hcurrent, hlength⟩ :=
                rollWindow_spec hroll hmax (by simp only; omega) hle rfl
              simp only at hstart
              refine ⟨by omega, by omega, hlength, fun s' e' hs he _ _ => ?_⟩
              cases he
              exact hstart
          next himproper =>
            refine hfresh w (by simpa using h) (fun s' e' hs he h0 hlt => ?_)
            cases hs
            cases he
            exact himproper ⟨h0, hlt⟩

/-- Before the last timestamp the loop ends. -/
theorem currentIncludedUsageWindow_isSome (start ends : Option Int) (hpos : 0 < now)
    (hmax : now < i32Max) : (currentIncludedUsageWindow now start ends).isSome = true := by
  unfold currentIncludedUsageWindow
  cases start with
  | none => rfl
  | some s =>
      cases ends with
      | none => rfl
      | some e =>
          simp only
          split
          next hproper =>
            split
            · rfl
            · rw [Option.isSome_map, rollRounds]
              refine rollWindow_isSome (by simp only; omega) hmax ?_
              simp only [includedUsageWindowSeconds]
              omega
          next => rfl

end Window

/-! ## The handler of the user's own Twilio account -/

structure UsageStore (α : Type) where
  user : User α
  /-- The attempt id of the verification row, and whether it is still being configured. -/
  attempt : Option (String × Bool)
deriving DecidableEq, Repr

inductive UsageStatement (α : Type)
  | billing (s : Statement α)
  | updateOwnTwilioEnabled (enabled : Bool)
  | getTwilioCredentials
  | startAttempt (attemptId : String)
  /-- The requests that set the account up. -/
  | configureAndVerify
  | failIfCurrent (attemptId : String)
  | activateIfCurrent (attemptId : String)
deriving Repr

abbrev UsageAnswer {α : Type} : UsageStatement α → Type
  | .billing s => Answer s
  | .updateOwnTwilioEnabled _ => Bool
  | .getTwilioCredentials => Bool
  | .startAttempt _ => Bool
  | .configureAndVerify => Bool
  | .failIfCurrent _ => Bool
  | .activateIfCurrent _ => Option Bool

abbrev UsageProgram (α ρ : Type) : Type := Program (UsageStatement α) UsageAnswer ρ

namespace UsageStore

variable {α : Type} [F32 α]

def isCurrent (t : UsageStore α) (attemptId : String) : Bool := t.attempt = some (attemptId, true)

def setOwn (t : UsageStore α) (enabled : Bool) : UsageStore α :=
  { t with user := { t.user with ownTwilioEnabled := enabled } }

def activateIfCurrent (t : UsageStore α) (attemptId : String) : UsageStore α :=
  if t.isCurrent attemptId then { t.setOwn true with attempt := some (attemptId, false) } else t

def failIfCurrent (t : UsageStore α) (attemptId : String) : UsageStore α :=
  if t.isCurrent attemptId then { t with attempt := some (attemptId, false) } else t

/-- The store after a statement that was carried out. -/
def write (t : UsageStore α) : UsageStatement α → UsageStore α
  | .billing s => { t with user := t.user.write s }
  | .updateOwnTwilioEnabled enabled => t.setOwn enabled
  | .getTwilioCredentials => t
  | .startAttempt attemptId => { t.setOwn false with attempt := some (attemptId, true) }
  | .configureAndVerify => t
  | .failIfCurrent attemptId => t.failIfCurrent attemptId
  | .activateIfCurrent attemptId => t.activateIfCurrent attemptId

def answer (t : UsageStore α) (input : Input α) : (s : UsageStatement α) → UsageAnswer s
  | .billing s => t.user.answer input s
  | .updateOwnTwilioEnabled _ => (input.fate.answer ()).isSome
  | .getTwilioCredentials => (input.fate.answer ()).isSome
  | .startAttempt _ => (input.fate.answer ()).isSome
  | .configureAndVerify => (input.fate.answer ()).isSome
  | .failIfCurrent attemptId => (input.fate.answer (t.isCurrent attemptId)).getD false
  | .activateIfCurrent attemptId => input.fate.answer (t.isCurrent attemptId)

def exec : Exec (UsageStatement α) UsageAnswer (Input α) (UsageStore α) := fun s input t =>
  (input.fate.after t (t.write s), t.answer input s)

end UsageStore

section Handlers

variable {α : Type} [F32 α] {ρ : Type}

/-- A program on the row, as a part of a handler. -/
def onRow (p : BillingProgram α ρ) : UsageProgram α ρ := p.embed .billing (fun _ answer => answer)

def handler (s : UsageStatement α) : UsageProgram α (UsageAnswer s) := .perform s

def disableOwnTwilio : UsageProgram α (Except String Bool) := do
  if ← handler (.updateOwnTwilioEnabled false) then
    match ← onRow findById with
    | some (some user) =>
        if user.subTier = some "tier 2" then
          let _ ← onRow (ensureCurrentIncludedUsageWindow false user)
          return .ok false
        else return .ok false
    | _ => return .ok false
  else return .error "Failed to disable own Twilio mode"

def enableOwnTwilio (attemptId : String) : UsageProgram α (Except String Bool) := do
  if ← handler .getTwilioCredentials then
    if ← handler (.startAttempt attemptId) then
      if ← handler .configureAndVerify then
        match ← handler (.activateIfCurrent attemptId) with
        | none => return .error "Failed to persist Twilio verification"
        | some false =>
            return .error
              "Twilio settings changed while they were being verified. Please retry."
        | some true =>
            let _ ← onRow clearIncludedUsageWindow
            return .ok true
      else
        let _ ← handler (.failIfCurrent attemptId)
        return .error "Twilio verification failed"
    else return .error "Failed to start Twilio verification"
  else return .error "Add your Twilio credentials before enabling own Twilio mode"

def updateOwnTwilioEnabled (enabled : Bool) (attemptId : String) :
    UsageProgram α (Except String Bool) :=
  if enabled then enableOwnTwilio attemptId else disableOwnTwilio

/-- A view of the usage: the row is loaded and its window checked. -/
def viewUsage : BillingProgram α (Except String (User α)) := do
  match ← findById with
  | some (some user) => ensureCurrentIncludedUsageWindow false user
  | _ => return .error "User not found"

/-- The part of `check_user_credits` that touches the row. -/
def checkUserCredits (active : Bool) : BillingProgram α (Except String (User α)) := do
  match ← findById with
  | some (some user) =>
      if active then
        if user.subTier = some "tier 2" then
          if ← isByotUser then return .ok user
          else ensureCurrentIncludedUsageWindow false user
        else return .error "Active subscription required. Please subscribe to continue using the service."
      else return .error "Phone service is currently deactivated for this number."
  | _ => return .error "User not found"

end Handlers

/-! ## The system -/

inductive UsageCall (α : Type)
  | view
  | check (active : Bool)
  | deductUserCredits (eventType : String) (amount : Option Int)
  | deductFromTwilioPrice (twilioPriceUsd : α) (transactionId : Option String) (provider : String)
  | updateOwnTwilioEnabled (enabled : Bool) (attemptId : String)
deriving DecidableEq, Repr

inductive WindowEvent
  | refill (window : IncludedUsageWindow) (time : Int)
  | clear
  | deduct
deriving DecidableEq, Repr

structure UsageThread (α : Type) where
  program : UsageProgram α Unit
  /-- The row as the call read it last. -/
  seen : Option (User α)

structure UsageState (α : Type) where
  clock : Int
  store : UsageStore α
  threads : List (UsageThread α)
  /-- What happened to the included credits, the newest first. -/
  events : List WindowEvent

inductive UsageAction (α : Type)
  | tick (now : Int)
  | call (c : UsageCall α)
  | issue (i : Nat) (input : Input α)
deriving DecidableEq, Repr

section System

variable {α : Type} [F32 α]

/-- A call in local-credit mode. -/
def UsageCall.program (getCountryCodeFromPhone : String → Option String) :
    UsageCall α → UsageProgram α Unit
  | view => onRow viewUsage >>= fun _ => .done ()
  | check active => onRow (checkUserCredits active) >>= fun _ => .done ()
  | deductUserCredits eventType amount =>
      onRow (Billing.deductUserCredits false getCountryCodeFromPhone eventType amount) >>=
        fun _ => .done ()
  | deductFromTwilioPrice twilioPriceUsd transactionId provider =>
      onRow (Billing.deductFromTwilioPrice false twilioPriceUsd transactionId provider) >>=
        fun _ => .done ()
  | updateOwnTwilioEnabled enabled attemptId =>
      Billing.updateOwnTwilioEnabled enabled attemptId >>= fun _ => .done ()

/-- What a statement that was carried out did to the included credits. -/
def UsageStatement.event (now : Int) : UsageStatement α → List WindowEvent
  | .billing (.resetIncludedUsageWindow windowStart windowEnd _) =>
      [.refill ⟨windowStart, windowEnd⟩ now]
  | .billing .clearIncludedUsageWindow => [.clear]
  | .billing (.updateUserCreditsLeft _) => [.deduct]
  | _ => []

/-- The copy a call has after a statement. -/
def UsageStatement.seen (seen : Option (User α)) (input : Input α) (u : User α) :
    UsageStatement α → Option (User α)
  | .billing .findById => if input.fate = .done then some u else seen
  | _ => seen

namespace UsageState

def step (country : String → Option String) (s : UsageState α) :
    UsageAction α → Option (UsageState α)
  | .tick now => if s.clock ≤ now ∧ now < i32Max then some { s with clock := now } else none
  | .call c => some { s with threads := s.threads ++ [⟨c.program country, none⟩] }
  | .issue i input =>
      match s.threads[i]? with
      | none => none
      | some th =>
          match th.program with
          | .done _ => none
          | .issue stmt rest =>
              if input.now = s.clock then
                some { s with
                  store := (UsageStore.exec stmt input s.store).1
                  threads := s.threads.set i
                    ⟨rest (UsageStore.exec stmt input s.store).2,
                      stmt.seen th.seen input s.store.user⟩
                  events := input.fate.after s.events (stmt.event s.clock ++ s.events) }
              else none

/-- No call runs yet. -/
def start (clock : Int) (store : UsageStore α) : UsageState α := ⟨clock, store, [], []⟩

/-- A refill is written while the row still has the window its call read. -/
def refillsReadWindow (s : UsageState α) : UsageAction α → Bool
  | .issue i input =>
      match s.threads[i]? with
      | none => true
      | some th =>
          match th.program with
          | .issue (.billing (.resetIncludedUsageWindow _ _ _)) _ =>
              input.fate = .refused || th.seen.any (fun u =>
                u.includedUsageWindowStartTimestamp =
                    s.store.user.includedUsageWindowStartTimestamp ∧
                  u.includedUsageWindowEndTimestamp =
                    s.store.user.includedUsageWindowEndTimestamp)
          | _ => true
  | _ => true

end UsageState

/-! ## The law -/

/-- Two refills with no clearing between them: the later window begins after the earlier one has
ended, so what was deducted in between was not in the later window. -/
structure RefillLaw (events : List WindowEvent) : Prop where
  apart : ∀ later between earlier w w' t t',
    events = later ++ .refill w' t' :: between ++ .refill w t :: earlier →
      WindowEvent.clear ∉ between →
        w.ends = saturatingAdd w.start includedUsageWindowSeconds ∧ w.ends ≤ w'.start
  kept : ∀ later between earlier w w' t t',
    events = later ++ .refill w' t' :: between ++ .refill w t :: earlier →
      WindowEvent.clear ∉ between → WindowEvent.deduct ∈ between → w' ≠ w

/-- Any two refills are a window's length apart. -/
def RefillsApart (events : List WindowEvent) : Prop :=
  ∀ later between earlier w w' t t',
    events = later ++ .refill w' t' :: between ++ .refill w t :: earlier →
      t + includedUsageWindowSeconds ≤ t'

/-! ## The windows of a history -/

/-- The window refilled last, if it was not cleared since. -/
def lastRefill : List WindowEvent → Option IncludedUsageWindow
  | [] => none
  | .refill w _ :: _ => some w
  | .clear :: _ => none
  | .deduct :: rest => lastRefill rest

def IncludedUsageWindow.Full (w : IncludedUsageWindow) : Prop :=
  0 < w.start ∧ w.start < w.ends ∧ w.ends = saturatingAdd w.start includedUsageWindowSeconds

/-- Every refilled window is of full length and begins after the one before it. -/
def Windows : List WindowEvent → Prop
  | [] => True
  | .refill w _ :: rest =>
      w.Full ∧ (∀ v, lastRefill rest = some v → v.ends ≤ w.start) ∧ Windows rest
  | .clear :: rest => Windows rest
  | .deduct :: rest => Windows rest

theorem Windows.full {events : List WindowEvent} (h : Windows events) {w : IncludedUsageWindow}
    {t : Int} (hmem : WindowEvent.refill w t ∈ events) : w.Full := by
  induction events with
  | nil => cases hmem
  | cons e rest ih =>
      cases e with
      | refill v t' =>
          rcases List.mem_cons.mp hmem with heq | hrest
          · cases heq
            exact h.1
          · exact ih h.2.2 hrest
      | clear => exact ih h (List.mem_of_ne_of_mem (by simp) hmem)
      | deduct => exact ih h (List.mem_of_ne_of_mem (by simp) hmem)

/-- Without a clearing, the window refilled last ends no earlier than any before it. -/
theorem Windows.last {between earlier : List WindowEvent} {w : IncludedUsageWindow} {t : Int}
    (h : Windows (between ++ .refill w t :: earlier)) (hclear : WindowEvent.clear ∉ between) :
    ∃ v, lastRefill (between ++ .refill w t :: earlier) = some v ∧ w.ends ≤ v.ends := by
  induction between with
  | nil => exact ⟨w, rfl, le_refl _⟩
  | cons e rest ih =>
      have hrest : WindowEvent.clear ∉ rest := fun hmem => hclear (List.mem_cons_of_mem e hmem)
      cases e with
      | refill v t' =>
          obtain ⟨hfull, hafter, hwindows⟩ := h
          obtain ⟨u, hu, hle⟩ := ih hwindows hrest
          have hstart := hafter u hu
          exact ⟨v, rfl, by have := hfull.2.1; omega⟩
      | clear => exact absurd List.mem_cons_self hclear
      | deduct => exact ih h hrest

theorem Windows.of_append {later rest : List WindowEvent} (h : Windows (later ++ rest)) :
    Windows rest := by
  induction later with
  | nil => exact h
  | cons e later ih =>
      cases e with
      | refill w t => exact ih h.2.2
      | clear => exact ih h
      | deduct => exact ih h

theorem Windows.law {events : List WindowEvent} (h : Windows events) : RefillLaw events := by
  have hapart : ∀ later between earlier w w' t t',
      events = later ++ .refill w' t' :: between ++ .refill w t :: earlier →
        WindowEvent.clear ∉ between → w.Full ∧ w.ends ≤ w'.start := by
    intro later between earlier w w' t t' heq hclear
    have hsplit : Windows (.refill w' t' :: (between ++ .refill w t :: earlier)) := by
      rw [heq, List.append_assoc] at h
      exact h.of_append
    obtain ⟨_, hafter, hrest⟩ := hsplit
    obtain ⟨v, hlast, hle⟩ := hrest.last hclear
    have hstart := hafter v hlast
    exact ⟨hrest.full (List.mem_append_right _ List.mem_cons_self), by omega⟩
  constructor
  · intro later between earlier w w' t t' heq hclear
    obtain ⟨hfull, hle⟩ := hapart later between earlier w w' t t' heq hclear
    exact ⟨hfull.2.2, hle⟩
  · intro later between earlier w w' t t' heq hclear _ hsame
    obtain ⟨hfull, hle⟩ := hapart later between earlier w w' t t' heq hclear
    rw [hsame] at hle
    have hlt := hfull.2.1
    omega

/-! ## The calls refill for the copy they read -/

/-- A refill is issued with the copy it was computed from in hand. -/
def RefillAllowed (seen : Option (User α)) : Statement α → Prop
  | .resetIncludedUsageWindow windowStart windowEnd _ => ∃ u, seen = some u ∧
      RefillFor u.includedUsageWindowStartTimestamp u.includedUsageWindowEndTimestamp
        ⟨windowStart, windowEnd⟩
  | _ => True

def Input.Timely (input : Input α) : Prop := 0 < input.now ∧ input.now < i32Max

def rowProtocol (α : Type) [F32 α] : Protocol (User.exec (α := α)) (Option (User α)) where
  allows := RefillAllowed
  admits := Input.Timely
  next seen s input u := (UsageStatement.billing s).seen seen input u

def usageProtocol (α : Type) [F32 α] : Protocol (UsageStore.exec (α := α)) (Option (User α)) where
  allows seen s :=
    match s with
    | .billing s => RefillAllowed seen s
    | _ => True
  admits := Input.Timely
  next seen s input t := s.seen seen input t.user

/-- Neither part of a refill: the copy stays and nothing is refilled. -/
def Statement.isPlain : Statement α → Bool
  | .findById => false
  | .resetIncludedUsageWindow _ _ _ => false
  | _ => true

section Calls

variable {ρ τ : Type} {seen : Option (User α)} {post : Option (User α) → ρ → Prop}

theorem obeys_done {result : ρ} (h : post seen result) :
    (rowProtocol α).Obeys post seen (.done result) := h

theorem obeys_issue {s : Statement α} {rest : Answer s → BillingProgram α ρ}
    (hplain : s.isPlain = true)
    (hrest : ∀ u input, input.Timely →
      (rowProtocol α).Obeys post seen (rest (User.answer u input s))) :
    (rowProtocol α).Obeys post seen (.issue s rest) := by
  refine ⟨?_, fun input u hinput => ?_⟩
  · cases s with
    | resetIncludedUsageWindow windowStart windowEnd includedCredits => cases hplain
    | _ => trivial
  · have hseen : (UsageStatement.billing s).seen seen input u = seen := by
      cases s <;> first | rfl | cases hplain
    change (rowProtocol α).Obeys post ((UsageStatement.billing s).seen seen input u) _
    rw [hseen]
    exact hrest u input hinput

/-- Nothing has to hold at the end. -/
def Anything (_ : Option (User α)) (_ : ρ) : Prop := True

theorem obeys_findById {rest : Option (Option (User α)) → BillingProgram α ρ}
    (hnone : ∀ seen, (rowProtocol α).Obeys post seen (rest none))
    (hsome : ∀ u, (rowProtocol α).Obeys post (some u) (rest (some (some u)))) :
    (rowProtocol α).Obeys post seen (findById >>= rest) := by
  refine ⟨trivial, fun input u _ => ?_⟩
  change (rowProtocol α).Obeys post
    ((UsageStatement.billing .findById).seen seen input u) (rest (input.fate.answer (some u)))
  cases hfate : input.fate with
  | done =>
      simp only [UsageStatement.seen, hfate, if_true]
      exact hsome u
  | refused => exact hnone _
  | lost => exact hnone _

theorem obeys_refresh (wrote : Bool) (failed gone : String) :
    (rowProtocol α).Obeys Anything seen (refresh wrote failed gone) := by
  unfold refresh
  split
  · exact obeys_findById (fun _ => trivial) (fun _ => trivial)
  · trivial

theorem obeys_ensure (u : User α) :
    (rowProtocol α).Obeys Anything (some u) (ensureCurrentIncludedUsageWindow false u) := by
  change (rowProtocol α).Obeys Anything (some u) (hasNoIncludedUsage u >>= fun excluded =>
    if excluded = true then dropIncludedUsage u else renewIncludedUsage u)
  have hfirst : (rowProtocol α).Obeys (fun seen _ => seen = some u) (some u)
      (hasNoIncludedUsage u) := by
    unfold hasNoIncludedUsage
    split
    · exact obeys_done rfl
    · exact obeys_issue rfl (fun _ _ _ => obeys_done rfl)
  refine hfirst.bind (fun seen excluded hseen => ?_)
  subst hseen
  split
  · unfold dropIncludedUsage
    split
    · exact obeys_issue rfl (fun _ _ _ => obeys_refresh _ _ _)
    · trivial
  · rw [renewIncludedUsage_eq]
    refine obeys_issue rfl (fun v input hinput => ?_)
    split
    · trivial
    · trivial
    next window hcurrent =>
      have hrefill := currentIncludedUsageWindow_refill hinput.1 hinput.2 hcurrent
      refine ⟨⟨u, rfl, hrefill⟩, fun input v _ => ?_⟩
      exact obeys_refresh _ _ _

theorem obeys_takeCost (u : User α) (cost : α) :
    (rowProtocol α).Obeys Anything seen (takeCost u cost) := by
  unfold takeCost
  split
  · trivial
  · split
    · exact obeys_issue rfl (fun _ _ _ => trivial)
    · split
      · exact obeys_issue rfl (fun _ _ _ => trivial)
      · trivial

theorem obeys_takePrice (u : User α) (cost : α) :
    (rowProtocol α).Obeys Anything seen (takePrice u cost) := by
  unfold takePrice
  split
  · exact obeys_issue rfl (fun _ _ _ => trivial)
  · split
    · exact obeys_issue rfl (fun _ _ _ => trivial)
    · split <;> exact obeys_issue rfl (fun _ _ _ => trivial)

theorem obeys_isByotUser : (rowProtocol α).Obeys (fun k _ => k = seen) seen isByotUser :=
  obeys_issue rfl (fun _ _ _ => obeys_done rfl)

theorem obeys_getActivityCost (country : String → Option String) (phoneNumber eventType : String)
    (amount : Option Int) :
    (rowProtocol α).Obeys (fun k _ => k = seen) seen
      (getActivityCost country phoneNumber eventType amount) := by
  unfold getActivityCost cachedPricing
  cases country phoneNumber with
  | none => exact obeys_done rfl
  | some code => exact obeys_issue rfl (fun _ _ _ => obeys_done rfl)

theorem obeys_deductActivity (country : String → Option String) (eventType : String)
    (amount : Option Int) (u : User α) :
    (rowProtocol α).Obeys Anything (some u)
      (deductActivity false country eventType amount u) := by
  unfold deductActivity
  refine obeys_isByotUser.bind (fun seen byot hseen => ?_)
  subst hseen
  split
  · trivial
  · refine (obeys_getActivityCost country _ eventType amount).bind (fun seen cost hseen => ?_)
    subst hseen
    split
    · trivial
    · unfold chargeCost
      refine (obeys_ensure u).bind (fun seen result _ => ?_)
      cases result with
      | error error => trivial
      | ok v => exact obeys_takeCost v cost

theorem obeys_deductPrice (twilioPriceUsd : α) (transactionId : Option String) (provider : String)
    (u : User α) :
    (rowProtocol α).Obeys Anything (some u)
      (deductPrice false twilioPriceUsd transactionId provider u) := by
  unfold deductPrice
  refine obeys_isByotUser.bind (fun seen byot hseen => ?_)
  subst hseen
  split
  · trivial
  · split
    · trivial
    · unfold chargePrice
      refine (obeys_ensure u).bind (fun seen result _ => ?_)
      cases result with
      | error error => trivial
      | ok v => exact obeys_takePrice v _

theorem obeys_viewUsage : (rowProtocol α).Obeys Anything seen viewUsage :=
  obeys_findById (fun _ => trivial) obeys_ensure

theorem obeys_checkUserCredits (active : Bool) :
    (rowProtocol α).Obeys Anything seen (checkUserCredits active) := by
  refine obeys_findById (fun _ => trivial) (fun u => ?_)
  change (rowProtocol α).Obeys Anything (some u) (if active = true then _ else _)
  split
  · split
    · refine obeys_isByotUser.bind (fun seen byot hseen => ?_)
      subst hseen
      split
      · trivial
      · exact obeys_ensure u
    · trivial
  · trivial

theorem obeys_onRow {p : BillingProgram α ρ} (h : (rowProtocol α).Obeys post seen p) :
    (usageProtocol α).Obeys post seen (onRow p) :=
  h.embed UsageStore.user (fun _ _ hallows => hallows) (fun _ hinput => hinput)
    (fun _ _ _ _ => rfl) (fun _ _ _ => rfl)

/-- A statement on no window. -/
theorem obeys_handler {stmt : UsageStatement α} {rest : UsageAnswer stmt → UsageProgram α ρ}
    (hother : ∀ s, stmt ≠ .billing s)
    (hrest : ∀ answer, (usageProtocol α).Obeys post seen (rest answer)) :
    (usageProtocol α).Obeys post seen (handler stmt >>= rest) := by
  refine ⟨?_, fun input t _ => ?_⟩
  · cases stmt with
    | billing s => exact absurd rfl (hother s)
    | _ => trivial
  · have hseen : stmt.seen seen input t.user = seen := by
      cases stmt with
      | billing s => exact absurd rfl (hother s)
      | _ => rfl
    change (usageProtocol α).Obeys post (stmt.seen seen input t.user) _
    rw [hseen]
    exact hrest _

theorem obeys_disableOwnTwilio :
    (usageProtocol α).Obeys Anything seen (disableOwnTwilio : UsageProgram α (Except String Bool)) := by
  unfold disableOwnTwilio
  refine obeys_handler (fun _ h => by cases h) (fun ok => ?_)
  split
  · have hfind : (rowProtocol α).Obeys
        (fun seen found => ∀ u, found = some (some u) → seen = some u) seen findById :=
      @obeys_findById α _ _ _ _ .done (fun _ _ h => by cases h) (fun u v h => by cases h; rfl)
    refine (obeys_onRow hfind).bind (fun seen found hseen => ?_)
    split
    next u =>
      rw [hseen u rfl]
      split
      · exact (obeys_onRow (obeys_ensure u)).bind (fun _ _ _ => trivial)
      · trivial
    next => trivial
  · trivial

theorem obeys_enableOwnTwilio (attemptId : String) :
    (usageProtocol α).Obeys Anything seen
      (enableOwnTwilio attemptId : UsageProgram α (Except String Bool)) := by
  unfold enableOwnTwilio
  refine obeys_handler (fun _ h => by cases h) (fun credentials => ?_)
  split
  · refine obeys_handler (fun _ h => by cases h) (fun started => ?_)
    split
    · refine obeys_handler (fun _ h => by cases h) (fun verified => ?_)
      split
      · refine obeys_handler (fun _ h => by cases h) (fun activated => ?_)
        split
        · trivial
        · trivial
        · have hclear : (rowProtocol α).Obeys Anything seen
              (clearIncludedUsageWindow : BillingProgram α Bool) :=
            obeys_issue rfl (fun _ _ _ => trivial)
          exact (obeys_onRow hclear).bind (fun _ _ _ => trivial)
      · exact obeys_handler (fun _ h => by cases h) (fun _ => trivial)
    · trivial
  · trivial

theorem UsageCall.obeys (country : String → Option String) (c : UsageCall α) :
    (usageProtocol α).Obeys Anything none (c.program country) := by
  cases c with
  | view => exact (obeys_onRow obeys_viewUsage).bind (fun _ _ _ => trivial)
  | check active => exact (obeys_onRow (obeys_checkUserCredits active)).bind (fun _ _ _ => trivial)
  | deductUserCredits eventType amount =>
      have hcall : (rowProtocol α).Obeys Anything none
          (Billing.deductUserCredits false country eventType amount) :=
        obeys_findById (fun _ => trivial) (obeys_deductActivity country eventType amount)
      exact (obeys_onRow hcall).bind (fun _ _ _ => trivial)
  | deductFromTwilioPrice twilioPriceUsd transactionId provider =>
      have hcall : (rowProtocol α).Obeys Anything none
          (Billing.deductFromTwilioPrice false twilioPriceUsd transactionId provider) :=
        obeys_findById (fun _ => trivial)
          (obeys_deductPrice twilioPriceUsd transactionId provider)
      exact (obeys_onRow hcall).bind (fun _ _ _ => trivial)
  | updateOwnTwilioEnabled enabled attemptId =>
      cases enabled with
      | true => exact (obeys_enableOwnTwilio attemptId).bind (fun _ _ _ => trivial)
      | false => exact obeys_disableOwnTwilio.bind (fun _ _ _ => trivial)

end Calls

/-! ## The invariant -/

theorem lastRefill_full {events : List WindowEvent} (h : Windows events)
    {w : IncludedUsageWindow} (hlast : lastRefill events = some w) : w.Full := by
  induction events with
  | nil => cases hlast
  | cons e rest ih =>
      cases e with
      | refill v t =>
          cases hlast
          exact h.1
      | clear => cases hlast
      | deduct => exact ih h hlast

namespace UsageState

structure Inv (s : UsageState α) : Prop where
  timely : 0 < s.clock ∧ s.clock < i32Max
  obeys : ∀ th ∈ s.threads, (usageProtocol α).Obeys Anything th.seen th.program
  windows : Windows s.events
  current : ∀ w, lastRefill s.events = some w →
    s.store.user.includedUsageWindowStartTimestamp = some w.start ∧
      s.store.user.includedUsageWindowEndTimestamp = some w.ends

variable {s next : UsageState α} {i : Nat} {input : Input α} {th : UsageThread α}

/-- A statement that leaves the window of the row and is no event but a deduction. -/
theorem Inv.kept (hinv : s.Inv) {store : UsageStore α} {threads : List (UsageThread α)}
    {events : List WindowEvent}
    (hthreads : ∀ th ∈ threads, (usageProtocol α).Obeys Anything th.seen th.program)
    (hstart : store.user.includedUsageWindowStartTimestamp =
      s.store.user.includedUsageWindowStartTimestamp)
    (hends : store.user.includedUsageWindowEndTimestamp =
      s.store.user.includedUsageWindowEndTimestamp)
    (hevents : events = s.events ∨ events = .deduct :: s.events) :
    Inv { s with store := store, threads := threads, events := events } := by
  have hwindows : Windows events := by
    rcases hevents with heq | heq <;>
    · rw [heq]
      exact hinv.windows
  have hlast : lastRefill events = lastRefill s.events := by
    rcases hevents with heq | heq
    · rw [heq]
    · rw [heq, lastRefill]
  refine ⟨hinv.timely, hthreads, hwindows, ?_⟩
  intro w hw
  simp only at hw ⊢
  rw [hlast] at hw
  rw [hstart, hends]
  exact hinv.current w hw

theorem Inv.refilled (hinv : s.Inv) {threads : List (UsageThread α)} {u : User α}
    {windowStart windowEnd : Int} {includedCredits : α}
    (hthreads : ∀ th ∈ threads, (usageProtocol α).Obeys Anything th.seen th.program)
    (hrefill : RefillFor u.includedUsageWindowStartTimestamp u.includedUsageWindowEndTimestamp
      ⟨windowStart, windowEnd⟩)
    (hread : u.includedUsageWindowStartTimestamp =
        s.store.user.includedUsageWindowStartTimestamp ∧
      u.includedUsageWindowEndTimestamp = s.store.user.includedUsageWindowEndTimestamp) :
    Inv { s with
      store := s.store.write (.billing (.resetIncludedUsageWindow windowStart windowEnd
        includedCredits))
      threads := threads
      events := .refill ⟨windowStart, windowEnd⟩ s.clock :: s.events } := by
  obtain ⟨hpos, hlt, hlength, hafter⟩ := hrefill
  refine ⟨hinv.timely, hthreads, ⟨⟨hpos, hlt, hlength⟩, ?_, hinv.windows⟩, ?_⟩
  · intro v hlast
    obtain ⟨hvpos, hvlt, _⟩ := lastRefill_full hinv.windows hlast
    obtain ⟨hstart, hends⟩ := hinv.current v hlast
    exact hafter v.start v.ends (hread.1.trans hstart) (hread.2.trans hends) hvpos hvlt
  · intro w hw
    cases hw
    exact ⟨rfl, rfl⟩

theorem Inv.cleared (hinv : s.Inv) {store : UsageStore α} {threads : List (UsageThread α)}
    (hthreads : ∀ th ∈ threads, (usageProtocol α).Obeys Anything th.seen th.program) :
    Inv { s with store := store, threads := threads, events := .clear :: s.events } := by
  refine ⟨hinv.timely, hthreads, hinv.windows, ?_⟩
  intro w hw
  cases hw

/-- Which statements leave the window of the row. -/
theorem UsageStore.write_window (t : UsageStore α) {stmt : UsageStatement α}
    (hreset : ∀ a b c, stmt ≠ .billing (.resetIncludedUsageWindow a b c))
    (hclear : stmt ≠ .billing .clearIncludedUsageWindow) :
    (t.write stmt).user.includedUsageWindowStartTimestamp =
        t.user.includedUsageWindowStartTimestamp ∧
      (t.write stmt).user.includedUsageWindowEndTimestamp =
        t.user.includedUsageWindowEndTimestamp := by
  cases stmt with
  | billing s =>
      cases s with
      | resetIncludedUsageWindow a b c => exact absurd rfl (hreset a b c)
      | clearIncludedUsageWindow => exact absurd rfl hclear
      | _ => exact ⟨rfl, rfl⟩
  | activateIfCurrent attemptId =>
      simp only [UsageStore.write, UsageStore.activateIfCurrent]
      split <;> exact ⟨rfl, rfl⟩
  | failIfCurrent attemptId =>
      simp only [UsageStore.write, UsageStore.failIfCurrent]
      split <;> exact ⟨rfl, rfl⟩
  | _ => exact ⟨rfl, rfl⟩

theorem Inv.issue (hinv : s.Inv) (hi : s.threads[i]? = some th) {stmt : UsageStatement α}
    {rest : UsageAnswer stmt → UsageProgram α Unit} (hprogram : th.program = .issue stmt rest)
    (hown : s.refillsReadWindow (.issue i input) = true) (hnow : input.now = s.clock) :
    Inv { s with
      store := (UsageStore.exec stmt input s.store).1
      threads := s.threads.set i
        ⟨rest (UsageStore.exec stmt input s.store).2, stmt.seen th.seen input s.store.user⟩
      events := input.fate.after s.events (stmt.event s.clock ++ s.events) } := by
  have hobeys := hinv.obeys th (List.mem_of_getElem? hi)
  rw [hprogram] at hobeys
  have hinput : input.Timely := by
    rw [Input.Timely, hnow]
    exact hinv.timely
  have hthreads : ∀ g ∈ s.threads.set i
      ⟨rest (UsageStore.exec stmt input s.store).2, stmt.seen th.seen input s.store.user⟩,
      (usageProtocol α).Obeys Anything g.seen g.program := by
    intro g hg
    rcases List.mem_or_eq_of_mem_set hg with hold | rfl
    · exact hinv.obeys g hold
    · exact hobeys.2 input s.store hinput
  by_cases hrefused : input.fate = .refused
  · -- Nothing was written.
    simp only [UsageStore.exec, hrefused, StatementFate.after]
    simp only [UsageStore.exec] at hthreads
    exact hinv.kept hthreads rfl rfl (Or.inl rfl)
  · have hafter : ∀ {τ : Type} (before written : τ), input.fate.after before written = written := by
      intro τ before written
      cases hfate : input.fate with
      | refused => exact absurd hfate hrefused
      | _ => rfl
    simp only [UsageStore.exec, hafter]
    simp only [UsageStore.exec] at hthreads
    by_cases hreset : ∃ a b c, stmt = .billing (.resetIncludedUsageWindow a b c)
    · obtain ⟨a, b, c, rfl⟩ := hreset
      obtain ⟨⟨u, hseen, hrefill⟩, _⟩ := hobeys
      have hread : u.includedUsageWindowStartTimestamp =
            s.store.user.includedUsageWindowStartTimestamp ∧
          u.includedUsageWindowEndTimestamp =
            s.store.user.includedUsageWindowEndTimestamp := by
        simpa [refillsReadWindow, hi, hprogram, hrefused, hseen] using hown
      exact hinv.refilled hthreads hrefill hread
    · by_cases hclear : stmt = .billing .clearIncludedUsageWindow
      · subst hclear
        exact hinv.cleared hthreads
      · obtain ⟨hstart, hends⟩ := UsageStore.write_window s.store
          (fun a b c heq => hreset ⟨a, b, c, heq⟩) hclear
        refine hinv.kept hthreads hstart hends ?_
        cases stmt with
        | billing s =>
            cases s with
            | resetIncludedUsageWindow a b c => exact absurd ⟨a, b, c, rfl⟩ hreset
            | clearIncludedUsageWindow => exact absurd rfl hclear
            | updateUserCreditsLeft newCreditsLeft => exact Or.inr rfl
            | _ => exact Or.inl rfl
        | _ => exact Or.inl rfl

theorem Inv.step {country : String → Option String} (hinv : s.Inv) {a : UsageAction α}
    (hown : s.refillsReadWindow a = true) (hstep : s.step country a = some next) : next.Inv := by
  cases a with
  | tick now =>
      simp only [UsageState.step, Option.ite_none_right_eq_some, Option.some.injEq] at hstep
      obtain ⟨⟨hle, hmax⟩, rfl⟩ := hstep
      exact ⟨⟨by have := hinv.timely.1; simp only; omega, hmax⟩, hinv.obeys, hinv.windows,
        hinv.current⟩
  | call c =>
      cases hstep
      refine ⟨hinv.timely, ?_, hinv.windows, hinv.current⟩
      intro th hth
      rcases List.mem_append.mp hth with hold | hnew
      · exact hinv.obeys th hold
      · rw [List.mem_singleton.mp hnew]
        exact c.obeys country
  | issue i input =>
      simp only [UsageState.step] at hstep
      split at hstep
      · cases hstep
      next th hi =>
        split at hstep
        · cases hstep
        next stmt rest hprogram =>
          rw [Option.ite_none_right_eq_some, Option.some.injEq] at hstep
          exact hstep.2 ▸ hinv.issue hi hprogram hown hstep.1

theorem inv_start {clock : Int} (hpos : 0 < clock) (hmax : clock < i32Max)
    (store : UsageStore α) : (start clock store).Inv where
  timely := ⟨hpos, hmax⟩
  obeys th hth := by cases hth
  windows := trivial
  current w hw := by cases hw

end UsageState

/-- In every run whose refills find the window that their calls read, refills without a clearing
in between are for windows that follow each other. -/
theorem usage_windows_follow {country : String → Option String} {clock : Int}
    {store : UsageStore α} {actions : List (UsageAction α)} {final : UsageState α}
    (hpos : 0 < clock) (hmax : clock < i32Max)
    (hown : Transition.Meets (UsageState.step country) (fun s a => s.refillsReadWindow a = true)
      (UsageState.start clock store) actions)
    (hrun : Transition.run (UsageState.step country) (UsageState.start clock store) actions =
      some final) :
    RefillLaw final.events := by
  have hkeep : ∀ (s : UsageState α) (a : UsageAction α) (next : UsageState α), s.Inv →
      s.refillsReadWindow a = true → s.step country a = some next → next.Inv :=
    fun _ _ _ hinv hown hstep => hinv.step hown hstep
  have hinv : final.Inv :=
    Transition.run_invariant hkeep (UsageState.inv_start hpos hmax store) hown hrun
  exact hinv.windows.law

end System

/-! ## Two runs -/

namespace UsageWindowExample

def input (now : Int) : Input Rat := ⟨.done, now, none⟩

/-- A subscriber whose window ends at 2592001. -/
def store : UsageStore Rat where
  user :=
    { phoneNumber := "+358401234567"
      subTier := some "tier 2"
      ownTwilioEnabled := false
      credits := 0
      creditsLeft := 3
      includedUsageWindowStartTimestamp := some 1
      includedUsageWindowEndTimestamp := some 2592001
      lastCreditsNotification := none }
  attempt := none

/-- Every statement of the `i`th call, up to its second reading of the row. -/
def runCall (i : Nat) (now : Int) (count : Nat) : List (UsageAction Rat) :=
  List.replicate count (.issue i (input now))

/-- The first view comes late in the second window, the second one at its end. -/
def lateViews : List (UsageAction Rat) :=
  [.tick 5000000, .call .view] ++ runCall 0 5000000 5 ++ [.tick 5184001, .call .view] ++
    runCall 1 5184001 5

def reached (actions : List (UsageAction Rat)) : UsageState Rat :=
  Transition.final (UsageState.step (fun _ => none)) (UsageState.start 100 store) actions

end UsageWindowExample

open UsageWindowExample in
theorem usage_windows_follow_late_views : RefillLaw (reached lateViews).events :=
  @usage_windows_follow Rat _ (fun _ => none) 100 store lateViews _ (by decide) (by decide)
    (by decide +kernel) (Transition.run_eq_final (by decide +kernel))

open UsageWindowExample in
/-- The window began long before its refill: the next refill follows within days. -/
theorem refills_closer_than_window :
    ¬ ∀ (country : String → Option String) (clock : Int) (store : UsageStore Rat)
      (actions : List (UsageAction Rat)) (final : UsageState Rat), 0 < clock → clock < i32Max →
      Transition.run (UsageState.step country) (UsageState.start clock store) actions =
        some final → RefillsApart final.events := by
  intro law
  have hlaw := law (fun _ => none) 100 store lateViews _ (by decide) (by decide)
    (Transition.run_eq_final (by decide +kernel))
  have hevents : (reached lateViews).events =
      [.refill ⟨5184001, 7776001⟩ 5184001, .refill ⟨2592001, 5184001⟩ 5000000] := by
    decide +kernel
  have happart := hlaw [] [] [] ⟨2592001, 5184001⟩ ⟨5184001, 7776001⟩ 5000000 5184001 hevents
  exact absurd happart (by decide)

end Lightfriend.Billing
