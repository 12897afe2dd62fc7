import Lightfriend.Billing.Credits
import Lightfriend.Core.Serializable

/-! # Credits under concurrent calls

Deductions and top-ups of one user issue their statements in any order. They
leave the row as some sequential order does when no call writes between the
writes of another one and every call finds the columns it decided on as it read
them.
-/

namespace Lightfriend.Billing

variable {α : Type} [F32 α]

/-! ## What the statements read and write -/

def Statement.isWrite : Statement α → Bool
  | .clearIncludedUsageWindow => true
  | .resetIncludedUsageWindow _ _ _ => true
  | .updateUserCredits _ => true
  | .updateUserCreditsLeft _ => true
  | .setCredits _ => true
  | _ => false

def Statement.isRead : Statement α → Bool
  | .findById => true
  | .findUser => true
  | _ => false

/-- The columns no call of this module writes. -/
def User.fixed (u : User α) : String × Option String × Bool :=
  (u.phoneNumber, u.subTier, u.ownTwilioEnabled)

theorem User.write_of_not_isWrite (u : User α) {s : Statement α} (h : s.isWrite = false) :
    u.write s = u := by
  cases s <;> first | rfl | cases h

/-- A refused update writes nothing. -/
def rowAccess (α : Type) [F32 α] : Access (User.exec (α := α)) (String × Option String × Bool) where
  reads := Statement.isRead
  writes s input := s.isWrite && input.fate != .refused
  fixed := User.fixed
  exec_fixed s input u := by
    have hwrite : (u.write s).fixed = u.fixed := by cases s <;> rfl
    change (input.fate.after u (u.write s)).fixed = u.fixed
    cases input.fate with
    | done => exact hwrite
    | refused => rfl
    | lost => exact hwrite
  keeps s input u h := by
    change input.fate.after u (u.write s) = u
    cases hwrite : s.isWrite with
    | false => rw [u.write_of_not_isWrite hwrite, StatementFate.after_self]
    | true =>
        have hrefused : input.fate = .refused := by simpa [hwrite] using h
        rw [hrefused]
        rfl
  blind s input u u' hreads hwrites hfixed := by
    have hown : u.ownTwilioEnabled = u'.ownTwilioEnabled := congrArg (fun f => f.2.2) hfixed
    cases s with
    | isByotUser => simp [User.exec, User.answer, hown]
    | findById => cases hreads
    | findUser => cases hreads
    | _ => rfl

def User.sameWindow (u u' : User α) : Bool :=
  u.includedUsageWindowStartTimestamp = u'.includedUsageWindowStartTimestamp &&
    u.includedUsageWindowEndTimestamp = u'.includedUsageWindowEndTimestamp

/-- The columns a statement was decided on are the same in both rows. -/
def User.agrees [DecidableEq α] : Statement α → User α → User α → Bool
  | .setCredits _, u, u' => u.credits = u'.credits
  | .resetIncludedUsageWindow _ _ _, u, u' => u.sameWindow u'
  | .clearIncludedUsageWindow, u, u' => u.sameWindow u' && u.creditsLeft = u'.creditsLeft
  | .updateUserCreditsLeft newCreditsLeft, u, u' =>
      u.sameWindow u' && u.creditsLeft = u'.creditsLeft &&
        (newCreditsLeft ≠ 0 || u.credits = u'.credits)
  | _, u, u' => u.sameWindow u' && u.creditsLeft = u'.creditsLeft && u.credits = u'.credits

omit [F32 α] in
theorem User.sameWindow_iff {u u' : User α} : u.sameWindow u' = true ↔
    u.includedUsageWindowStartTimestamp = u'.includedUsageWindowStartTimestamp ∧
      u.includedUsageWindowEndTimestamp = u'.includedUsageWindowEndTimestamp := by
  simp [User.sameWindow]

/-! ## The calls read the row once -/

/-- No statement of the program up to its first write reads the row. -/
def Unread {ρ : Type} (p : BillingProgram α ρ) : Prop :=
  ∀ inputs, (rowAccess α).ReadsOnce true p inputs

namespace Unread

variable {ρ τ : Type}

theorem done (result : ρ) : Unread (α := α) (.done result) := fun _ => trivial

theorem bind {p : BillingProgram α ρ} {f : ρ → BillingProgram α τ} (hp : Unread p)
    (hf : ∀ result, Unread (f result)) : Unread (p >>= f) :=
  fun inputs => (hp inputs).bind (rowAccess α) (fun result inputs => hf result inputs)

/-- A statement that is no reading; an update that was refused answers so. -/
theorem issue {s : Statement α} {rest : Answer s → BillingProgram α ρ} (hread : s.isRead = false)
    (hrest : ∀ u input, (s.isWrite = true → input.fate = .refused) →
      Unread (rest (User.answer u input s))) : Unread (.issue s rest) := by
  intro inputs hwrites
  refine ⟨fun hreads => ?_, fun u => hrest u _ (fun hwrite => ?_) _⟩
  · rw [show (rowAccess α).reads s = s.isRead from rfl, hread] at hreads
    cases hreads
  · change (s.isWrite && (inputs 0).fate != .refused) = false at hwrites
    simpa [hwrite] using hwrites

end Unread

theorem unread_isByotUser : Unread (isByotUser : BillingProgram α Bool) :=
  Unread.issue rfl (fun _ _ _ => Unread.done _)

theorem unread_getActivityCost (country : String → Option String) (phoneNumber eventType : String)
    (amount : Option Int) :
    Unread (getActivityCost country phoneNumber eventType amount : BillingProgram α α) := by
  unfold getActivityCost cachedPricing
  refine Unread.bind ?_ (fun pricing => Unread.done _)
  split
  · exact Unread.issue rfl (fun _ _ _ => Unread.done _)
  · exact Unread.done _

theorem unread_ensure (metronomeEnabled : Bool) (user : User α) :
    Unread (ensureCurrentIncludedUsageWindow metronomeEnabled user) := by
  unfold ensureCurrentIncludedUsageWindow
  split
  · exact Unread.done _
  · refine Unread.bind ?_ (fun excluded => ?_)
    · unfold hasNoIncludedUsage
      split
      · exact Unread.done _
      · exact unread_isByotUser
    · split
      · unfold dropIncludedUsage
        split
        · refine Unread.issue rfl (fun u input hrefused => ?_)
          simp only [User.answer, hrefused rfl]
          exact Unread.done _
        · exact Unread.done _
      · unfold renewIncludedUsage
        refine Unread.bind (Unread.issue rfl (fun _ _ _ => Unread.done _)) (fun now => ?_)
        split
        · exact Unread.done _
        · exact Unread.done _
        · refine Unread.issue rfl (fun u input hrefused => ?_)
          simp only [User.answer, hrefused rfl]
          exact Unread.done _

theorem unread_takeCost (user : User α) (cost : α) : Unread (takeCost user cost) := by
  unfold takeCost
  split
  · exact Unread.done _
  · split
    · exact Unread.issue rfl (fun _ _ _ => Unread.done _)
    · split
      · exact Unread.issue rfl (fun _ _ _ => Unread.done _)
      · exact Unread.done _

theorem unread_takePrice (user : User α) (cost : α) : Unread (takePrice user cost) := by
  unfold takePrice
  split
  · exact Unread.issue rfl (fun _ _ _ => Unread.done _)
  · split
    · exact Unread.issue rfl (fun _ _ _ => Unread.done _)
    · split <;> exact Unread.issue rfl (fun _ _ _ => Unread.done _)

theorem unread_chargeCost (metronomeEnabled : Bool) (eventType : String) (user : User α)
    (cost : α) : Unread (chargeCost metronomeEnabled eventType user cost) := by
  unfold chargeCost
  refine Unread.bind (unread_ensure metronomeEnabled user) (fun result => ?_)
  split
  · exact Unread.done _
  · split
    · exact Unread.issue rfl (fun _ _ _ => Unread.done _)
    · exact unread_takeCost _ cost

theorem unread_chargePrice (metronomeEnabled : Bool) (provider : String)
    (transactionId : Option String) (user : User α) (cost : α) :
    Unread (chargePrice metronomeEnabled provider transactionId user cost) := by
  unfold chargePrice
  split
  · exact Unread.issue rfl (fun _ _ _ => Unread.done _)
  · refine Unread.bind (unread_ensure metronomeEnabled user) (fun result => ?_)
    split
    · exact Unread.done _
    · exact unread_takePrice _ cost

/-! ## The calls decide the same on rows that agree -/

section Choice

variable {ρ : Type} {u u' : User α}

/-- An update of the row at which the program pauses. -/
theorem pause_update {t : User α} {inputs later : Nat → Input α} {stmt s : Statement α}
    {f : Answer stmt → BillingProgram α ρ} {rest : Answer s → BillingProgram α ρ}
    (hdone : ∀ u input, (f (User.answer u input stmt)).isDone = true)
    (h : (rowAccess α).pause t (.issue stmt f) inputs = ⟨.issue s rest, later⟩) :
    (⟨.issue stmt f, inputs⟩ : BillingCall α ρ) = ⟨.issue s rest, later⟩ := by
  cases hwrites : (rowAccess α).writes stmt (inputs 0) with
  | true =>
      rw [(rowAccess α).pause_write hwrites] at h
      exact h
  | false =>
      rw [(rowAccess α).pause_step hwrites] at h
      have hend := hdone t (inputs 0)
      change (f (User.exec stmt (inputs 0) t).2).isDone = true at hend
      cases hrest : f (User.exec stmt (inputs 0) t).2 with
      | done result =>
          rw [hrest] at h
          cases h
      | issue s' rest' =>
          rw [hrest] at hend
          cases hend

/-- An update after whose refusal the program ends. -/
theorem pause_or_end (t : User α) (inputs : Nat → Input α) (stmt : Statement α)
    (f : Answer stmt → BillingProgram α (Except String ρ)) (hwrite : stmt.isWrite = true)
    (hrefused : ∀ u input, input.fate = .refused →
      ∃ error, f (User.answer u input stmt) = .done (.error error)) :
    (rowAccess α).pause t (.issue stmt f) inputs = ⟨.issue stmt f, inputs⟩ ∨
      ∃ error later, (rowAccess α).pause t (.issue stmt f) inputs =
        ⟨.done (.error error), later⟩ := by
  cases hwrites : (rowAccess α).writes stmt (inputs 0) with
  | true => exact Or.inl ((rowAccess α).pause_write hwrites)
  | false =>
      have hfate : (inputs 0).fate = .refused := by
        change (stmt.isWrite && (inputs 0).fate != .refused) = false at hwrites
        simpa [hwrite] using hwrites
      obtain ⟨error, hend⟩ := hrefused t (inputs 0) hfate
      refine Or.inr ⟨error, laterInputs inputs, ?_⟩
      rw [(rowAccess α).pause_step hwrites]
      change (rowAccess α).pause t (f (User.answer t (inputs 0) stmt)) _ = _
      rw [hend]
      rfl

/-- The statements of the two pools. -/
def Statement.isPoolWrite : Statement α → Bool
  | .updateUserCredits _ => true
  | .updateUserCreditsLeft _ => true
  | _ => false

theorem takeCost_congr {cost : α} (hleft : u.creditsLeft = u'.creditsLeft)
    (hcredits : u.credits = u'.credits) : takeCost u cost = takeCost u' cost := by
  unfold takeCost
  rw [hleft, hcredits]

theorem takePrice_congr {cost : α} (hleft : u.creditsLeft = u'.creditsLeft)
    (hcredits : u.credits = u'.credits) : takePrice u cost = takePrice u' cost := by
  unfold takePrice
  rw [hleft, hcredits]

variable [DecidableEq α]

theorem User.agrees_left {newCreditsLeft : α}
    (h : User.agrees (.updateUserCreditsLeft newCreditsLeft) u u' = true) :
    u.sameWindow u' = true ∧ u.creditsLeft = u'.creditsLeft ∧
      (newCreditsLeft ≠ 0 ∨ u.credits = u'.credits) := by
  simpa [User.agrees, and_assoc] using h

theorem User.agrees_credits {newCredits : α}
    (h : User.agrees (.updateUserCredits newCredits) u u' = true) :
    u.sameWindow u' = true ∧ u.creditsLeft = u'.creditsLeft ∧ u.credits = u'.credits := by
  simpa [User.agrees, and_assoc] using h

/-- `p` and `q` are the same program for the copies `u` and `u'` of the row: a write of one pool
that the first decides on is decided on by the second when the rows agree. -/
def SamePoolWrite (p q : BillingProgram α ρ) (u u' : User α) : Prop :=
  ∀ t inputs s rest later, (rowAccess α).pause t p inputs = ⟨.issue s rest, later⟩ →
    s.isPoolWrite = true ∧ (User.agrees s u u' = true →
      (rowAccess α).pause t q inputs = ⟨.issue s rest, later⟩)

theorem takeCost_same (cost : α) : SamePoolWrite (takeCost u cost) (takeCost u' cost) u u' := by
  intro t inputs s rest later hwhole
  have h := hwhole
  unfold takeCost at h
  split at h
  · cases h
  · split at h
    next hleft =>
      have hpause := h
      cases pause_update (fun _ _ => rfl) h
      refine ⟨rfl, fun hagrees => ?_⟩
      obtain ⟨_, hsame, _⟩ := User.agrees_left hagrees
      have hleft' : cost ≤ u'.creditsLeft := hsame ▸ hleft
      have hnot : ¬ (u'.creditsLeft < cost ∧ u'.credits < cost) :=
        fun hboth => F32.not_lt_of_le _ _ hleft' hboth.1
      unfold takeCost
      rw [if_neg hnot, if_pos hleft', ← hsame]
      exact hpause
    next =>
      split at h
      · cases pause_update (fun _ _ => rfl) h
        refine ⟨rfl, fun hagrees => ?_⟩
        obtain ⟨_, hsame, hcredits⟩ := User.agrees_credits hagrees
        rw [← takeCost_congr hsame hcredits]
        exact hwhole
      · cases h

theorem takePrice_same (cost : α) :
    SamePoolWrite (takePrice u cost) (takePrice u' cost) u u' := by
  intro t inputs s rest later hwhole
  have h := hwhole
  unfold takePrice at h
  split at h
  next hleft =>
    have hpause := h
    cases pause_update (fun _ _ => rfl) h
    refine ⟨rfl, fun hagrees => ?_⟩
    obtain ⟨_, hsame, _⟩ := User.agrees_left hagrees
    unfold takePrice
    rw [if_pos (hsame ▸ hleft), ← hsame]
    exact hpause
  next =>
    split at h
    · cases pause_update (fun _ _ => rfl) h
      refine ⟨rfl, fun hagrees => ?_⟩
      obtain ⟨_, hsame, hcredits⟩ := User.agrees_credits hagrees
      rw [← takePrice_congr hsame hcredits]
      exact hwhole
    · split at h
      · cases pause_update (fun _ _ => rfl) h
        refine ⟨rfl, fun hagrees => ?_⟩
        obtain ⟨_, hsame, hcredits⟩ := User.agrees_left hagrees
        rw [← takePrice_congr hsame (hcredits.resolve_left (fun hne => hne rfl))]
        exact hwhole
      · cases pause_update (fun _ _ => rfl) h
        refine ⟨rfl, fun hagrees => ?_⟩
        obtain ⟨_, hsame, hcredits⟩ := User.agrees_credits hagrees
        rw [← takePrice_congr hsame hcredits]
        exact hwhole

/-- How the window check of a copy `u` pauses: with an error, with the copy itself, or at an
update of the window; what it does with a copy `u'` that agrees. -/
def WindowChoice (p : User α → BillingProgram α (Except String (User α))) (u u' t : User α)
    (inputs : Nat → Input α) : Prop :=
  (∃ error later, (rowAccess α).pause t (p u) inputs = ⟨.done (.error error), later⟩) ∨
  (∃ later, (rowAccess α).pause t (p u) inputs = ⟨.done (.ok u), later⟩ ∧
    (u.sameWindow u' = true → u.creditsLeft = u'.creditsLeft →
      (rowAccess α).pause t (p u') inputs = ⟨.done (.ok u'), later⟩)) ∨
  ∃ s rest later, (rowAccess α).pause t (p u) inputs = ⟨.issue s rest, later⟩ ∧
    (User.agrees s u u' = true → (rowAccess α).pause t (p u') inputs = ⟨.issue s rest, later⟩)

theorem dropIncludedUsage_choice (t : User α) (inputs : Nat → Input α) :
    WindowChoice dropIncludedUsage u u' t inputs := by
  have hsame : u.sameWindow u' = true → u.creditsLeft = u'.creditsLeft →
      ((0 < u.creditsLeft ∨ u.includedUsageWindowStartTimestamp.isSome = true ∨
        u.includedUsageWindowEndTimestamp.isSome = true) ↔
      (0 < u'.creditsLeft ∨ u'.includedUsageWindowStartTimestamp.isSome = true ∨
        u'.includedUsageWindowEndTimestamp.isSome = true)) := by
    intro hwindow hleft
    obtain ⟨hstart, hends⟩ := User.sameWindow_iff.1 hwindow
    rw [hstart, hends, hleft]
  unfold WindowChoice
  by_cases hdrop : 0 < u.creditsLeft ∨ u.includedUsageWindowStartTimestamp.isSome = true ∨
      u.includedUsageWindowEndTimestamp.isSome = true
  · have hprogram : ∀ w : User α, (0 < w.creditsLeft ∨
        w.includedUsageWindowStartTimestamp.isSome = true ∨
          w.includedUsageWindowEndTimestamp.isSome = true) →
        dropIncludedUsage w = .issue Statement.clearIncludedUsageWindow (fun cleared =>
          refresh cleared "Failed to clear included usage window"
            "User not found after usage clear") := by
      intro w hw
      unfold dropIncludedUsage
      rw [if_pos hw]
      rfl
    rw [hprogram u hdrop]
    have hrefused : ∀ (w : User α) (input : Input α), input.fate = .refused →
        ∃ error, (refresh (w.answer input .clearIncludedUsageWindow)
          "Failed to clear included usage window" "User not found after usage clear" :
            BillingProgram α (Except String (User α))) = .done (.error error) := by
      intro w input hfate
      simp only [User.answer, hfate]
      exact ⟨_, rfl⟩
    rcases pause_or_end t inputs .clearIncludedUsageWindow (fun cleared => refresh cleared
      "Failed to clear included usage window" "User not found after usage clear") rfl hrefused
      with hwrite | hend
    · refine Or.inr (Or.inr ⟨_, _, _, hwrite, fun hagrees => ?_⟩)
      have hcolumns : u.sameWindow u' = true ∧ u.creditsLeft = u'.creditsLeft := by
        simpa [User.agrees] using hagrees
      rw [hprogram u' ((hsame hcolumns.1 hcolumns.2).mp hdrop)]
      exact hwrite
    · exact Or.inl hend
  · refine Or.inr (Or.inl ⟨inputs, ?_, fun hwindow hleft => ?_⟩)
    · unfold dropIncludedUsage
      rw [if_neg hdrop]
      rfl
    · unfold dropIncludedUsage
      rw [if_neg (fun hother => hdrop ((hsame hwindow hleft).mpr hother))]
      rfl

theorem renewIncludedUsage_choice (t : User α) (inputs : Nat → Input α) :
    WindowChoice renewIncludedUsage u u' t inputs := by
  have hsame : u.sameWindow u' = true →
      currentIncludedUsageWindow (inputs 0).now u.includedUsageWindowStartTimestamp
        u.includedUsageWindowEndTimestamp =
      currentIncludedUsageWindow (inputs 0).now u'.includedUsageWindowStartTimestamp
        u'.includedUsageWindowEndTimestamp := by
    intro hwindow
    obtain ⟨hstart, hends⟩ := User.sameWindow_iff.1 hwindow
    rw [hstart, hends]
  unfold WindowChoice
  rw [renewIncludedUsage_eq u, renewIncludedUsage_eq u', (rowAccess α).pause_step rfl,
    (rowAccess α).pause_step rfl]
  have hnow : (User.exec Statement.now (inputs 0) t).2 = (inputs 0).now := rfl
  rw [hnow]
  cases hcurrent : currentIncludedUsageWindow (inputs 0).now u.includedUsageWindowStartTimestamp
      u.includedUsageWindowEndTimestamp with
  | none => exact Or.inl ⟨_, _, rfl⟩
  | some current =>
      obtain ⟨window, isNew⟩ := current
      cases isNew with
      | false =>
          refine Or.inr (Or.inl ⟨_, rfl, fun hwindow _ => ?_⟩)
          rw [← hsame hwindow, hcurrent]
          rfl
      | true =>
          have hrefused : ∀ (w : User α) (input : Input α), input.fate = .refused →
              ∃ error, (refresh (w.answer input (.resetIncludedUsageWindow window.start window.ends
                (monthlyCreditBudget α))) "Failed to reset included usage window"
                  "User not found after usage reset" :
                    BillingProgram α (Except String (User α))) = .done (.error error) := by
            intro w input hfate
            simp only [User.answer, hfate]
            exact ⟨_, rfl⟩
          rcases pause_or_end t (laterInputs inputs) (.resetIncludedUsageWindow window.start
            window.ends (monthlyCreditBudget α)) (fun reset => refresh reset
              "Failed to reset included usage window" "User not found after usage reset") rfl
              hrefused with hwrite | hend
          · refine Or.inr (Or.inr ⟨_, _, _, hwrite, fun hagrees => ?_⟩)
            rw [← hsame hagrees, hcurrent]
            exact hwrite
          · exact Or.inl hend

theorem ensure_choice (metronomeEnabled : Bool) (hfixed : u.fixed = u'.fixed) (t : User α)
    (inputs : Nat → Input α) :
    WindowChoice (ensureCurrentIncludedUsageWindow metronomeEnabled) u u' t inputs := by
  have htier : u.subTier = u'.subTier := congrArg (fun f => f.2.1) hfixed
  cases hmetronome : metronomeEnabled with
  | true => exact Or.inr (Or.inl ⟨inputs, rfl, fun _ _ => rfl⟩)
  | false =>
      have hprogram : ∀ w : User α, ensureCurrentIncludedUsageWindow false w =
          hasNoIncludedUsage w >>= fun excluded =>
            if excluded = true then dropIncludedUsage w else renewIncludedUsage w := fun _ => rfl
      have hasked : hasNoIncludedUsage u = hasNoIncludedUsage u' := by
        unfold hasNoIncludedUsage
        rw [htier]
      obtain ⟨excluded, later, hpause⟩ : ∃ excluded later,
          (rowAccess α).pause t (hasNoIncludedUsage u') inputs = ⟨.done excluded, later⟩ := by
        unfold hasNoIncludedUsage
        split
        · exact ⟨_, _, rfl⟩
        · exact ⟨_, _, (rowAccess α).pause_step rfl⟩
      unfold WindowChoice
      rw [hprogram u, hprogram u', (rowAccess α).pause_bind, (rowAccess α).pause_bind, hasked,
        hpause]
      change WindowChoice (fun w => if excluded = true then dropIncludedUsage w
        else renewIncludedUsage w) u u' t later
      cases excluded with
      | true => exact dropIncludedUsage_choice t later
      | false => exact renewIncludedUsage_choice t later

/-- `p` and `q` are the same program for the copies `u` and `u'` of the row: a write that the
first decides on is decided on by the second when the rows agree. -/
def SameWrite (p q : BillingProgram α ρ) (u u' : User α) : Prop :=
  ∀ t inputs s rest later, (rowAccess α).pause t p inputs = ⟨.issue s rest, later⟩ →
    User.agrees s u u' = true → (rowAccess α).pause t q inputs = ⟨.issue s rest, later⟩

theorem SameWrite.refl (p : BillingProgram α ρ) : SameWrite p p u u' :=
  fun _ _ _ _ _ h _ => h

/-- Both programs begin in the same way. -/
theorem SameWrite.bind {τ : Type} (p : BillingProgram α τ) {f g : τ → BillingProgram α ρ}
    (h : ∀ result, SameWrite (f result) (g result) u u')
    (hfirst : ∀ t inputs, ((rowAccess α).pause t p inputs).program.isDone = true) :
    SameWrite (p >>= f) (p >>= g) u u' := by
  intro t inputs s rest later hpause hagrees
  rw [(rowAccess α).pause_bind] at hpause ⊢
  have hend := hfirst t inputs
  cases hcall : (rowAccess α).pause t p inputs with
  | mk program middle =>
      rw [hcall] at hpause hend
      cases program with
      | done result => exact h result t middle s rest later hpause hagrees
      | issue s' rest' => cases hend

/-- A call that checks the window of its copy and then takes a cost from it. -/
theorem SameWrite.after_ensure {take : User α → BillingProgram α (Except String ρ)}
    (metronomeEnabled : Bool) (hfixed : u.fixed = u'.fixed)
    (htake : SamePoolWrite (take u) (take u') u u')
    {after : Except String (User α) → BillingProgram α (Except String ρ)}
    (herror : ∀ error, after (.error error) = .done (.error error))
    (hok : ∀ w, after (.ok w) = take w) :
    SameWrite (ensureCurrentIncludedUsageWindow metronomeEnabled u >>= after)
      (ensureCurrentIncludedUsageWindow metronomeEnabled u' >>= after) u u' := by
  intro t inputs s rest later h hagrees
  rw [(rowAccess α).pause_bind] at h ⊢
  rcases ensure_choice metronomeEnabled hfixed t inputs with
    ⟨error, middle, hend⟩ | ⟨middle, hkept, hkept'⟩ | ⟨s', rest', middle, hwrite, hwrite'⟩
  · rw [hend] at h
    change (rowAccess α).pause t (after (.error error)) middle = _ at h
    rw [herror] at h
    cases h
  · rw [hkept] at h
    change (rowAccess α).pause t (after (.ok u)) middle = _ at h
    rw [hok] at h
    obtain ⟨hpool, hsame⟩ := htake t middle s rest later h
    have hcolumns : u.sameWindow u' = true ∧ u.creditsLeft = u'.creditsLeft := by
      cases s with
      | updateUserCredits newCredits =>
          obtain ⟨hwindow, hleft, _⟩ := User.agrees_credits hagrees
          exact ⟨hwindow, hleft⟩
      | updateUserCreditsLeft newCreditsLeft =>
          obtain ⟨hwindow, hleft, _⟩ := User.agrees_left hagrees
          exact ⟨hwindow, hleft⟩
      | _ => cases hpool
    rw [hkept' hcolumns.1 hcolumns.2]
    change (rowAccess α).pause t (after (.ok u')) middle = _
    rw [hok]
    exact hsame hagrees
  · rw [hwrite] at h
    cases h
    rw [hwrite' hagrees]
    rfl

omit [DecidableEq α] in
theorem pause_isByotUser (t : User α) (inputs : Nat → Input α) :
    ((rowAccess α).pause t (isByotUser : BillingProgram α Bool) inputs).program.isDone = true := by
  unfold isByotUser
  rw [(rowAccess α).pause_step rfl]
  rfl

omit [DecidableEq α] in
theorem pause_getActivityCost (country : String → Option String) (phoneNumber eventType : String)
    (amount : Option Int) (t : User α) (inputs : Nat → Input α) :
    ((rowAccess α).pause t (getActivityCost country phoneNumber eventType amount)
      inputs).program.isDone = true := by
  unfold getActivityCost cachedPricing
  cases country phoneNumber with
  | none => rfl
  | some code =>
      change ((rowAccess α).pause t (.issue (.getCachedNotificationPricing code) _)
        inputs).program.isDone = true
      rw [(rowAccess α).pause_step rfl]
      rfl

/-- A statement that only queues usage never pauses. -/
theorem enqueue_same (stmt : Statement α) {f g : Answer stmt → BillingProgram α ρ}
    (hwrite : stmt.isWrite = false) (hdone : ∀ answer, (f answer).isDone = true) :
    SamePoolWrite (.issue stmt f) (.issue stmt g) u u' := by
  intro t inputs s rest later h
  have hnot : (rowAccess α).writes stmt (inputs 0) = false := by
    change (stmt.isWrite && _) = false
    rw [hwrite, Bool.false_and]
  rw [(rowAccess α).pause_step hnot] at h
  have hend := hdone (User.exec stmt (inputs 0) t).2
  cases hrest : f (User.exec stmt (inputs 0) t).2 with
  | done result =>
      rw [hrest] at h
      cases h
  | issue s' rest' =>
      rw [hrest] at hend
      cases hend

theorem chargeCost_same (metronomeEnabled : Bool) (eventType : String)
    (hfixed : u.fixed = u'.fixed) (cost : α) :
    SameWrite (chargeCost metronomeEnabled eventType u cost)
      (chargeCost metronomeEnabled eventType u' cost) u u' := by
  unfold chargeCost
  cases metronomeEnabled with
  | true =>
      exact SameWrite.after_ensure true hfixed
        (enqueue_same (.enqueueUsage eventType cost none) rfl (fun _ => rfl))
        (fun _ => rfl) (fun _ => rfl)
  | false =>
      exact SameWrite.after_ensure false hfixed (takeCost_same cost) (fun _ => rfl)
        (fun _ => rfl)

theorem chargePrice_same (metronomeEnabled : Bool) (provider : String)
    (transactionId : Option String) (hfixed : u.fixed = u'.fixed) (cost : α) :
    SameWrite (chargePrice metronomeEnabled provider transactionId u cost)
      (chargePrice metronomeEnabled provider transactionId u' cost) u u' := by
  unfold chargePrice
  cases metronomeEnabled with
  | true => exact SameWrite.refl _
  | false =>
      exact SameWrite.after_ensure false hfixed (takePrice_same cost) (fun _ => rfl)
        (fun _ => rfl)

end Choice

/-! ## The calls of a user -/

inductive CreditCall (α : Type)
  | deductUserCredits (eventType : String) (amount : Option Int)
  | deductFromTwilioPrice (twilioPriceUsd : α) (transactionId : Option String) (provider : String)
  | increaseCredits (amount : α)
deriving DecidableEq, Repr

/-- What a call does; nobody waits for its result. -/
def CreditCall.program (metronomeEnabled : Bool)
    (getCountryCodeFromPhone : String → Option String) : CreditCall α → BillingProgram α Unit
  | deductUserCredits eventType amount =>
      Billing.deductUserCredits metronomeEnabled getCountryCodeFromPhone eventType amount >>=
        fun _ => .done ()
  | deductFromTwilioPrice twilioPriceUsd transactionId provider =>
      Billing.deductFromTwilioPrice metronomeEnabled twilioPriceUsd transactionId provider >>=
        fun _ => .done ()
  | increaseCredits amount => Billing.increaseCredits amount >>= fun _ => .done ()

section Orderly

variable [DecidableEq α] {ρ : Type}

/-- A call that reads the row once and then runs the same program on its copy. -/
theorem orderly_of_copy {stmt : Statement α} {f : Answer stmt → BillingProgram α ρ}
    (body : User α → BillingProgram α ρ) (inputs : Nat → Input α) (hread : stmt.isRead = true)
    (hwrite : stmt.isWrite = false)
    (hanswer : (∀ u, f (User.answer u (inputs 0) stmt) = body u) ∨
      ∃ result, ∀ u, f (User.answer u (inputs 0) stmt) = .done result)
    (hunread : ∀ u, Unread (body u))
    (hsame : ∀ u u' : User α, u.fixed = u'.fixed → SameWrite (body u) (body u') u u') :
    Orderly (rowAccess α) User.agrees ⟨.issue stmt f, inputs⟩ where
  starts := rfl
  readsOnce := by
    intro _
    refine ⟨fun _ => rfl, fun u => ?_⟩
    rw [show (rowAccess α).reads stmt = stmt.isRead from rfl, hread]
    change (rowAccess α).ReadsOnce true (f (User.answer u (inputs 0) stmt)) _
    rcases hanswer with hbody | ⟨result, hdone⟩
    · rw [hbody u]
      exact hunread u _
    · rw [hdone u]
      trivial
  replays := by
    intro u u' s rest later hfixed hagrees h
    have hnot : (rowAccess α).writes stmt (inputs 0) = false := by
      change (stmt.isWrite && _) = false
      rw [hwrite, Bool.false_and]
    change (rowAccess α).pause u (.issue stmt f) inputs = _ at h
    change (rowAccess α).pause u' (.issue stmt f) inputs = _
    rw [(rowAccess α).pause_step hnot] at h ⊢
    change (rowAccess α).pause u (f (User.answer u (inputs 0) stmt)) _ = _ at h
    change (rowAccess α).pause u' (f (User.answer u' (inputs 0) stmt)) _ = _
    rcases hanswer with hbody | ⟨result, hdone⟩
    · rw [hbody u, (rowAccess α).pause_blind (hunread u _) hfixed] at h
      rw [hbody u']
      exact hsame u u' hfixed u' _ s rest later h hagrees
    · rw [hdone u] at h
      cases h

/-- The end of a call does not matter for its order. -/
theorem SameWrite.discard {τ : Type} {u u' : User α} {p q : BillingProgram α τ}
    (h : SameWrite p q u u') (result : ρ) :
    SameWrite (p >>= fun _ => .done result) (q >>= fun _ => .done result) u u' := by
  intro t inputs s rest later hpause hagrees
  rw [(rowAccess α).pause_bind] at hpause ⊢
  cases hcall : (rowAccess α).pause t p inputs with
  | mk program middle =>
      rw [hcall] at hpause
      cases program with
      | done result' => cases hpause
      | issue s' rest' =>
          cases hpause
          rw [h t inputs s rest' middle hcall hagrees]
          rfl

theorem deductActivity_same (metronomeEnabled : Bool)
    (country : String → Option String) (eventType : String) (amount : Option Int)
    {u u' : User α} (hfixed : u.fixed = u'.fixed) :
    SameWrite (deductActivity metronomeEnabled country eventType amount u)
      (deductActivity metronomeEnabled country eventType amount u') u u' := by
  have hphone : u.phoneNumber = u'.phoneNumber := congrArg (fun f => f.1) hfixed
  unfold deductActivity
  rw [hphone]
  refine SameWrite.bind isByotUser (fun byot => ?_) pause_isByotUser
  split
  · exact SameWrite.refl _
  · refine SameWrite.bind _ (fun cost => ?_) (pause_getActivityCost country _ eventType amount)
    split
    · exact SameWrite.refl _
    · exact chargeCost_same metronomeEnabled eventType hfixed cost

theorem deductPrice_same (metronomeEnabled : Bool) (twilioPriceUsd : α)
    (transactionId : Option String) (provider : String) {u u' : User α}
    (hfixed : u.fixed = u'.fixed) :
    SameWrite (deductPrice metronomeEnabled twilioPriceUsd transactionId provider u)
      (deductPrice metronomeEnabled twilioPriceUsd transactionId provider u') u u' := by
  unfold deductPrice
  refine SameWrite.bind isByotUser (fun byot => ?_) pause_isByotUser
  split
  · exact SameWrite.refl _
  · split
    · exact SameWrite.refl _
    · exact chargePrice_same metronomeEnabled provider transactionId hfixed _

omit [DecidableEq α] in
theorem unread_deductActivity (metronomeEnabled : Bool) (country : String → Option String)
    (eventType : String) (amount : Option Int) (u : User α) :
    Unread (deductActivity metronomeEnabled country eventType amount u) := by
  unfold deductActivity
  refine Unread.bind unread_isByotUser (fun byot => ?_)
  split
  · exact Unread.done _
  · refine Unread.bind (unread_getActivityCost country _ eventType amount) (fun cost => ?_)
    split
    · exact Unread.done _
    · exact unread_chargeCost metronomeEnabled eventType u cost

omit [DecidableEq α] in
theorem unread_deductPrice (metronomeEnabled : Bool) (twilioPriceUsd : α)
    (transactionId : Option String) (provider : String) (u : User α) :
    Unread (deductPrice metronomeEnabled twilioPriceUsd transactionId provider u) := by
  unfold deductPrice
  refine Unread.bind unread_isByotUser (fun byot => ?_)
  split
  · exact Unread.done _
  · split
    · exact Unread.done _
    · exact unread_chargePrice metronomeEnabled provider transactionId u _

/-- The new balance is the old one plus the amount. -/
theorem setCredits_same (amount : α) {u u' : User α} :
    SameWrite (setCredits (u.credits + amount)) (setCredits (u'.credits + amount)) u u' := by
  intro t inputs s rest later h hagrees
  have hpause := h
  cases pause_update (fun _ _ => rfl) h
  have hcredits : u.credits = u'.credits := by simpa [User.agrees] using hagrees
  rw [← hcredits]
  exact hpause

theorem CreditCall.orderly (metronomeEnabled : Bool)
    (getCountryCodeFromPhone : String → Option String) (call : CreditCall α)
    (inputs : Nat → Input α) :
    Orderly (rowAccess α) User.agrees
      ⟨call.program metronomeEnabled getCountryCodeFromPhone, inputs⟩ := by
  cases call with
  | deductUserCredits eventType amount =>
      refine orderly_of_copy (fun u => deductActivity metronomeEnabled getCountryCodeFromPhone
        eventType amount u >>= fun _ => .done ()) inputs rfl rfl ?_ (fun u => ?_)
        (fun u u' hfixed => ?_)
      · cases hfate : (inputs 0).fate with
        | done => exact Or.inl (fun u => by simp only [User.answer, hfate]; rfl)
        | refused => exact Or.inr ⟨(), fun u => by simp only [User.answer, hfate]; rfl⟩
        | lost => exact Or.inr ⟨(), fun u => by simp only [User.answer, hfate]; rfl⟩
      · exact Unread.bind (unread_deductActivity _ _ _ _ u) (fun _ => Unread.done _)
      · exact (deductActivity_same _ _ _ _ hfixed).discard ()
  | deductFromTwilioPrice twilioPriceUsd transactionId provider =>
      refine orderly_of_copy (fun u => deductPrice metronomeEnabled twilioPriceUsd transactionId
        provider u >>= fun _ => .done ()) inputs rfl rfl ?_ (fun u => ?_) (fun u u' hfixed => ?_)
      · cases hfate : (inputs 0).fate with
        | done => exact Or.inl (fun u => by simp only [User.answer, hfate]; rfl)
        | refused => exact Or.inr ⟨(), fun u => by simp only [User.answer, hfate]; rfl⟩
        | lost => exact Or.inr ⟨(), fun u => by simp only [User.answer, hfate]; rfl⟩
      · exact Unread.bind (unread_deductPrice _ _ _ _ u) (fun _ => Unread.done _)
      · exact (deductPrice_same _ _ _ _ hfixed).discard ()
  | increaseCredits amount =>
      refine orderly_of_copy (fun u => setCredits (u.credits + amount) >>= fun _ => .done ())
        inputs rfl rfl ?_ (fun u => ?_) (fun u u' _ => ?_)
      · cases hfate : (inputs 0).fate with
        | done => exact Or.inl (fun u => by simp only [User.answer, hfate]; rfl)
        | refused => exact Or.inr ⟨(), fun u => by simp only [User.answer, hfate]; rfl⟩
        | lost => exact Or.inr ⟨(), fun u => by simp only [User.answer, hfate]; rfl⟩
      · exact Unread.bind (Unread.issue rfl (fun _ _ _ => Unread.done _)) (fun _ => Unread.done _)
      · exact (setCredits_same amount).discard ()

end Orderly

/-! ## Conservation -/

/-- The call with what the database, the clock and the price cache answer it. -/
def CreditCall.run (metronomeEnabled : Bool) (getCountryCodeFromPhone : String → Option String)
    (call : CreditCall α × (Nat → Input α)) : BillingCall α Unit :=
  ⟨call.1.program metronomeEnabled getCountryCodeFromPhone, call.2⟩

/-- The two balances are those some sequential order of the calls leaves. -/
def Conserved (calls : List (BillingCall α Unit)) (row final : User α) : Prop :=
  ∃ order, order.Perm calls ∧ (sequential User.exec order row).credits = final.credits ∧
    (sequential User.exec order row).creditsLeft = final.creditsLeft

section Runs

variable [DecidableEq α] (metronomeEnabled : Bool)
  (getCountryCodeFromPhone : String → Option String)

/-- The calls of a user before their first statement. -/
def startCalls (calls : List (CreditCall α × (Nat → Input α))) (row : User α) :
    Interleaved (Statement α) Answer (Input α) Unit (User α) :=
  Interleaved.start (calls.map (CreditCall.run metronomeEnabled getCountryCodeFromPhone)) row

theorem credits_conserved {calls : List (CreditCall α × (Nat → Input α))} {row : User α}
    {actions : List Nat} {final : Interleaved (Statement α) Answer (Input α) Unit (User α)}
    (hturns : Transition.Meets (Interleaved.step (rowAccess α))
      (fun s i => s.inTurn (rowAccess α) User.agrees i = true)
      (startCalls metronomeEnabled getCountryCodeFromPhone calls row) actions)
    (hrun : Transition.run (Interleaved.step (rowAccess α))
      (startCalls metronomeEnabled getCountryCodeFromPhone calls row) actions = some final)
    (hdone : final.threads.all Thread.isDone = true) :
    Conserved (calls.map (CreditCall.run metronomeEnabled getCountryCodeFromPhone)) row
      final.store := by
  have horderly : ∀ c ∈ calls.map (CreditCall.run metronomeEnabled getCountryCodeFromPhone),
      Orderly (rowAccess α) User.agrees c := by
    intro c hc
    obtain ⟨call, _, rfl⟩ := List.mem_map.mp hc
    exact call.1.orderly metronomeEnabled getCountryCodeFromPhone call.2
  obtain ⟨order, hperm, hstore⟩ := serializable horderly hturns hrun hdone
  exact ⟨order, hperm, by rw [hstore], by rw [hstore]⟩

end Runs

/-! ## Two interleavings -/

namespace ConservationExample

def inputs : Nat → Input Rat := fun _ => ⟨.done, 100, none⟩

def row (credits creditsLeft : Rat) : User Rat where
  phoneNumber := "+358401234567"
  subTier := some "tier 2"
  ownTwilioEnabled := false
  credits := credits
  creditsLeft := creditsLeft
  includedUsageWindowStartTimestamp := some 1
  includedUsageWindowEndTimestamp := some 2592001
  lastCreditsNotification := none

/-- A message that costs 1.3 and a top-up of 5. -/
def calls : List (CreditCall Rat × (Nat → Input Rat)) :=
  [(.deductFromTwilioPrice 1 (some "SM1") "twilio", inputs), (.increaseCredits 5, inputs)]

/-- The top-up runs between the last reading and the write of the deduction. -/
def between : List Nat := [0, 0, 0, 0, 1, 1, 0]

def begin (row : User Rat) : Interleaved (Statement Rat) Answer (Input Rat) Unit (User Rat) :=
  startCalls false (fun _ => none) calls row

def reached (row : User Rat) : Interleaved (Statement Rat) Answer (Input Rat) Unit (User Rat) :=
  Transition.final (Interleaved.step (rowAccess Rat)) (begin row) between

end ConservationExample

open ConservationExample in
/-- The deduction takes from the included credits, the top-up adds to the others. -/
theorem credits_conserved_two_pools :
    Conserved (calls.map (CreditCall.run false (fun _ => none))) (row 10 20)
      (reached (row 10 20)).store :=
  @credits_conserved Rat _ _ false (fun _ => none) calls (row 10 20) between _
    (by decide +kernel) (Transition.run_eq_final (by decide +kernel)) (by decide +kernel)

open ConservationExample in
/-- Both write the same balance: the top-up is lost. -/
theorem credits_conserved_fails_on_top_up :
    ¬ ∀ (metronomeEnabled : Bool) (getCountryCodeFromPhone : String → Option String)
      (calls : List (CreditCall Rat × (Nat → Input Rat))) (row : User Rat) (actions : List Nat)
      (final : Interleaved (Statement Rat) Answer (Input Rat) Unit (User Rat)),
      Transition.run (Interleaved.step (rowAccess Rat))
        (startCalls metronomeEnabled getCountryCodeFromPhone calls row) actions = some final →
      final.threads.all Thread.isDone = true →
      Conserved (calls.map (CreditCall.run metronomeEnabled getCountryCodeFromPhone)) row
        final.store := by
  intro law
  obtain ⟨order, hperm, hcredits, _⟩ := law false (fun _ => none) calls (row 10 0) between _
    (Transition.run_eq_final (by decide +kernel)) (by decide +kernel)
  have hfinal : (reached (row 10 0)).store.credits = 87 / 10 := by decide +kernel
  have hlost := hcredits.trans hfinal
  change order.Perm [_, _] at hperm
  rcases List.perm_pair.mp hperm with rfl | rfl
  · exact absurd hlost (by decide +kernel)
  · exact absurd hlost (by decide +kernel)

end Lightfriend.Billing
