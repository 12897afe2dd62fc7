import Lightfriend.Billing.Credits

/-! # What a text costs, and what is taken for it

When the provider tells the price of a text, its cost is taken from the included
credits or from the bought ones, and the cost is written to the usage log. No
cost is split between the two pools.
-/

namespace Lightfriend.Billing

/-! ## Charges -/

/-- The statements are carried out and answered. -/
def Carried (inputs : Nat → Input Rat) : Prop := ∀ n, (inputs n).fate = .done

theorem Carried.later {inputs : Nat → Input Rat} (h : Carried inputs) :
    Carried (laterInputs inputs) := fun n => h (n + 1)

theorem Carried.skip {inputs : Nat → Input Rat} (h : Carried inputs) (used : Nat) :
    Carried (fun n => inputs (n + used)) := fun n => h (n + used)

/-- A text whose price is told, under statements that are carried out. -/
structure Charge where
  twilioPriceUsd : Rat
  transactionId : Option String
  provider : String
  inputs : Nat → Input Rat
  price_ne_zero : twilioPriceUsd ≠ 0
  carried : Carried inputs

namespace Charge

/-- The price with the margin. -/
def cost (c : Charge) : Rat := F32.abs c.twilioPriceUsd * twilioCostMargin Rat

def program (c : Charge) : BillingProgram Rat (Except String Rat) :=
  deductFromTwilioPrice false c.twilioPriceUsd c.transactionId c.provider

/-- The row and the answer after the whole call. -/
def solo (c : Charge) (u : User Rat) : User Rat × Except String Rat :=
  c.program.solo User.exec c.inputs u

/-- The row after the check of the window, which comes third in the call. -/
def checked (c : Charge) (u : User Rat) : User Rat :=
  ((ensureCurrentIncludedUsageWindow false u).solo User.exec (fun n => c.inputs (n + 2)) u).1

end Charge

/-- The pools of a row are not overdrawn. -/
def Solvent (u : User Rat) : Prop := 0 ≤ u.creditsLeft ∧ 0 ≤ u.credits

def pools (u : User Rat) : Rat := u.creditsLeft + u.credits

/-- A charge that went through: the row it found, the row it left, what it reported. -/
structure Charged where
  checked : User Rat
  after : User Rat
  reported : Rat

namespace Charged

/-- What the charge took. -/
def removed (s : Charged) : Rat := pools s.checked - pools s.after

/-- The charge took what was owed, as far as the pools went, and said so. -/
def Exact (s : Charged) (cost : Rat) : Prop :=
  Solvent s.after ∧ s.removed = min cost (pools s.checked) ∧
    s.reported = min cost (pools s.checked)

end Charged

/-- One of the pools covers the cost alone. -/
def Covered (u : User Rat) (cost : Rat) : Prop := cost ≤ u.creditsLeft ∨ cost ≤ u.credits

/-- The charge of a row, when it goes through. -/
def Charge.run (c : Charge) (u : User Rat) : Option Charged :=
  match (c.solo u).2 with
  | .ok reported => some ⟨c.checked u, (c.solo u).1, reported⟩
  | .error _ => none

/-- Charges one after the other. -/
def runCharges : List Charge → User Rat → Option (List (Charge × Charged))
  | [], _ => some []
  | c :: rest, u => do
      let s ← c.run u
      let later ← runCharges rest s.after
      some ((c, s) :: later)

def totalRemoved (steps : List (Charge × Charged)) : Rat :=
  (steps.map (fun step => step.2.removed)).sum

def totalReported (steps : List (Charge × Charged)) : Rat :=
  (steps.map (fun step => step.2.reported)).sum

/-! ## What is taken -/

section Taking

variable {u : User Rat} {inputs : Nat → Input Rat} {cost : Rat}

/-- What the last part of a call leaves of a row. -/
def takenFrom (u : User Rat) (cost : Rat) : User Rat :=
  if cost ≤ u.creditsLeft then { u with creditsLeft := u.creditsLeft - cost }
  else if cost ≤ u.credits then { u with credits := u.credits - cost }
  else if 0 < u.creditsLeft then { u with creditsLeft := 0 }
  else { u with credits := 0 }

theorem takePrice_solo (hdone : Carried inputs) (u : User Rat) (cost : Rat) :
    (takePrice u cost).solo User.exec inputs u = (takenFrom u cost, .ok cost) := by
  have hanswer : ∀ s : Statement Rat, User.exec s (inputs 0) u =
      (u.write s, u.answer (inputs 0) s) := by
    intro s
    rw [User.exec, hdone 0]
    rfl
  unfold takePrice takenFrom
  split
  · simp [updateUserCreditsLeft, Program.solo, hanswer, User.write, User.answer, hdone 0,
      StatementFate.answer, written, Except.map]
  · split
    · simp [updateUserCredits, Program.solo, hanswer, User.write, User.answer, hdone 0,
        StatementFate.answer, written, Except.map]
    · split
      · simp [updateUserCreditsLeft, Program.solo, hanswer, User.write, User.answer, hdone 0,
          StatementFate.answer, written, Except.map]
      · simp [updateUserCredits, Program.solo, hanswer, User.write, User.answer, hdone 0,
          StatementFate.answer, written, Except.map]

theorem refresh_solo (hdone : Carried inputs) (failed gone : String) :
    (refresh true failed gone).solo User.exec inputs u = (u, .ok u) := by
  simp [refresh, findById, Program.solo, User.exec, User.answer, hdone 0, StatementFate.answer,
    StatementFate.after, User.write]

/-- What the check of the window leaves of a row. -/
inductive WindowChecked (u : User Rat) : User Rat → Prop
  | kept : WindowChecked u u
  | cleared : WindowChecked u u.clearIncludedUsageWindow
  | reset (windowStart windowEnd : Int) :
      WindowChecked u (u.resetIncludedUsageWindow windowStart windowEnd (monthlyCreditBudget Rat))

/-- The copy that a check returns is the row it leaves. -/
def Checks (u : User Rat) (result : User Rat × Except String (User Rat)) : Prop :=
  WindowChecked u result.1 ∧ ∀ user, result.2 = .ok user → user = result.1

theorem dropIncludedUsage_checks (hdone : Carried inputs) (u : User Rat) :
    Checks u ((dropIncludedUsage u).solo User.exec inputs u) := by
  unfold dropIncludedUsage
  split
  · have hclear : User.exec .clearIncludedUsageWindow (inputs 0) u =
        (u.clearIncludedUsageWindow, true) := by
      simp [User.exec, User.write, User.answer, hdone 0, StatementFate.after,
        StatementFate.answer]
    simp only [clearIncludedUsageWindow, Program.issue_bind, Program.done_bind, Program.solo,
      hclear]
    rw [refresh_solo hdone.later]
    exact ⟨.cleared, fun user h => (Except.ok.inj h).symm⟩
  · exact ⟨.kept, fun user h => (Except.ok.inj h).symm⟩

theorem renewIncludedUsage_checks (hdone : Carried inputs) (u : User Rat) :
    Checks u ((renewIncludedUsage u).solo User.exec inputs u) := by
  rw [renewIncludedUsage_eq]
  have hnow : User.exec .now (inputs 0) u = (u, (inputs 0).now) := by
    simp [User.exec, User.write, User.answer]
  simp only [Program.solo, hnow]
  cases currentIncludedUsageWindow (inputs 0).now u.includedUsageWindowStartTimestamp
      u.includedUsageWindowEndTimestamp with
  | none => exact ⟨.kept, fun user h => by cases h⟩
  | some current =>
      obtain ⟨window, reset⟩ := current
      cases reset with
      | false => exact ⟨.kept, fun user h => (Except.ok.inj h).symm⟩
      | true =>
          have hreset : User.exec (.resetIncludedUsageWindow window.start window.ends
              (monthlyCreditBudget Rat)) (laterInputs inputs 0) u =
                (u.resetIncludedUsageWindow window.start window.ends (monthlyCreditBudget Rat),
                  true) := by
            simp [User.exec, User.write, User.answer, laterInputs, hdone 1, StatementFate.after,
              StatementFate.answer]
          simp only [Program.solo, hreset]
          rw [refresh_solo hdone.later.later]
          exact ⟨.reset _ _, fun user h => (Except.ok.inj h).symm⟩

theorem ensure_checks (hdone : Carried inputs) (u : User Rat) :
    Checks u ((ensureCurrentIncludedUsageWindow false u).solo User.exec inputs u) := by
  unfold ensureCurrentIncludedUsageWindow hasNoIncludedUsage
  rw [if_neg (by simp)]
  split
  · exact dropIncludedUsage_checks hdone u
  · have hown : User.exec .isByotUser (inputs 0) u = (u, u.ownTwilioEnabled) := by
      simp [User.exec, User.write, User.answer, hdone 0, StatementFate.answer]
    simp only [isByotUser, Program.issue_bind, Program.done_bind, Program.solo, hown]
    split
    · exact dropIncludedUsage_checks hdone.later u
    · exact renewIncludedUsage_checks hdone.later u

/-! ## The whole call -/

theorem monthlyCreditBudget_nonneg : 0 ≤ monthlyCreditBudget Rat := by
  simp only [monthlyCreditBudget, F32.literal]
  norm_num

theorem WindowChecked.solvent {row : User Rat} (h : WindowChecked u row) (hu : Solvent u) :
    Solvent row := by
  cases h with
  | kept => exact hu
  | cleared => exact ⟨le_refl _, hu.2⟩
  | reset => exact ⟨monthlyCreditBudget_nonneg, hu.2⟩

theorem WindowChecked.own {row : User Rat} (h : WindowChecked u row) :
    row.ownTwilioEnabled = u.ownTwilioEnabled := by
  cases h <;> rfl

theorem takenFrom_own (u : User Rat) (cost : Rat) :
    (takenFrom u cost).ownTwilioEnabled = u.ownTwilioEnabled := by
  unfold takenFrom
  split
  · rfl
  · split
    · rfl
    · split <;> rfl

end Taking

/-- A charge that goes through takes its cost from the row after the check. -/
theorem Charge.run_eq_some {c : Charge} {u : User Rat} {s : Charged}
    (hown : u.ownTwilioEnabled = false) (h : c.run u = some s) :
    WindowChecked u s.checked ∧ s.after = takenFrom s.checked c.cost ∧ s.reported = c.cost := by
  have hprice : ¬ (F32.abs c.twilioPriceUsd == 0) = true := by
    intro hzero
    have habs : F32.abs c.twilioPriceUsd = 0 := by simpa using hzero
    unfold F32.abs at habs
    split at habs
    · exact c.price_ne_zero (neg_eq_zero.mp habs)
    · exact c.price_ne_zero habs
  have hchecks := ensure_checks (c.carried.skip 2) u
  have hcall : c.solo u = (chargePrice false c.provider c.transactionId u c.cost).solo User.exec
      (fun n => c.inputs (n + 2)) u := by
    have hfind : User.exec .findById (c.inputs 0) u = (u, some (some u)) := by
      simp [User.exec, User.write, User.answer, c.carried 0, StatementFate.answer]
    have hbyot : User.exec .isByotUser (c.inputs 1) u = (u, false) := by
      simp [User.exec, User.write, User.answer, c.carried 1, StatementFate.answer, hown]
    unfold Charge.solo Charge.program deductFromTwilioPrice deductPrice
    simp only [findById, isByotUser, Program.issue_bind, Program.done_bind, Program.solo, hfind]
    change (Program.solo User.exec (if (User.exec .isByotUser (c.inputs 1) u).2 = true then _
      else _) _ (User.exec .isByotUser (c.inputs 1) u).1) = _
    rw [hbyot]
    simp only [Bool.false_eq_true, if_false]
    rw [if_neg hprice]
    rfl
  unfold Charge.run at h
  rw [hcall, chargePrice, if_neg (by simp), (Program.solo_bind _ _ _ _ _).choose_spec] at h
  generalize (Program.solo_bind _ _ _ _ _).choose = used at h
  obtain ⟨hwindow, hcopy⟩ := hchecks
  have hchecked : (c.checked u) = ((ensureCurrentIncludedUsageWindow false u).solo User.exec
      (fun n => c.inputs (n + 2)) u).1 := rfl
  cases hresult : ((ensureCurrentIncludedUsageWindow false u).solo User.exec
      (fun n => c.inputs (n + 2)) u).2 with
  | error error =>
      rw [hresult] at h
      cases h
  | ok user =>
      rw [hresult] at h
      simp only at h
      rw [← hcopy user hresult, takePrice_solo] at h
      · cases h
        rw [hcopy user hresult]
        exact ⟨hwindow, rfl, rfl⟩
      · exact (c.carried.skip 2).skip _

/-! ## Exact charges -/

section Exact

variable {u : User Rat} {cost : Rat}

theorem takenFrom_solvent (hu : Solvent u) (cost : Rat) : Solvent (takenFrom u cost) := by
  obtain ⟨hleft, hcredits⟩ := hu
  unfold takenFrom
  split
  next hcovered => exact ⟨sub_nonneg.mpr hcovered, hcredits⟩
  next =>
    split
    next hcovered => exact ⟨hleft, sub_nonneg.mpr hcovered⟩
    next =>
      split
      · exact ⟨le_refl _, hcredits⟩
      · exact ⟨hleft, le_refl _⟩

/-- What is removed where a pool covers the cost. -/
theorem removed_of_covered (h : Covered u cost) : pools u - pools (takenFrom u cost) = cost := by
  unfold takenFrom pools
  split
  next => simp only; ring
  next hleft =>
    rw [if_pos (h.resolve_left hleft)]
    simp only
    ring

/-- Where no pool does, less than the cost is removed. -/
theorem removed_of_not_covered (h : ¬ Covered u cost) :
    pools u - pools (takenFrom u cost) < cost := by
  obtain ⟨hleft, hcredits⟩ := not_or.mp h
  unfold takenFrom pools
  rw [if_neg hleft, if_neg hcredits]
  split
  · simp only
    linarith
  · simp only
    linarith

theorem min_of_covered (hu : Solvent u) (h : Covered u cost) : min cost (pools u) = cost := by
  refine min_eq_left ?_
  unfold pools
  obtain hleft | hcredits := h
  · linarith [hu.2]
  · linarith [hu.1]

/-- A charge is exact when a pool covers its cost, and no other charge is. -/
theorem exact_iff {c : Charge} {s : Charged} (hown : u.ownTwilioEnabled = false)
    (hrun : c.run u = some s) (hsolvent : Solvent s.checked) :
    s.Exact c.cost ↔ Covered s.checked c.cost := by
  obtain ⟨-, hafter, hreported⟩ := Charge.run_eq_some hown hrun
  unfold Charged.Exact Charged.removed
  rw [hafter, hreported]
  constructor
  · rintro ⟨-, hremoved, hcost⟩
    by_contra hnot
    have hless := removed_of_not_covered hnot
    rw [hremoved, ← hcost] at hless
    exact lt_irrefl _ hless
  · intro hcovered
    rw [removed_of_covered hcovered, min_of_covered hsolvent hcovered]
    exact ⟨takenFrom_solvent hsolvent _, rfl, rfl⟩

theorem removed_le {c : Charge} {s : Charged} (hown : u.ownTwilioEnabled = false)
    (hrun : c.run u = some s) : s.removed ≤ s.reported := by
  obtain ⟨-, hafter, hreported⟩ := Charge.run_eq_some hown hrun
  unfold Charged.removed
  rw [hafter, hreported]
  by_cases hcovered : Covered s.checked c.cost
  · exact (removed_of_covered hcovered).le
  · exact (removed_of_not_covered hcovered).le

theorem removed_eq_iff {c : Charge} {s : Charged} (hown : u.ownTwilioEnabled = false)
    (hrun : c.run u = some s) : s.removed = s.reported ↔ Covered s.checked c.cost := by
  obtain ⟨-, hafter, hreported⟩ := Charge.run_eq_some hown hrun
  unfold Charged.removed
  rw [hafter, hreported]
  refine ⟨fun heq => ?_, removed_of_covered⟩
  by_contra hnot
  exact (removed_of_not_covered hnot).ne heq

/-- Over a run, what was removed is what was reported exactly when every charge was covered. -/
theorem totals_iff {cs : List Charge} {steps : List (Charge × Charged)}
    (hown : u.ownTwilioEnabled = false) (hrun : runCharges cs u = some steps) :
    totalRemoved steps ≤ totalReported steps ∧
      (totalRemoved steps = totalReported steps ↔
        ∀ step ∈ steps, Covered step.2.checked step.1.cost) := by
  induction cs generalizing u steps with
  | nil =>
      cases hrun
      exact ⟨le_refl _, fun _ _ h => (List.not_mem_nil h).elim, fun _ => rfl⟩
  | cons c rest ih =>
      simp only [runCharges, Option.bind_eq_bind, Option.bind_eq_some_iff] at hrun
      obtain ⟨s, hs, later, hlater, hsteps⟩ := hrun
      obtain rfl := Option.some.inj hsteps
      obtain ⟨hwindow, hafter, -⟩ := Charge.run_eq_some hown hs
      have hle := removed_le hown hs
      have hown' : s.after.ownTwilioEnabled = false := by
        rw [hafter, takenFrom_own, hwindow.own, hown]
      obtain ⟨hrest, hiff⟩ := ih hown' hlater
      have hremoved : totalRemoved ((c, s) :: later) = s.removed + totalRemoved later := by
        simp [totalRemoved]
      have hreported : totalReported ((c, s) :: later) = s.reported + totalReported later := by
        simp [totalReported]
      rw [hremoved, hreported, List.forall_mem_cons, ← hiff, ← removed_eq_iff hown hs]
      refine ⟨add_le_add hle hrest, fun heq => ?_, fun ⟨hfirst, hothers⟩ => by rw [hfirst, hothers]⟩
      exact ⟨by linarith, by linarith⟩

/-- A charge takes and reports what is owed, as far as the pools go, exactly when one pool covers
its cost; over a run the totals agree exactly when that is so of every charge. -/
theorem deductFromTwilioPrice_exact (hown : u.ownTwilioEnabled = false) (hu : Solvent u) :
    (∀ c s, Charge.run c u = some s →
      (s.Exact c.cost ↔ Covered s.checked c.cost)) ∧
    ∀ cs steps, runCharges cs u = some steps →
      (totalRemoved steps = totalReported steps ↔
        ∀ step ∈ steps, Covered step.2.checked step.1.cost) := by
  constructor
  · intro c s hrun
    obtain ⟨hwindow, -, -⟩ := Charge.run_eq_some hown hrun
    exact exact_iff hown hrun (hwindow.solvent hu)
  · intro cs steps hrun
    exact (totals_iff hown hrun).2

end Exact

/-- A user with some credits in both pools. -/
def smallRow : User Rat where
  phoneNumber := "+358401234567"
  subTier := some "tier 2"
  ownTwilioEnabled := false
  credits := 1 / 20
  creditsLeft := 1 / 10
  includedUsageWindowStartTimestamp := some 1759000000
  includedUsageWindowEndTimestamp := some 1761592000
  lastCreditsNotification := none

/-- Statements at one time of the first window. -/
def sameTime : Nat → Input Rat := fun _ => ⟨.done, 1760000000, none⟩

theorem sameTime_carried : Carried sameTime := fun _ => rfl

theorem cheapPrice_ne_zero : (-1 / 100 : Rat) ≠ 0 := by norm_num

theorem dearPrice_ne_zero : (-1 / 10 : Rat) ≠ 0 := by norm_num

def cheapText : Charge :=
  ⟨-1 / 100, some "SM1", "twilio", sameTime, cheapPrice_ne_zero, sameTime_carried⟩

def dearText : Charge :=
  ⟨-1 / 10, some "SM2", "twilio", sameTime, dearPrice_ne_zero, sameTime_carried⟩

theorem smallRow_solvent : Solvent smallRow := by
  unfold Solvent
  decide +kernel

theorem exists_run {c : Charge} {u : User Rat} {p : Charged → Prop} [DecidablePred p]
    (h : (c.run u).any (fun s => decide (p s)) = true) : ∃ s, c.run u = some s ∧ p s := by
  cases hrun : c.run u with
  | none =>
      rw [hrun] at h
      cases h
  | some s =>
      rw [hrun] at h
      exact ⟨s, rfl, of_decide_eq_true h⟩

theorem cheapText_exact : ∃ s, cheapText.run smallRow = some s ∧ s.Exact cheapText.cost := by
  obtain ⟨s, hs, hcovered⟩ : ∃ s, cheapText.run smallRow = some s ∧
      cheapText.cost ≤ s.checked.creditsLeft := exists_run (by decide +kernel)
  exact ⟨s, hs, ((deductFromTwilioPrice_exact rfl smallRow_solvent).1 cheapText s hs).mpr
    (.inl hcovered)⟩

/-- Of a cost of 13 cents, with 10 cents included and 5 cents bought, 10 cents are taken and 13
cents reported. -/
theorem dearText_inexact : ∃ s, dearText.run smallRow = some s ∧
    s.removed = 1 / 10 ∧ s.reported = 13 / 100 ∧ pools s.checked = 3 / 20 ∧
    ¬ s.Exact dearText.cost := by
  obtain ⟨s, hs, hremoved, hreported, hpools, hcost⟩ : ∃ s, dearText.run smallRow = some s ∧
      s.removed = 1 / 10 ∧ s.reported = 13 / 100 ∧ pools s.checked = 3 / 20 ∧
        dearText.cost = 13 / 100 := exists_run (by decide +kernel)
  refine ⟨s, hs, hremoved, hreported, hpools, ?_⟩
  rintro ⟨-, htaken, -⟩
  rw [hremoved, hpools, hcost] at htaken
  norm_num at htaken

end Lightfriend.Billing
