import Lightfriend.Core.Calendar

/-! # The billing periods

A period begins at the anchor of the account and lasts a month; the loop adds
month after month, each to the end of the last period. After a short month the
periods stay at the day that it left them.
-/

namespace Lightfriend.Billing

/-! ## The loop -/

/-- What the date library gives: the date of a timestamp, and the last month it can tell. -/
structure DateLibrary where
  fromTimestamp : Int → Option DateTime
  lastMonth : Int

def checkedAddMonths (library : DateLibrary) (date : DateTime) (months : Nat) : Option DateTime :=
  if date.month + months ≤ library.lastMonth then some (date.addMonths months) else none

theorem checkedAddMonths_eq_some {library : DateLibrary} {date next : DateTime} {months : Nat} :
    checkedAddMonths library date months = some next ↔
      date.month + months ≤ library.lastMonth ∧ date.addMonths months = next := by
  unfold checkedAddMonths
  split <;> simp_all

/-- `while period_end <= now`. -/
def advancePeriod (library : DateLibrary) (now periodStart periodEnd : DateTime) :
    Option (DateTime × DateTime) :=
  if periodEnd ≤ now then
    match _hnext : checkedAddMonths library periodEnd 1 with
    | none => none
    | some next => advancePeriod library now periodEnd next
  else some (periodStart, periodEnd)
termination_by (now.month + 1 - periodEnd.month).toNat
decreasing_by
  have hmonth := DateTime.month_le ‹periodEnd ≤ now›
  have hlater := congrArg DateTime.month (checkedAddMonths_eq_some.1 _hnext).2
  rw [DateTime.addMonths_month] at hlater
  omega

def billingPeriodFromAnchor (library : DateLibrary) (anchorTimestamp : Int) (now : DateTime) :
    Option (DateTime × DateTime) := do
  let periodStart ← library.fromTimestamp anchorTimestamp
  let periodEnd ← checkedAddMonths library periodStart 1
  advancePeriod library now periodStart periodEnd

/-! ## What the loop finds -/

section Loop

variable {library : DateLibrary} {anchor now : DateTime}

theorem advancePeriod_stop {periodStart periodEnd : DateTime} (h : ¬ periodEnd ≤ now) :
    advancePeriod library now periodStart periodEnd = some (periodStart, periodEnd) := by
  rw [advancePeriod, if_neg h]

theorem advancePeriod_next {periodStart periodEnd : DateTime} (h : periodEnd ≤ now)
    (hmonth : periodEnd.month + 1 ≤ library.lastMonth) :
    advancePeriod library now periodStart periodEnd =
      advancePeriod library now periodEnd (periodEnd.addMonths 1) := by
  have hnext : checkedAddMonths library periodEnd 1 = some (periodEnd.addMonths 1) :=
    checkedAddMonths_eq_some.2 ⟨hmonth, rfl⟩
  rw [advancePeriod, if_pos h]
  split
  next hnone => rw [hnext] at hnone; cases hnone
  next next' hsome => rw [hnext] at hsome; cases hsome; rfl

/-- The loop gives a step of the months and the next. -/
theorem advancePeriod_steps {j : Nat} {period : DateTime × DateTime}
    (hmonth : anchor.month + (j + 1) ≤ library.lastMonth)
    (h : advancePeriod library now (anchor.stepMonths j) (anchor.stepMonths (j + 1)) =
      some period) :
    ∃ k : Nat, period = (anchor.stepMonths k, anchor.stepMonths (k + 1)) ∧
      now < anchor.stepMonths (k + 1) ∧ anchor.month + (k + 1) ≤ library.lastMonth := by
  obtain ⟨n, hn⟩ : ∃ n, (now.month - (anchor.month + j)).toNat ≤ n := ⟨_, le_rfl⟩
  induction n generalizing j with
  | zero =>
      have hstop : ¬ anchor.stepMonths (j + 1) ≤ now := by
        intro hle
        have hmonths := DateTime.month_le hle
        rw [DateTime.stepMonths_month] at hmonths
        omega
      rw [advancePeriod_stop hstop] at h
      exact ⟨j, (Option.some.inj h).symm, not_not.mp hstop, hmonth⟩
  | succ n ih =>
      by_cases hle : anchor.stepMonths (j + 1) ≤ now
      · by_cases hlast : (anchor.stepMonths (j + 1)).month + 1 ≤ library.lastMonth
        · rw [advancePeriod_next hle hlast] at h
          rw [DateTime.stepMonths_month] at hlast
          have hmonths := DateTime.month_le hle
          rw [DateTime.stepMonths_month] at hmonths
          exact ih (by push_cast at *; omega) h (by push_cast at *; omega)
        · rw [advancePeriod, if_pos hle] at h
          split at h
          next => cases h
          next next' hnext => exact absurd (checkedAddMonths_eq_some.1 hnext).1 hlast
      · rw [advancePeriod_stop hle] at h
        exact ⟨j, (Option.some.inj h).symm, not_not.mp hle, hmonth⟩

/-- The loop finds the period around `now`. -/
theorem advancePeriod_around {j k : Nat} (hle : j ≤ k)
    (hstart : anchor.stepMonths k ≤ now) (hend : now < anchor.stepMonths (k + 1))
    (hmonth : anchor.month + (k + 1) ≤ library.lastMonth) :
    advancePeriod library now (anchor.stepMonths j) (anchor.stepMonths (j + 1)) =
      some (anchor.stepMonths k, anchor.stepMonths (k + 1)) := by
  obtain ⟨n, rfl⟩ : ∃ n, k = j + n := ⟨k - j, by omega⟩
  induction n generalizing j with
  | zero => exact advancePeriod_stop (fun hnot => hnot hend)
  | succ n ih =>
      have hbefore : anchor.stepMonths (j + 1) ≤ anchor.stepMonths (j + (n + 1)) := by
        obtain rfl | hpos := Nat.eq_zero_or_pos n
        · exact DateTime.le_refl _
        · refine DateTime.le_of_month ?_
          rw [DateTime.stepMonths_month, DateTime.stepMonths_month]
          push_cast
          omega
      rw [advancePeriod_next (DateTime.le_trans hbefore hstart)]
      · have hindex : j + (n + 1) = j + 1 + n := by omega
        rw [hindex] at hstart hend hmonth ⊢
        exact ih (by omega) hstart hend hmonth
      · rw [DateTime.stepMonths_month]
        push_cast at *
        omega

end Loop

/-! ## The periods of an account -/

/-- A period from one month after the anchor to the next, around `now`. -/
def OnAnchorDay (library : DateLibrary) (anchorTimestamp : Int) (anchor now : DateTime) : Prop :=
  ∃ k, billingPeriodFromAnchor library anchorTimestamp now =
      some (anchor.addMonths k, anchor.addMonths (k + 1)) ∧
    anchor.addMonths k ≤ now ∧ now < anchor.addMonths (k + 1)

/-- No month before the period around `now` was too short for the days of its ends, and its end
can be told. -/
def ShortMonthsAfter (library : DateLibrary) (anchor now : DateTime) : Prop :=
  ∃ k : Nat, anchor.addMonths k ≤ now ∧ now < anchor.addMonths (k + 1) ∧
    anchor.Unclamped k ∧ anchor.Unclamped (k + 1) ∧ anchor.month + (k + 1) ≤ library.lastMonth

/-- Two periods are the same, or one ends before or where the other starts. -/
def Apart (p q : DateTime × DateTime) : Prop := p = q ∨ p.2 ≤ q.1 ∨ q.2 ≤ p.1

/-- The periods of an account tile the time: they never overlap, at its end a period is followed
by the next, and one on the anchor's day keeps that day in every month that has it. -/
structure Tile (library : DateLibrary) (anchorTimestamp : Int) (anchor : DateTime) : Prop where
  apart : ∀ now now' p q, billingPeriodFromAnchor library anchorTimestamp now = some p →
    billingPeriodFromAnchor library anchorTimestamp now' = some q → Apart p q
  adjacent : ∀ now p q, billingPeriodFromAnchor library anchorTimestamp now = some p →
    billingPeriodFromAnchor library anchorTimestamp p.2 = some q → q.1 = p.2
  day : ∀ now p, OnAnchorDay library anchorTimestamp anchor now →
    billingPeriodFromAnchor library anchorTimestamp now = some p →
      anchor.day ≤ monthLength p.1.month → p.1.day = anchor.day

section Periods

variable {library : DateLibrary} {anchorTimestamp : Int} {anchor now : DateTime}

theorem billingPeriod_eq (hanchor : library.fromTimestamp anchorTimestamp = some anchor)
    (hmonth : anchor.month + 1 ≤ library.lastMonth) :
    billingPeriodFromAnchor library anchorTimestamp now =
      advancePeriod library now (anchor.stepMonths 0) (anchor.stepMonths (0 + 1)) := by
  have hfirst : checkedAddMonths library anchor 1 = some (anchor.addMonths 1) :=
    checkedAddMonths_eq_some.2 ⟨hmonth, rfl⟩
  unfold billingPeriodFromAnchor
  rw [hanchor]
  simp only [Option.bind_eq_bind, Option.bind_some, hfirst]
  rfl

theorem billingPeriod_steps (hanchor : library.fromTimestamp anchorTimestamp = some anchor)
    {period : DateTime × DateTime}
    (h : billingPeriodFromAnchor library anchorTimestamp now = some period) :
    ∃ k : Nat, period = (anchor.stepMonths k, anchor.stepMonths (k + 1)) ∧
      now < anchor.stepMonths (k + 1) ∧ anchor.month + (k + 1) ≤ library.lastMonth := by
  by_cases hmonth : anchor.month + 1 ≤ library.lastMonth
  · rw [billingPeriod_eq hanchor hmonth] at h
    exact advancePeriod_steps (by push_cast; omega) h
  · have hnone : checkedAddMonths library anchor 1 = none := if_neg hmonth
    unfold billingPeriodFromAnchor at h
    rw [hanchor] at h
    simp only [Option.bind_eq_bind, Option.bind_some, hnone, Option.bind_none] at h
    cases h

/-- The period is on the anchor's day exactly where no earlier month has moved it. -/
theorem onAnchorDay_iff (hanchor : library.fromTimestamp anchorTimestamp = some anchor) :
    OnAnchorDay library anchorTimestamp anchor now ↔ ShortMonthsAfter library anchor now := by
  constructor
  · rintro ⟨k, hperiod, hstart, hend⟩
    obtain ⟨j, hpair, -, hmonth⟩ := billingPeriod_steps hanchor hperiod
    obtain ⟨hfirst, hsecond⟩ := Prod.mk.inj hpair
    have hsame : k = j := by
      have hmonths := congrArg DateTime.month hfirst
      rw [DateTime.addMonths_month, DateTime.stepMonths_month] at hmonths
      omega
    subst hsame
    exact ⟨k, hstart, hend, (DateTime.stepMonths_eq_iff anchor k).mp hfirst.symm,
      (DateTime.stepMonths_eq_iff anchor (k + 1)).mp hsecond.symm, hmonth⟩
  · rintro ⟨k, hstart, hend, hfirst, hsecond, hmonth⟩
    have hstep := (DateTime.stepMonths_eq_iff anchor k).mpr hfirst
    have hnext := (DateTime.stepMonths_eq_iff anchor (k + 1)).mpr hsecond
    refine ⟨k, ?_, hstart, hend⟩
    rw [billingPeriod_eq hanchor (by omega), ← hstep, ← hnext]
    exact advancePeriod_around (Nat.zero_le k) (by rwa [hstep]) (by rwa [hnext]) hmonth

theorem stepMonths_le {j k : Nat} (h : j ≤ k) : anchor.stepMonths j ≤ anchor.stepMonths k := by
  obtain rfl | hlt := Nat.eq_or_lt_of_le h
  · exact DateTime.le_refl _
  · refine DateTime.le_of_month ?_
    rw [DateTime.stepMonths_month, DateTime.stepMonths_month]
    omega

theorem tile (hanchor : library.fromTimestamp anchorTimestamp = some anchor) :
    Tile library anchorTimestamp anchor where
  apart now now' p q hp hq := by
    obtain ⟨j, rfl, -, -⟩ := billingPeriod_steps hanchor hp
    obtain ⟨k, rfl, -, -⟩ := billingPeriod_steps hanchor hq
    obtain hlt | rfl | hlt := lt_trichotomy j k
    · exact .inr (.inl (stepMonths_le hlt))
    · exact .inl rfl
    · exact .inr (.inr (stepMonths_le hlt))
  adjacent now p q hp hq := by
    obtain ⟨j, rfl, -, -⟩ := billingPeriod_steps hanchor hp
    obtain ⟨k, rfl, hafter, hmonth⟩ := billingPeriod_steps hanchor hq
    -- The second period ends after the first one, so there is room for a period in between.
    have hlater : j + 1 ≤ k := by
      by_contra hnot
      exact stepMonths_le (show k + 1 ≤ j + 1 by omega) hafter
    have hnext : anchor.stepMonths (j + 1) < anchor.stepMonths (j + 1 + 1) := by
      refine DateTime.lt_of_month ?_
      rw [DateTime.stepMonths_month, DateTime.stepMonths_month]
      omega
    have hperiod : billingPeriodFromAnchor library anchorTimestamp (anchor.stepMonths (j + 1)) =
        some (anchor.stepMonths (j + 1), anchor.stepMonths (j + 1 + 1)) := by
      rw [billingPeriod_eq hanchor (by omega)]
      exact advancePeriod_around (Nat.zero_le _) (DateTime.le_refl _) hnext (by push_cast; omega)
    rw [hperiod] at hq
    exact (congrArg Prod.fst (Option.some.inj hq)).symm
  day now p hday hp hlong := by
    obtain ⟨k, hperiod, -, -⟩ := hday
    rw [hp] at hperiod
    obtain rfl := Option.some.inj hperiod
    exact min_eq_left hlong

/-- The periods tile the time at the anchor's day, exactly where no earlier month has moved
them. -/
theorem billingPeriod_onAnchorDay
    (hanchor : library.fromTimestamp anchorTimestamp = some anchor) :
    (∀ now, anchor ≤ now →
      (OnAnchorDay library anchorTimestamp anchor now ↔ ShortMonthsAfter library anchor now)) ∧
    Tile library anchorTimestamp anchor :=
  ⟨fun _ _ => onAnchorDay_iff hanchor, tile hanchor⟩

end Periods

theorem january31_valid : 1 ≤ 31 ∧ 31 ≤ monthLength 24312 := by decide

theorem march30_valid : 1 ≤ 30 ∧ 30 ≤ monthLength 24314 := by decide

/-- 2026-01-31T12:00:00Z. -/
def january31 : DateTime := ⟨24312, 31, 43200000000000, january31_valid.1, january31_valid.2⟩

/-- 2026-03-30T12:00:00Z. -/
def march30 : DateTime := ⟨24314, 30, 43200000000000, march30_valid.1, march30_valid.2⟩

/-- A library that knows the date of one timestamp. -/
def exampleLibrary : DateLibrary where
  fromTimestamp timestamp := if timestamp = 1769860800 then some january31 else none
  lastMonth := 262142 * 12 + 11

theorem billingPeriod_january : OnAnchorDay exampleLibrary 1769860800 january31 january31 := by
  have hfirst : january31.Unclamped 0 := fun j hpos hle => absurd hpos (by omega)
  have hsecond : january31.Unclamped 1 := by
    intro j hpos hle
    obtain rfl : j = 1 := by omega
    decide
  exact ((billingPeriod_onAnchorDay rfl).1 january31 (by decide)).mpr
    ⟨0, by decide, by decide, hfirst, hsecond, by decide⟩

/-- After February an anchor on the 31st has its periods on the 28th. -/
theorem billingPeriod_drifts :
    billingPeriodFromAnchor exampleLibrary 1769860800 march30 =
      some (january31.stepMonths 2, january31.stepMonths 3) ∧
    (january31.stepMonths 2).day = 28 ∧
    ¬ OnAnchorDay exampleLibrary 1769860800 january31 march30 := by
  have hperiod : billingPeriodFromAnchor exampleLibrary 1769860800 march30 =
      some (january31.stepMonths 2, january31.stepMonths 3) := by
    rw [@billingPeriod_eq exampleLibrary 1769860800 january31 march30 rfl (by decide)]
    exact advancePeriod_around (by omega) (by decide) (by decide) (by decide)
  refine ⟨hperiod, by decide, ?_⟩
  rintro ⟨k, hsame, -, -⟩
  rw [hperiod] at hsame
  have hfirst := congrArg Prod.fst (Option.some.inj hsame)
  have hmonths := congrArg DateTime.month hfirst
  have hdays := congrArg DateTime.day hfirst
  simp only [DateTime.stepMonths_month, DateTime.addMonths_month] at hmonths
  obtain rfl : k = 2 := by omega
  revert hdays
  decide

end Lightfriend.Billing
