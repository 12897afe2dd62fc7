import Mathlib.Data.Nat.Cast.Basic
import Mathlib.Data.Nat.Basic
import Mathlib.Order.Lattice
import Mathlib.Data.Int.Order.Basic
import Mathlib.Tactic.Common

/-! # The calendar

Months are counted through from January of year 0. A date is a month and a day
of it; adding months keeps the day as far as the month is long enough.
-/

namespace Lightfriend

/-! ## Dates -/

def isLeapYear (year : Int) : Bool := year % 4 = 0 ∧ (year % 100 ≠ 0 ∨ year % 400 = 0)

/-- The days of a month. -/
def monthLength (month : Int) : Nat :=
  if month % 12 = 1 then (if isLeapYear (month / 12) then 29 else 28)
  else if month % 12 = 3 ∨ month % 12 = 5 ∨ month % 12 = 8 ∨ month % 12 = 10 then 30
  else 31

theorem monthLength_ge (month : Int) : 28 ≤ monthLength month := by
  unfold monthLength
  split
  next => split <;> omega
  next => split <;> omega

/-- A time of a day of the calendar, in nanoseconds. -/
structure DateTime where
  month : Int
  day : Nat
  nanos : Nat
  day_pos : 1 ≤ day
  day_le : day ≤ monthLength month
deriving DecidableEq

namespace DateTime

variable {a b c d : DateTime}

theorem ext_fields (hmonth : a.month = b.month) (hday : a.day = b.day)
    (hnanos : a.nanos = b.nanos) : a = b := by
  cases a
  cases b
  simp only at hmonth hday hnanos
  subst hmonth hday hnanos
  rfl

/-! ## Order -/

/-- The order of time: the month, then the day, then the time of the day. -/
instance : LT DateTime where
  lt a b := a.month < b.month ∨
    a.month = b.month ∧ (a.day < b.day ∨ a.day = b.day ∧ a.nanos < b.nanos)

theorem lt_def : a < b ↔ a.month < b.month ∨
    a.month = b.month ∧ (a.day < b.day ∨ a.day = b.day ∧ a.nanos < b.nanos) := Iff.rfl

instance : LE DateTime where
  le a b := ¬ b < a

theorem le_def : a ≤ b ↔ ¬ b < a := Iff.rfl

instance (a b : DateTime) : Decidable (a < b) :=
  inferInstanceAs (Decidable (a.month < b.month ∨
    a.month = b.month ∧ (a.day < b.day ∨ a.day = b.day ∧ a.nanos < b.nanos)))

instance (a b : DateTime) : Decidable (a ≤ b) := inferInstanceAs (Decidable (¬ b < a))

theorem month_le (h : a ≤ b) : a.month ≤ b.month := by
  rw [le_def, lt_def] at h
  omega

theorem le_trans (hab : a ≤ b) (hbc : b ≤ c) : a ≤ c := by
  rw [le_def, lt_def] at *
  omega

theorem lt_of_month (h : a.month < b.month) : a < b := .inl h

theorem le_of_month (h : a.month < b.month) : a ≤ b := by
  rw [le_def, lt_def]
  omega

theorem le_refl (a : DateTime) : a ≤ a := by
  rw [le_def, lt_def]
  omega

/-! ## Months later -/

/-- The same day `months` later, or the last day of a month that is too short for it. -/
def addMonths (a : DateTime) (months : Nat) : DateTime where
  month := a.month + months
  day := min a.day (monthLength (a.month + months))
  nanos := a.nanos
  day_pos := le_min a.day_pos (Nat.le_trans (by decide) (monthLength_ge _))
  day_le := min_le_right _ _

@[simp] theorem addMonths_month (a : DateTime) (months : Nat) :
    (a.addMonths months).month = a.month + months := rfl

@[simp] theorem addMonths_day (a : DateTime) (months : Nat) :
    (a.addMonths months).day = min a.day (monthLength (a.month + months)) := rfl

@[simp] theorem addMonths_nanos (a : DateTime) (months : Nat) :
    (a.addMonths months).nanos = a.nanos := rfl

/-- Months are added one after the other, each to the date the last one gave. -/
def stepMonths (a : DateTime) : Nat → DateTime
  | 0 => a
  | k + 1 => (a.stepMonths k).addMonths 1

@[simp] theorem stepMonths_month (a : DateTime) (k : Nat) :
    (a.stepMonths k).month = a.month + k := by
  induction k with
  | zero => simp [stepMonths]
  | succ k ih =>
      rw [stepMonths, addMonths_month, ih]
      push_cast
      omega

theorem stepMonths_nanos (a : DateTime) (k : Nat) : (a.stepMonths k).nanos = a.nanos := by
  induction k with
  | zero => rfl
  | succ k ih => rw [stepMonths, addMonths_nanos, ih]

/-- Every month on the way takes what it has not of the day. -/
theorem le_stepMonths_day (a : DateTime) (k n : Nat) :
    n ≤ (a.stepMonths k).day ↔
      n ≤ a.day ∧ ∀ j, 1 ≤ j → j ≤ k → n ≤ monthLength (a.month + j) := by
  induction k with
  | zero =>
      refine ⟨fun h => ⟨h, fun j hpos hle => by omega⟩, fun h => h.1⟩
  | succ k ih =>
      have hmonth : (a.stepMonths k).month + ((1 : Nat) : Int) =
          a.month + ((k + 1 : Nat) : Int) := by
        rw [stepMonths_month]
        push_cast
        omega
      rw [stepMonths, addMonths_day, hmonth, Nat.le_min, ih]
      constructor
      · rintro ⟨⟨hday, hall⟩, hlast⟩
        refine ⟨hday, fun j hpos hle => ?_⟩
        obtain hlt | rfl : j ≤ k ∨ j = k + 1 := by omega
        · exact hall j hpos hlt
        · exact hlast
      · rintro ⟨hday, hall⟩
        exact ⟨⟨hday, fun j hpos hle => hall j hpos (by omega)⟩, hall (k + 1) (by omega) le_rfl⟩

/-- No month on the way to the `k`th was too short for the day that the `k`th has room for. -/
def Unclamped (a : DateTime) (k : Nat) : Prop :=
  ∀ j, 1 ≤ j → j ≤ k → min a.day (monthLength (a.month + k)) ≤ monthLength (a.month + j)

theorem stepMonths_eq_iff (a : DateTime) (k : Nat) :
    a.stepMonths k = a.addMonths k ↔ a.Unclamped k := by
  have hle : (a.stepMonths k).day ≤ min a.day (monthLength (a.month + k)) := by
    have hself := (le_stepMonths_day a k _).mp le_rfl
    refine le_min hself.1 ?_
    have hvalid := (a.stepMonths k).day_le
    rwa [stepMonths_month] at hvalid
  constructor
  · intro h
    have hday := congrArg DateTime.day h
    rw [addMonths_day] at hday
    exact ((le_stepMonths_day a k _).mp hday.ge).2
  · intro h
    refine ext_fields (stepMonths_month a k) (Nat.le_antisymm hle ?_) (stepMonths_nanos a k)
    exact (le_stepMonths_day a k _).mpr ⟨min_le_left _ _, h⟩

end DateTime

end Lightfriend
