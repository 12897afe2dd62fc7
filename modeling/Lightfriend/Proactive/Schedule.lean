import Lightfriend.Core.Database
import Lightfriend.Core.Machine
import Lightfriend.Core.Transition

/-! # Recurring schedules

The next time of a recurring rule is computed in the local time of the user and
turned back into an instant by the earliest one with that local time. A local
time may be skipped or repeated where the offset of the zone changes. Instants
and local times are in seconds; a fraction of the current second changes none of
the comparisons, all of which are with whole seconds.
-/

namespace Lightfriend.Proactive

/-! ## Zones -/

/-- A zone of the time zone database, with what the library says of its functions. -/
structure Zone where
  /-- The offset from UTC at an instant. -/
  offset : Int → Int
  /-- `and_local_timezone(..).earliest()`. -/
  earliest : Int → Option Int
  bounded : ∀ t, -86400 < offset t ∧ offset t < 86400
  earliest_eq_some_iff : ∀ l t, earliest l = some t ↔
    t + offset t = l ∧ ∀ u, u + offset u = l → t ≤ u
  earliest_eq_none_iff : ∀ l, earliest l = none ↔ ∀ u, u + offset u ≠ l

namespace Zone

def localTime (z : Zone) (t : Int) : Int := t + z.offset t

def utc : Zone where
  offset _ := 0
  earliest l := some l
  bounded _ := ⟨by decide, by decide⟩
  earliest_eq_some_iff l t := by
    rw [Option.some.injEq]
    constructor
    · rintro rfl
      exact ⟨Int.add_zero l, fun u hu => le_of_eq (by omega)⟩
    · rintro ⟨ht, _⟩
      omega
  earliest_eq_none_iff l := by
    refine iff_of_false (by simp) (fun h => h l (Int.add_zero l))

end Zone

/-! ## Local dates -/

def dayOf (l : Int) : Int := l / 86400

/-- `num_days_from_monday`; the first day of the epoch was a Thursday. -/
def weekday (day : Int) : Int := (day + 3) % 7

/-- `and_hms_opt(hour, minute, 0)`. -/
def andHms (day : Int) (hour minute : Nat) : Option Int :=
  if hour < 24 ∧ minute < 60 then some (day * 86400 + hour * 3600 + minute * 60) else none

/-- `as i32`. -/
def asI32 (t : Int) : Int := (t + 2147483648) % 4294967296 - 2147483648

/-! ## The schedule string -/

/-- `splitn(2, ' ')`. -/
def splitSpace (s : List Char) : List Char × Option (List Char) :=
  (s.takeWhile (· ≠ ' '), if ' ' ∈ s then some ((s.dropWhile (· ≠ ' ')).tail) else none)

/-- `parse::<u32>()`. -/
def parseU32 (s : List Char) : Option Nat :=
  let digits := if s.head? = some '+' then s.tail else s
  let value := digits.foldl (fun n c => n * 10 + (c.toNat - '0'.toNat)) 0
  if digits ≠ [] ∧ digits.all Char.isDigit ∧ value < 4294967296 then some value else none

def parseHhmm (s : List Char) : Option (Nat × Nat) :=
  match s.splitOn ':' with
  | hour :: minute :: _ => do
      let hour ← parseU32 hour
      let minute ← parseU32 minute
      some (hour, minute)
  | _ => none

def weekdayOfName (name : String) : Option Int :=
  if name = "monday" ∨ name = "mon" then some 0
  else if name = "tuesday" ∨ name = "tue" then some 1
  else if name = "wednesday" ∨ name = "wed" then some 2
  else if name = "thursday" ∨ name = "thu" then some 3
  else if name = "friday" ∨ name = "fri" then some 4
  else if name = "saturday" ∨ name = "sat" then some 5
  else if name = "sunday" ∨ name = "sun" then some 6
  else none

/-! ## The next time -/

section Compute

variable (z : Zone) (now : Int)

/-- The first of the next days that fits. -/
def firstDay (fits : Int → Bool) : Nat → Int → Option Int
  | 0, _ => none
  | days + 1, day => if fits day then some day else firstDay fits days (day + 1)

/-- Back from local time. -/
def fireAt (l : Int) : Option Int := (z.earliest l).map asI32

def nextDaily (hour minute : Nat) : Option Int := do
  let today ← andHms (dayOf (z.localTime now)) hour minute
  if z.localTime now < today then fireAt z today
  else fireAt z (← andHms (dayOf (z.localTime now) + 1) hour minute)

/-- Today if its time is still to come, or the next day that is not in the weekend. -/
def nextWeekday (hour minute : Nat) : Option Int :=
  match andHms (dayOf (z.localTime now)) hour minute with
  | none => do
      let day ← firstDay (fun day => weekday day < 5) 7 (dayOf (z.localTime now) + 1)
      fireAt z (← andHms day hour minute)
  | some today =>
      if z.localTime now < today ∧ weekday (dayOf (z.localTime now)) < 5 then fireAt z today
      else do
        let day ← firstDay (fun day => weekday day < 5) 7 (dayOf (z.localTime now) + 1)
        fireAt z (← andHms day hour minute)

def nextWeekly (target : Int) (hour minute : Nat) : Option Int :=
  if hour < 24 ∧ minute < 60 then do
    let day ← firstDay (fun day => weekday day = target &&
      (andHms day hour minute).any (z.localTime now < ·)) 8 (dayOf (z.localTime now))
    fireAt z (← andHms day hour minute)
  else none

variable (zones : String → Option Zone)

def computeNextFireAt (pattern userTz : String) : Option Int :=
  let tz := (zones userTz).getD Zone.utc
  match splitSpace pattern.toList with
  | (frequency, rest) =>
      if frequency = "hourly".toList then some (asI32 (now + 3600))
      else if frequency = "daily".toList then do
        let (hour, minute) ← parseHhmm (← rest)
        nextDaily tz now hour minute
      else if frequency = "weekdays".toList then do
        let (hour, minute) ← parseHhmm (← rest)
        nextWeekday tz now hour minute
      else if frequency = "weekly".toList then do
        let (name, time) := splitSpace (← rest)
        let (hour, minute) ← parseHhmm (← time)
        let target ← weekdayOfName (String.ofList (name.map Char.toLower))
        nextWeekly tz now target hour minute
      else none

end Compute

/-! ## What a schedule asks for -/

/-- The days of a schedule and its time of day. -/
structure Schedule where
  days : Int → Bool
  hour : Nat
  minute : Nat
  hour_lt : hour < 24
  minute_lt : minute < 60
  /-- Some day of every week is a day of the schedule. -/
  some_day : ∃ target, 0 ≤ target ∧ target < 7 ∧ days target = true

namespace Schedule

def daily (hour minute : Nat) (hh : hour < 24) (hm : minute < 60) : Schedule :=
  ⟨fun _ => true, hour, minute, hh, hm, 0, by decide⟩

def weekdays (hour minute : Nat) (hh : hour < 24) (hm : minute < 60) : Schedule :=
  ⟨(· < 5), hour, minute, hh, hm, 0, by decide⟩

theorem weekly_some_day {name : String} {target : Int} (h : weekdayOfName name = some target) :
    0 ≤ target ∧ target < 7 := by
  unfold weekdayOfName at h
  split at h <;> try (cases h; omega)
  grind

def weekly (target : Int) (hour minute : Nat) (ht : 0 ≤ target ∧ target < 7) (hh : hour < 24)
    (hm : minute < 60) : Schedule :=
  ⟨(· = target), hour, minute, hh, hm, target, ht.1, ht.2, by simp⟩

variable (sch : Schedule)

/-- The time of the schedule on a day. -/
def on (day : Int) : Int := day * 86400 + sch.hour * 3600 + sch.minute * 60

/-- The day is one of the schedule. -/
def fits (day : Int) : Bool := sch.days (weekday day)

/-- A local time the schedule asks for. -/
def Scheduled (l : Int) : Prop := sch.fits (dayOf l) = true ∧ l = sch.on (dayOf l)

/-- The first local time the schedule asks for after another. -/
def FirstAfter (n l : Int) : Prop :=
  sch.Scheduled l ∧ n < l ∧ ∀ l', sch.Scheduled l' → n < l' → l ≤ l'

end Schedule

/-- The schedule strings with a valid time and weekday. -/
inductive Denotes : String → Schedule → Prop
  | daily {pattern text hour minute} (hp : pattern.toList = "daily ".toList ++ text)
      (ht : parseHhmm text = some (hour, minute)) (hh : hour < 24) (hm : minute < 60) :
      Denotes pattern (.daily hour minute hh hm)
  | weekdays {pattern text hour minute} (hp : pattern.toList = "weekdays ".toList ++ text)
      (ht : parseHhmm text = some (hour, minute)) (hh : hour < 24) (hm : minute < 60) :
      Denotes pattern (.weekdays hour minute hh hm)
  | weekly {pattern name text hour minute target}
      (hp : pattern.toList = "weekly ".toList ++ name ++ ' ' :: text) (hs : ' ' ∉ name)
      (hn : weekdayOfName (String.ofList (name.map Char.toLower)) = some target)
      (ht : parseHhmm text = some (hour, minute)) (hh : hour < 24) (hm : minute < 60) :
      Denotes pattern (.weekly target hour minute (Schedule.weekly_some_day hn) hh hm)

/-- Two digits each for the hour and the minute. -/
def hhmm (hour minute : Nat) : List Char :=
  [Char.ofNat (48 + hour / 10), Char.ofNat (48 + hour % 10), ':',
    Char.ofNat (48 + minute / 10), Char.ofNat (48 + minute % 10)]

theorem parseHhmm_hhmm : ∀ hour < 24, ∀ minute < 60,
    parseHhmm (hhmm hour minute) = some (hour, minute) := by
  decide +kernel

/-! ## The local time that is looked for -/

theorem andHms_eq {day : Int} {hour minute : Nat} (hh : hour < 24) (hm : minute < 60) :
    andHms day hour minute = some (day * 86400 + hour * 3600 + minute * 60) := by
  unfold andHms
  rw [if_pos ⟨hh, hm⟩]

theorem firstDay_spec (fits : Int → Bool) (days : Nat) (day : Int)
    (h : ∃ d, day ≤ d ∧ d < day + days ∧ fits d = true) :
    ∃ d, firstDay fits days day = some d ∧ day ≤ d ∧ fits d = true ∧
      ∀ e, day ≤ e → e < d → fits e = false := by
  induction days generalizing day with
  | zero =>
      obtain ⟨d, hle, hlt, _⟩ := h
      omega
  | succ days ih =>
      by_cases hf : fits day = true
      · have hfirst : firstDay fits (days + 1) day = some day := by simp [firstDay, hf]
        exact ⟨day, hfirst, le_refl day, hf, fun e hle hlt => by omega⟩
      · obtain ⟨d, hle, hlt, hd⟩ := h
        have hne : d ≠ day := by
          intro he
          rw [he] at hd
          exact hf hd
        obtain ⟨d', hfirst, hle', hd', hmin⟩ :=
          ih (day + 1) ⟨d, by omega, by push_cast at hlt; omega, hd⟩
        have hfirst' : firstDay fits (days + 1) day = some d' := by
          simp [firstDay, hf, hfirst]
        refine ⟨d', hfirst', by omega, hd', fun e hle hlt => ?_⟩
        by_cases he : e = day
        · rw [he]
          simpa using hf
        · exact hmin e (by omega) hlt

/-- Every weekday comes in any seven days. -/
theorem exists_weekday (day target : Int) (h0 : 0 ≤ target) (h7 : target < 7) :
    ∃ d, day ≤ d ∧ d < day + 7 ∧ weekday d = target := by
  refine ⟨day + (target - weekday day) % 7, ?_, ?_, ?_⟩
  all_goals unfold weekday; omega

namespace Schedule

variable {sch : Schedule}

theorem on_bounds (sch : Schedule) (day : Int) :
    day * 86400 ≤ sch.on day ∧ sch.on day < (day + 1) * 86400 := by
  have hh := sch.hour_lt
  have hm := sch.minute_lt
  unfold on
  omega

theorem dayOf_on (sch : Schedule) (day : Int) : dayOf (sch.on day) = day := by
  have h := sch.on_bounds day
  unfold dayOf
  omega

theorem scheduled_on {day : Int} (h : sch.fits day = true) : sch.Scheduled (sch.on day) := by
  unfold Scheduled
  rw [sch.dayOf_on day]
  exact ⟨h, rfl⟩

theorem on_mono (sch : Schedule) {day day' : Int} (h : day ≤ day') : sch.on day ≤ sch.on day' := by
  unfold on
  omega

/-- The first fitting day whose time is still to come. -/
theorem firstAfter_on {n day : Int} (hfits : sch.fits day = true) (hlt : n < sch.on day)
    (hmin : ∀ e, dayOf n ≤ e → e < day → sch.fits e = true → sch.on e ≤ n) :
    sch.FirstAfter n (sch.on day) := by
  refine ⟨scheduled_on hfits, hlt, fun l hl hnl => ?_⟩
  by_contra hlt'
  have hday : dayOf l < day := by
    have hle : dayOf l ≤ day ∨ day ≤ dayOf l := le_total _ _
    by_contra hge
    have hmono := on_mono sch (show day ≤ dayOf l by omega)
    rw [← hl.2] at hmono
    omega
  have hge : dayOf n ≤ dayOf l := by
    unfold dayOf
    omega
  have hpast := hmin (dayOf l) hge hday hl.1
  rw [← hl.2] at hpast
  omega

theorem exists_scheduled_after (sch : Schedule) (n : Int) :
    ∃ l, sch.Scheduled l ∧ n < l ∧ l < n + 777600 := by
  obtain ⟨target, h0, h7, htarget⟩ := sch.some_day
  obtain ⟨day, hle, hlt, hday⟩ := exists_weekday (dayOf n + 1) target h0 h7
  have hfits : sch.fits day = true := by
    unfold Schedule.fits
    rw [hday]
    exact htarget
  have hon := sch.on_bounds day
  have hn : dayOf n * 86400 ≤ n ∧ n < (dayOf n + 1) * 86400 := by
    unfold dayOf
    omega
  exact ⟨sch.on day, scheduled_on hfits, by omega, by omega⟩

theorem FirstAfter.unique {n l l' : Int} (h : sch.FirstAfter n l) (h' : sch.FirstAfter n l') :
    l = l' := by
  have hle := h.2.2 l' h'.1 h'.2.1
  have hge := h'.2.2 l h.1 h.2.1
  omega

end Schedule

theorem nextDaily_eq (z : Zone) (now : Int) {hour minute : Nat} (hh : hour < 24)
    (hm : minute < 60) :
    ∃ l, (Schedule.daily hour minute hh hm).FirstAfter (z.localTime now) l ∧
      nextDaily z now hour minute = fireAt z l := by
  have hon : ∀ day, andHms day hour minute =
      some ((Schedule.daily hour minute hh hm).on day) := fun day => andHms_eq hh hm
  have hday : dayOf (z.localTime now) * 86400 ≤ z.localTime now := by
    unfold dayOf
    omega
  have hlast : z.localTime now < (dayOf (z.localTime now) + 1) * 86400 := by
    unfold dayOf
    omega
  unfold nextDaily
  simp only [hon, Option.bind_eq_bind, Option.bind_some]
  by_cases hlt : z.localTime now < (Schedule.daily hour minute hh hm).on (dayOf (z.localTime now))
  · rw [if_pos hlt]
    exact ⟨_, Schedule.firstAfter_on rfl hlt (fun e hle hlt' => by omega), rfl⟩
  · rw [if_neg hlt]
    have hnext := (Schedule.daily hour minute hh hm).on_bounds (dayOf (z.localTime now) + 1)
    refine ⟨_, Schedule.firstAfter_on rfl (by omega) (fun e hle hlt' _ => ?_), rfl⟩
    have he : e = dayOf (z.localTime now) := by omega
    rw [he]
    omega

theorem nextWeekday_eq (z : Zone) (now : Int) {hour minute : Nat} (hh : hour < 24)
    (hm : minute < 60) :
    ∃ l, (Schedule.weekdays hour minute hh hm).FirstAfter (z.localTime now) l ∧
      nextWeekday z now hour minute = fireAt z l := by
  have hon : ∀ day, andHms day hour minute =
      some ((Schedule.weekdays hour minute hh hm).on day) := fun day => andHms_eq hh hm
  have hlast : z.localTime now < (dayOf (z.localTime now) + 1) * 86400 := by
    unfold dayOf
    omega
  unfold nextWeekday
  simp only [hon, Option.bind_eq_bind, Option.bind_some]
  by_cases htoday : z.localTime now <
      (Schedule.weekdays hour minute hh hm).on (dayOf (z.localTime now)) ∧
      weekday (dayOf (z.localTime now)) < 5
  · rw [if_pos htoday]
    have hfits : (Schedule.weekdays hour minute hh hm).fits (dayOf (z.localTime now)) = true :=
      decide_eq_true htoday.2
    exact ⟨_, Schedule.firstAfter_on hfits htoday.1 (fun e hle hlt' => by omega), rfl⟩
  · rw [if_neg htoday]
    obtain ⟨d, hle, hlt, hd⟩ :=
      exists_weekday (dayOf (z.localTime now) + 1) 0 (by decide) (by decide)
    obtain ⟨day, hfirst, hge, hfits, hmin⟩ :=
      firstDay_spec (fun day => decide (weekday day < 5)) 7 (dayOf (z.localTime now) + 1)
        ⟨d, hle, hlt, by simp [hd]⟩
    rw [hfirst]
    have hnext := (Schedule.weekdays hour minute hh hm).on_bounds day
    refine ⟨_, Schedule.firstAfter_on hfits (by omega) (fun e hle hlt' he => ?_), rfl⟩
    by_cases htod : e = dayOf (z.localTime now)
    · have hwd : weekday (dayOf (z.localTime now)) < 5 := by
        rw [← htod]
        exact of_decide_eq_true he
      rw [htod]
      by_contra hgt
      exact htoday ⟨by omega, hwd⟩
    · have hno := hmin e (by omega) hlt'
      rw [show decide (weekday e < 5) = true from he] at hno
      cases hno

theorem nextWeekly_eq (z : Zone) (now : Int) {target : Int} {hour minute : Nat}
    (ht : 0 ≤ target ∧ target < 7) (hh : hour < 24) (hm : minute < 60) :
    ∃ l, (Schedule.weekly target hour minute ht hh hm).FirstAfter (z.localTime now) l ∧
      nextWeekly z now target hour minute = fireAt z l := by
  have hon : ∀ day, andHms day hour minute =
      some ((Schedule.weekly target hour minute ht hh hm).on day) := fun day => andHms_eq hh hm
  have hlast : z.localTime now < (dayOf (z.localTime now) + 1) * 86400 := by
    unfold dayOf
    omega
  unfold nextWeekly
  rw [if_pos ⟨hh, hm⟩]
  simp only [hon, Option.bind_eq_bind, Option.bind_some, Option.any_some]
  obtain ⟨d, hle, hlt, hd⟩ := exists_weekday (dayOf (z.localTime now) + 1) target ht.1 ht.2
  have hlate := (Schedule.weekly target hour minute ht hh hm).on_bounds d
  have hmem : (decide (weekday d = target) &&
      decide (z.localTime now < (Schedule.weekly target hour minute ht hh hm).on d)) = true := by
    rw [Bool.and_eq_true, decide_eq_true_eq, decide_eq_true_eq]
    exact ⟨hd, by omega⟩
  obtain ⟨day, hfirst, hge, hfits, hmin⟩ :=
    firstDay_spec (fun day => decide (weekday day = target) &&
      decide (z.localTime now < (Schedule.weekly target hour minute ht hh hm).on day))
      8 (dayOf (z.localTime now)) ⟨d, by omega, by omega, hmem⟩
  rw [hfirst]
  rw [Bool.and_eq_true, decide_eq_true_eq, decide_eq_true_eq] at hfits
  refine ⟨_, Schedule.firstAfter_on (decide_eq_true hfits.1) hfits.2
    (fun e hle hlt' he => ?_), rfl⟩
  have hno := hmin e hle hlt'
  rw [Bool.and_eq_false_iff, decide_eq_false_iff_not, decide_eq_false_iff_not] at hno
  have hwd : weekday e = target := of_decide_eq_true he
  omega

theorem splitSpace_append (word rest : List Char) (h : ' ' ∉ word) :
    splitSpace (word ++ ' ' :: rest) = (word, some rest) := by
  have hall : ∀ c ∈ word, decide (c ≠ ' ') = true := by
    intro c hc
    exact decide_eq_true (fun he => h (he ▸ hc))
  have htake : (word ++ ' ' :: rest).takeWhile (fun c => decide (c ≠ ' ')) = word := by
    rw [List.takeWhile_append_of_pos hall]
    simp
  have hdrop : (word ++ ' ' :: rest).dropWhile (fun c => decide (c ≠ ' ')) = ' ' :: rest := by
    rw [List.dropWhile_append_of_pos hall]
    simp
  unfold splitSpace
  rw [htake, hdrop, if_pos (by simp)]
  rfl

/-- The value is the earliest instant of the first local time that the schedule asks for. -/
theorem computeNextFireAt_eq {zones : String → Option Zone} {userTz : String} {z : Zone}
    {pattern : String} {sch : Schedule} (hz : zones userTz = some z) (hp : Denotes pattern sch)
    (now : Int) :
    ∃ l, sch.FirstAfter (z.localTime now) l ∧
      computeNextFireAt now zones pattern userTz = fireAt z l := by
  unfold computeNextFireAt
  rw [hz]
  cases hp with
  | @daily text hour minute hp ht hh hm =>
      rw [hp, show "daily ".toList ++ text = "daily".toList ++ ' ' :: text from rfl,
        splitSpace_append _ _ (by decide)]
      obtain ⟨l, hl, heq⟩ := nextDaily_eq z now hh hm
      refine ⟨l, hl, ?_⟩
      rw [← heq]
      simp [ht]
  | @weekdays text hour minute hp ht hh hm =>
      rw [hp, show "weekdays ".toList ++ text = "weekdays".toList ++ ' ' :: text from rfl,
        splitSpace_append _ _ (by decide)]
      obtain ⟨l, hl, heq⟩ := nextWeekday_eq z now hh hm
      refine ⟨l, hl, ?_⟩
      rw [← heq]
      simp [ht]
  | @weekly name text hour minute target hp hs hn ht hh hm =>
      rw [hp, show "weekly ".toList ++ name ++ ' ' :: text =
        "weekly".toList ++ ' ' :: (name ++ ' ' :: text) from by simp,
        splitSpace_append _ _ (by decide)]
      obtain ⟨l, hl, heq⟩ := nextWeekly_eq z now (Schedule.weekly_some_day hn) hh hm
      refine ⟨l, hl, ?_⟩
      rw [← heq]
      simp [ht, hn, splitSpace_append _ _ hs]

/-! ## The instants of a schedule -/

namespace Zone

variable (z : Zone)

/-- The clock shows a local time, or passes over one that is skipped. -/
def Reaches (l t : Int) : Prop :=
  z.localTime t = l ∨
    (∀ u, z.localTime u ≠ l) ∧ z.localTime (t - 1) < l ∧ l < z.localTime t

/-- An instant of the schedule. -/
def Occurs (sch : Schedule) (t : Int) : Prop := ∃ l, sch.Scheduled l ∧ z.Reaches l t

/-- The earliest instant of the schedule after now. -/
def NextOccurrence (sch : Schedule) (now v : Int) : Prop :=
  z.Occurs sch v ∧ now < v ∧ ∀ o, z.Occurs sch o → now < o → v ≤ o

/-- The first scheduled local time after the one of now is not skipped, was not shown before,
is the first scheduled one that the clock comes to, and does so before the year 2038. -/
def Regular (sch : Schedule) (now : Int) : Prop :=
  ∃ l, sch.FirstAfter (z.localTime now) l ∧
    (∃ t, z.localTime t = l) ∧
    (∀ t, z.localTime t = l → now < t) ∧
    (∀ o, z.Occurs sch o → now < o → ∃ t, z.localTime t = l ∧ t ≤ o) ∧
    ∀ t, z.earliest l = some t → -2147483648 ≤ t ∧ t < 2147483648

variable {z} {sch : Schedule}

theorem localTime_bounds (z : Zone) (t : Int) :
    t - 86400 < z.localTime t ∧ z.localTime t < t + 86400 := by
  have h := z.bounded t
  unfold localTime
  omega

/-- A clock that is before a local time and later not before it comes to it in between. -/
theorem exists_crossing (l a : Int) (n : Nat) (hbefore : z.localTime a < l)
    (hafter : l ≤ z.localTime (a + n)) :
    ∃ t, a < t ∧ t ≤ a + n ∧ z.localTime (t - 1) < l ∧ l ≤ z.localTime t := by
  induction n with
  | zero =>
      rw [show a + ((0 : Nat) : Int) = a by omega] at hafter
      omega
  | succ n ih =>
      by_cases hn : l ≤ z.localTime (a + n)
      · obtain ⟨t, hlt, hle, hcross⟩ := ih hn
        exact ⟨t, hlt, by omega, hcross⟩
      · refine ⟨a + (n + 1 : Nat), by omega, by omega, ?_, hafter⟩
        rw [show a + ((n + 1 : Nat) : Int) - 1 = a + n by omega]
        omega

/-- The instants of a schedule never end. -/
theorem exists_occurs_after (z : Zone) (sch : Schedule) (now : Int) :
    ∃ o, z.Occurs sch o ∧ now < o ∧ o ≤ now + 1382400 := by
  obtain ⟨l, hsched, hlo, hhi⟩ := sch.exists_scheduled_after (now + 259200)
  by_cases hshown : ∃ u, z.localTime u = l
  · obtain ⟨u, hu⟩ := hshown
    have hbounds := z.localTime_bounds u
    exact ⟨u, ⟨l, hsched, Or.inl hu⟩, by omega, by omega⟩
  · have hskip : ∀ u, z.localTime u ≠ l := fun u hu => hshown ⟨u, hu⟩
    have hstart := z.localTime_bounds now
    have hend := z.localTime_bounds (now + (1382400 : Nat))
    obtain ⟨t, hlt, hle, hbefore, hafter⟩ :=
      exists_crossing (z := z) l now 1382400 (by omega) (by omega)
    have hne := hskip t
    exact ⟨t, ⟨l, hsched, Or.inr ⟨hskip, hbefore, by omega⟩⟩, hlt, by omega⟩

theorem earliest_spec {l t : Int} (h : z.earliest l = some t) :
    z.localTime t = l ∧ ∀ u, z.localTime u = l → t ≤ u :=
  (z.earliest_eq_some_iff l t).mp h

theorem earliest_isSome {l t : Int} (h : z.localTime t = l) : ∃ e, z.earliest l = some e := by
  cases he : z.earliest l with
  | none => exact absurd h ((z.earliest_eq_none_iff l).mp he t)
  | some e => exact ⟨e, rfl⟩

end Zone

theorem asI32_eq_self {t : Int} : asI32 t = t ↔ -2147483648 ≤ t ∧ t < 2147483648 := by
  unfold asI32
  omega

theorem asI32_eq_add (t : Int) : ∃ k, asI32 t = t + 4294967296 * k := by
  refine ⟨-((t + 2147483648) / 4294967296), ?_⟩
  unfold asI32
  omega

section Correct

variable {z : Zone} {sch : Schedule} {now l : Int}

/-- The computed instant is the next one of the schedule. -/
theorem nextOccurrence_of_regular (hl : sch.FirstAfter (z.localTime now) l)
    (hregular : z.Regular sch now) :
    ∃ v, fireAt z l = some v ∧ z.NextOccurrence sch now v := by
  obtain ⟨l', hl', ⟨t, ht⟩, hlater, hfirst, hfits⟩ := hregular
  have hll : l' = l := hl'.unique hl
  rw [hll] at ht hlater hfirst hfits
  obtain ⟨e, he⟩ := Zone.earliest_isSome ht
  obtain ⟨hshow, hmin⟩ := Zone.earliest_spec he
  have hfire : fireAt z l = some e := by
    unfold fireAt
    rw [he, Option.map_some, asI32_eq_self.2 (hfits e he)]
  refine ⟨e, hfire, ⟨l, hl.1, Or.inl hshow⟩, hlater e hshow, fun o ho hlt => ?_⟩
  obtain ⟨u, hu, hle⟩ := hfirst o ho hlt
  have hmin' := hmin u hu
  omega

/-- A computed instant that is the next one of the schedule is no other number than the earliest
instant of its local time: the one would be too far from the other. -/
theorem eq_earliest_of_nextOccurrence {e : Int} (hl : sch.FirstAfter (z.localTime now) l)
    (he : z.earliest l = some e) (h : z.NextOccurrence sch now (asI32 e)) : asI32 e = e := by
  obtain ⟨hshow, _⟩ := Zone.earliest_spec he
  obtain ⟨k, hk⟩ := asI32_eq_add e
  obtain ⟨_, hlt, hmin⟩ := h
  have hbounds := z.localTime_bounds e
  have hnow := z.localTime_bounds now
  have hafter := hl.2.1
  obtain ⟨o, ho, hlo, hle⟩ := z.exists_occurs_after sch now
  have hbelow := hmin o ho hlo
  by_cases hlate : now < e
  · have hle := hmin e ⟨l, hl.1, Or.inl hshow⟩ hlate
    obtain ⟨l', hl', hlo', hhi'⟩ := sch.exists_scheduled_after (z.localTime now)
    have hweek := hl.2.2 l' hl' hlo'
    omega
  · omega

theorem regular_of_nextOccurrence {v : Int} (hl : sch.FirstAfter (z.localTime now) l)
    (hfire : fireAt z l = some v) (h : z.NextOccurrence sch now v) : z.Regular sch now := by
  obtain ⟨e, he, rfl⟩ := Option.map_eq_some_iff.mp hfire
  have heq := eq_earliest_of_nextOccurrence hl he h
  obtain ⟨hshow, hmin⟩ := Zone.earliest_spec he
  rw [heq] at h
  refine ⟨l, hl, ⟨e, hshow⟩, fun t ht => ?_, fun o ho hlt => ⟨e, hshow, h.2.2 o ho hlt⟩,
    fun t ht => ?_⟩
  · have hle := hmin t ht
    have hlt := h.2.1
    omega
  · rw [he, Option.some.injEq] at ht
    exact asI32_eq_self.1 (ht ▸ heq)

end Correct

/-- The computed instant is the next one of the schedule exactly where the zone is regular. -/
theorem nextOccurrence_iff_regular {zones : String → Option Zone} {userTz : String} {z : Zone}
    {pattern : String} {sch : Schedule} (hz : zones userTz = some z) (hp : Denotes pattern sch)
    (now : Int) :
    (∃ v, computeNextFireAt now zones pattern userTz = some v ∧ z.NextOccurrence sch now v) ↔
      z.Regular sch now := by
  obtain ⟨l, hl, hcompute⟩ := computeNextFireAt_eq hz hp now
  rw [hcompute]
  constructor
  · rintro ⟨v, hfire, hnext⟩
    exact regular_of_nextOccurrence hl hfire hnext
  · exact nextOccurrence_of_regular hl

/-! ## The ticks of the scheduler -/

structure RecurringRule where
  nextFireAt : Option Int
  clock : Int
  /-- The instants it fired for, each with its tick. No code reads it. -/
  fired : List (Int × Int)
deriving DecidableEq, Repr

/-- A tick for which the due rules could be loaded. -/
structure ScheduleTick where
  now : Int
  /-- The time from the start of the tick to this rule. -/
  late : Nat
  /-- `get_user_info` gives the time zone of the user. -/
  loaded : Bool
  fate : StatementFate
deriving DecidableEq, Repr

namespace RecurringRule

variable (zones : String → Option Zone) (pattern userTz : String)

def createdAt (now : Int) : RecurringRule :=
  ⟨computeNextFireAt now zones pattern userTz, now, []⟩

/-- The next instant is written before the rule is evaluated, when there is one. -/
def advance (rule : RecurringRule) (tick : ScheduleTick) : Option Int :=
  match computeNextFireAt (tick.now + tick.late) zones pattern
      (if tick.loaded then userTz else "UTC") with
  | some next => tick.fate.after rule.nextFireAt (some next)
  | none => rule.nextFireAt

/-- A tick at an earlier instant than the last one is not enabled. -/
def step (rule : RecurringRule) (tick : ScheduleTick) : Option RecurringRule :=
  if rule.clock ≤ tick.now then
    match rule.nextFireAt with
    | some due =>
        if due ≤ asI32 tick.now then
          some ⟨rule.advance zones pattern userTz tick, tick.now + tick.late,
            (due, tick.now) :: rule.fired⟩
        else some { rule with clock := tick.now + tick.late }
    | none => some { rule with clock := tick.now + tick.late }
  else none

/-- The tick is before 2038, and when it fires the rule, the zone is loaded and regular, and the
next instant is written. -/
def Advances (z : Zone) (sch : Schedule) (rule : RecurringRule) (tick : ScheduleTick) : Prop :=
  asI32 tick.now = tick.now ∧ (rule.nextFireAt.any (· ≤ tick.now) = true →
    tick.loaded = true ∧ tick.fate ≠ .refused ∧ z.Regular sch (tick.now + tick.late))

/-- Every firing is for an instant of the schedule that is over, and for a later one than those
of all earlier ticks; the rule waits for the next one after its last firing, and fires at the
first tick from then on. -/
def OnTime (z : Zone) (sch : Schedule) (rule : RecurringRule) : Prop :=
  ∃ since v, rule.nextFireAt = some v ∧ since ≤ rule.clock ∧ z.NextOccurrence sch since v ∧
    (∀ f ∈ rule.fired, z.Occurs sch f.1 ∧ f.1 ≤ f.2 ∧ f.2 ≤ since) ∧
    rule.fired.Pairwise (fun later earlier => earlier.2 < later.1) ∧
    ∀ tick next, asI32 tick.now = tick.now → rule.step zones pattern userTz tick = some next →
      next.fired = if v ≤ tick.now then (v, tick.now) :: rule.fired else rule.fired

variable {zones : String → Option Zone} {pattern userTz : String} {z : Zone} {sch : Schedule}

theorem step_spec {rule next : RecurringRule} {tick : ScheduleTick}
    (h : rule.step zones pattern userTz tick = some next) :
    rule.clock ≤ tick.now ∧ next.clock = tick.now + tick.late ∧
      ((∃ due, rule.nextFireAt = some due ∧ due ≤ asI32 tick.now ∧
        next.nextFireAt = rule.advance zones pattern userTz tick ∧
        next.fired = (due, tick.now) :: rule.fired) ∨
      (rule.nextFireAt.any (· ≤ asI32 tick.now) = false ∧
        next.nextFireAt = rule.nextFireAt ∧ next.fired = rule.fired)) := by
  unfold step at h
  by_cases hclock : rule.clock ≤ tick.now
  · rw [if_pos hclock] at h
    cases hnext : rule.nextFireAt with
    | none =>
        rw [hnext] at h
        cases h
        exact ⟨hclock, rfl, Or.inr ⟨rfl, rfl, rfl⟩⟩
    | some due =>
        rw [hnext] at h
        by_cases hdue : due ≤ asI32 tick.now
        · simp only [if_pos hdue] at h
          cases h
          exact ⟨hclock, rfl, Or.inl ⟨due, rfl, hdue, rfl, rfl⟩⟩
        · simp only [if_neg hdue] at h
          cases h
          exact ⟨hclock, rfl, Or.inr ⟨by simpa using hdue, rfl, rfl⟩⟩
  · rw [if_neg hclock] at h
    cases h

/-- A regular firing leaves the next instant after it. -/
theorem advance_of_regular (hz : zones userTz = some z) (hp : Denotes pattern sch)
    (rule : RecurringRule) {tick : ScheduleTick} (hloaded : tick.loaded = true)
    (hfate : tick.fate ≠ .refused) (hregular : z.Regular sch (tick.now + tick.late)) :
    ∃ v, rule.advance zones pattern userTz tick = some v ∧
      z.NextOccurrence sch (tick.now + tick.late) v := by
  obtain ⟨v, hcompute, hnext⟩ :=
    (nextOccurrence_iff_regular hz hp (tick.now + tick.late)).mpr hregular
  refine ⟨v, ?_, hnext⟩
  unfold advance
  rw [if_pos hloaded, hcompute]
  cases hf : tick.fate with
  | done => rfl
  | refused => exact absurd hf hfate
  | lost => rfl

theorem fired_of_step {rule next : RecurringRule} {tick : ScheduleTick} {v : Int}
    (hv : rule.nextFireAt = some v) (hfits : asI32 tick.now = tick.now)
    (h : rule.step zones pattern userTz tick = some next) :
    next.fired = if v ≤ tick.now then (v, tick.now) :: rule.fired else rule.fired := by
  obtain ⟨_, _, ⟨due, hdue, hle, _, hfired⟩ | ⟨hidle, _, hfired⟩⟩ := step_spec h
  · rw [hv, Option.some.injEq] at hdue
    rw [hfired, ← hdue, if_pos (by omega)]
  · rw [hv, Option.any_some, decide_eq_false_iff_not] at hidle
    rw [hfired, if_neg (by omega)]

theorem onTime_createdAt (hz : zones userTz = some z) (hp : Denotes pattern sch) {now : Int}
    (hregular : z.Regular sch now) :
    OnTime zones pattern userTz z sch (createdAt zones pattern userTz now) := by
  obtain ⟨v, hcompute, hnext⟩ := (nextOccurrence_iff_regular hz hp now).mpr hregular
  exact ⟨now, v, hcompute, le_refl now, hnext, fun f hf => (List.not_mem_nil hf).elim,
    List.Pairwise.nil,
    fun tick next hfits hstep => fired_of_step hcompute hfits hstep⟩

theorem OnTime.step (hz : zones userTz = some z) (hp : Denotes pattern sch)
    {rule next : RecurringRule} {tick : ScheduleTick}
    (h : OnTime zones pattern userTz z sch rule) (hok : Advances z sch rule tick)
    (hstep : rule.step zones pattern userTz tick = some next) :
    OnTime zones pattern userTz z sch next := by
  obtain ⟨since, v, hv, hsince, hnext, hpast, horder, _⟩ := h
  obtain ⟨hfits, hadvances⟩ := hok
  obtain ⟨hclock, hclock', ⟨due, hdue, hle, hnextAt, hfired⟩ | ⟨_, hnextAt, hfired⟩⟩ :=
    step_spec hstep
  · have hvdue : v = due := by
      rw [hv, Option.some.injEq] at hdue
      exact hdue
    have hdue' : due ≤ tick.now := by omega
    obtain ⟨hloaded, hfate, hregular⟩ :=
      hadvances (by rw [hdue, Option.any_some, decide_eq_true_eq]; exact hdue')
    obtain ⟨v', hadvance, hnext'⟩ :=
      advance_of_regular hz hp rule hloaded hfate hregular
    have hv' : next.nextFireAt = some v' := hnextAt.trans hadvance
    refine ⟨tick.now + tick.late, v', hv', by omega, hnext', fun f hf => ?_, ?_,
      fun tick' next' hfits' hstep' => fired_of_step hv' hfits' hstep'⟩
    · rw [hfired, List.mem_cons] at hf
      cases hf with
      | inl hf =>
          rw [hf]
          exact ⟨hvdue ▸ hnext.1, hdue', by omega⟩
      | inr hf =>
          obtain ⟨hoccurs, hbefore, hover⟩ := hpast f hf
          exact ⟨hoccurs, hbefore, by omega⟩
    · rw [hfired]
      refine List.Pairwise.cons (fun f hf => ?_) horder
      have hover := (hpast f hf).2.2
      have hlater := hnext.2.1
      omega
  · have hv' : next.nextFireAt = some v := hnextAt.trans hv
    rw [← hfired] at hpast horder
    exact ⟨since, v, hv', by omega, hnext, hpast, horder,
      fun tick' next' hfits' hstep' => fired_of_step hv' hfits' hstep'⟩

end RecurringRule

/-- The computed instant is the next one of the schedule exactly where the zone is regular, and a
rule whose firings are all at regular instants, with the next one written, is always on time. -/
theorem recurring_rule_on_time {zones : String → Option Zone} {userTz : String} {z : Zone}
    {pattern : String} {sch : Schedule} (hz : zones userTz = some z) (hp : Denotes pattern sch) :
    (∀ now, (∃ v, computeNextFireAt now zones pattern userTz = some v ∧
      z.NextOccurrence sch now v) ↔ z.Regular sch now) ∧
    ∀ (now : Int) (ticks : List ScheduleTick) (rule : RecurringRule), z.Regular sch now →
      Transition.run (RecurringRule.step zones pattern userTz)
        (RecurringRule.createdAt zones pattern userTz now) ticks = some rule →
      Transition.Meets (RecurringRule.step zones pattern userTz)
        (RecurringRule.Advances z sch) (RecurringRule.createdAt zones pattern userTz now) ticks →
      RecurringRule.OnTime zones pattern userTz z sch rule := by
  refine ⟨nextOccurrence_iff_regular hz hp, fun now ticks rule hregular hrun hmeets => ?_⟩
  exact Transition.run_invariant (fun _ _ _ h hok hstep => h.step hz hp hok hstep)
    (RecurringRule.onTime_createdAt hz hp hregular) hmeets hrun

/-! ## A day without its time -/

/-- Without changes of the offset every instant is regular. -/
theorem Zone.regular_of_constant {z : Zone} {sch : Schedule} {c now l : Int}
    (hc : ∀ t, z.offset t = c) (hl : sch.FirstAfter (z.localTime now) l)
    (hstart : -2147483648 ≤ now) (hend : now + 777600 < 2147483648) : z.Regular sch now := by
  have hlocal : ∀ t, z.localTime t = t + c := fun t => by rw [Zone.localTime, hc t]
  have hnow := hlocal now
  have hafter := hl.2.1
  have hshow : z.localTime (l - c) = l := by
    rw [hlocal]
    omega
  refine ⟨l, hl, ⟨l - c, hshow⟩, fun t ht => ?_, fun o ho hlt => ?_, fun t ht => ?_⟩
  · rw [hlocal] at ht
    omega
  · obtain ⟨l', hl', hreach⟩ := ho
    have hat : z.localTime o = l' := by
      cases hreach with
      | inl hat => exact hat
      | inr hskip =>
          have hno := hskip.1 (l' - c)
          rw [hlocal] at hno
          omega
    rw [hlocal] at hat
    have hle := hl.2.2 l' hl' (by omega)
    exact ⟨l - c, hshow, by omega⟩
  · obtain ⟨hat, _⟩ := Zone.earliest_spec ht
    rw [hlocal] at hat
    obtain ⟨l', hl', hlo, hhi⟩ := sch.exists_scheduled_after (z.localTime now)
    have hle := hl.2.2 l' hl' hlo
    omega

namespace ScheduleExample

/-- Two hours east of UTC, and three from the last Sunday of March on. -/
def summer : Zone where
  offset t := if t < 1774746000 then 7200 else 10800
  earliest l :=
    if l - 7200 < 1774746000 then some (l - 7200)
    else if 1774746000 ≤ l - 10800 then some (l - 10800)
    else none
  bounded t := by split <;> omega
  earliest_eq_some_iff l t := by
    constructor
    · intro h
      split at h
      · cases h
        refine ⟨by split <;> omega, fun u hu => ?_⟩
        split at hu <;> omega
      · split at h
        · cases h
          refine ⟨by split <;> omega, fun u hu => ?_⟩
          split at hu <;> omega
        · cases h
    · rintro ⟨hat, hmin⟩
      have hother := hmin (l - 7200)
      split at hat
      · rw [if_pos (by omega), Option.some.injEq]
        omega
      · by_cases hearly : l - 7200 < 1774746000
        · rw [if_pos hearly] at hother
          omega
        · rw [if_neg hearly, if_pos (by omega), Option.some.injEq]
          omega
  earliest_eq_none_iff l := by
    constructor
    · intro h u hu
      split at h
      · cases h
      · split at h
        · cases h
        · split at hu <;> omega
    · intro h
      have hwinter := h (l - 7200)
      have hsummer := h (l - 10800)
      rw [if_neg (fun hlt => hwinter (by rw [if_pos hlt]; omega)),
        if_neg (fun hle => hsummer (by rw [if_neg (by omega)]; omega))]

def zones (name : String) : Option Zone :=
  if name = "Europe/Helsinki" then some summer else if name = "UTC" then some Zone.utc else none

def halfPastThree : Schedule := .daily 3 30 (by decide) (by decide)

theorem denotes_halfPastThree : Denotes "daily 03:30" halfPastThree :=
  .daily (show "daily 03:30".toList = "daily ".toList ++ hhmm 3 30 by decide) (parseHhmm_hhmm 3 (by decide) 30 (by decide))
    (by decide) (by decide)

/-- A tick on time that writes what it computes. -/
def tick (now : Int) : ScheduleTick := ⟨now, 0, true, .done⟩

def reached (userTz : String) (now : Int) (ticks : List ScheduleTick) : RecurringRule :=
  Transition.final (RecurringRule.step zones "daily 03:30" userTz)
    (RecurringRule.createdAt zones "daily 03:30" userTz now) ticks

theorem regular_utc {now : Int} (hstart : -2147483648 ≤ now) (hend : now + 777600 < 2147483648) :
    Zone.utc.Regular halfPastThree now := by
  obtain ⟨l, hl, _⟩ := nextDaily_eq Zone.utc now (show 3 < 24 by decide) (show 30 < 60 by decide)
  exact Zone.regular_of_constant (c := 0) (fun _ => rfl) hl hstart hend

end ScheduleExample

open ScheduleExample in
theorem recurring_rule_on_time_utc :
    RecurringRule.OnTime zones "daily 03:30" "UTC" Zone.utc halfPastThree
      (reached "UTC" 1774656000 [tick 1774668600]) :=
  (recurring_rule_on_time (by simp [zones]) denotes_halfPastThree).2 1774656000 [tick 1774668600] _
    (regular_utc (by decide) (by decide)) (Transition.run_eq_final (by decide +kernel))
    ⟨⟨by decide, fun _ => ⟨rfl, by decide, regular_utc (by decide) (by decide)⟩⟩,
      by cases RecurringRule.step zones "daily 03:30" "UTC" _ _ <;> trivial⟩

open ScheduleExample in
theorem not_recurring_rule_on_time_skipped :
    (¬ ∀ (zones : String → Option Zone) (userTz : String) (z : Zone) (pattern : String)
      (sch : Schedule), zones userTz = some z → Denotes pattern sch → ∀ now,
        ∃ v, computeNextFireAt now zones pattern userTz = some v ∧ z.NextOccurrence sch now v) ∧
    (reached "Europe/Helsinki" 1774612800 [tick 1774661400, tick 1774661460]).fired =
      [(1774661400, 1774661460), (1774661400, 1774661400)] := by
  refine ⟨fun hlaw => ?_, by decide +kernel⟩
  obtain ⟨v, hcompute, _⟩ :=
    hlaw zones "Europe/Helsinki" summer "daily 03:30" halfPastThree (by simp [zones])
      denotes_halfPastThree 1774661400
  have hnone : computeNextFireAt 1774661400 zones "daily 03:30" "Europe/Helsinki" = none := by
    decide +kernel
  rw [hnone] at hcompute
  cases hcompute

end Lightfriend.Proactive
