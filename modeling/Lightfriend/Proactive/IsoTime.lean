import Lightfriend.Core.Fault
import Lightfriend.Core.Trim

/-! # ISO times

The time at which a rule fires is written by a user or a model. The reader
tries one format after another, cuts the text at its sixteenth byte to add the
seconds that are missing, and keeps the last 32 bits of what it reads.
-/

namespace Lightfriend.Proactive

open Text

/-! ## The calendar library -/

/-- A moment as `chrono` tells it: seconds since the epoch, and what is left of a second. -/
structure Instant where
  seconds : Int
  nanos : Nat
deriving DecidableEq

/-- The timestamp is the moment, with nothing cut off. -/
def Instant.Exactly (moment : Instant) (timestamp : Int) : Prop :=
  moment.seconds = timestamp ∧ moment.nanos = 0

/-- The moment at which clocks that are ahead by the offset show this one. -/
def Instant.ahead (moment : Instant) (offset : Int) : Instant :=
  ⟨moment.seconds - offset, moment.nanos⟩

/-- The readers of `chrono`: `parse_from_rfc3339`, and `parse_from_str` for a time without an
offset and for a date, which is told in days since the epoch. -/
structure Chrono where
  rfc3339 : List Char → Option Instant
  naiveDateTime : String → List Char → Option Instant
  naiveDate : String → List Char → Option Int

def secondsFormat : String := "%Y-%m-%dT%H:%M:%S"

def minutesFormat : String := "%Y-%m-%dT%H:%M"

def dateFormat : String := "%Y-%m-%d"

/-- `and_hms_opt(12, 0, 0)`. -/
def noon (day : Int) : Instant := ⟨day * 86400 + 43200, 0⟩

/-! ## The reader -/

/-- The first reader that reads something. -/
def orElse {α : Type} (first second : Checked (Option α)) : Checked (Option α) := do
  match ← first with
  | some value => .ok (some value)
  | none => second

def hasTime (s : List Char) : Prop := 'T' ∈ s ∧ s.getLast? ≠ some 'Z'

/-- `s.contains('+') || s.matches('-').count() > 2`. -/
def hasOffset (s : List Char) : Prop := hasTime s ∧ ('+' ∈ s ∨ 2 < s.count '-')

instance (s : List Char) : Decidable (hasTime s) := inferInstanceAs (Decidable (_ ∧ _))

instance (s : List Char) : Decidable (hasOffset s) := inferInstanceAs (Decidable (_ ∧ _))

/-- `format!("{}:00{}", ..)`. -/
def withSeconds (front back : List Char) : List Char := front ++ [':', '0', '0'] ++ back

section Reader

variable (checks : Bool) (chrono : Chrono) (tzOffset : Int) (s : List Char)

def readExplicit : Option Int := (chrono.rfc3339 s).map (fun dt => asI32 dt.seconds)

/-- A time with an offset and without its seconds. -/
def readShort : Checked (Option Int) := do
  if hasOffset s then
    let front ← sliceTo s 16
    let back ← sliceFrom s 16
    .ok (readExplicit chrono (withSeconds front back))
  else .ok none

def localTimestamp (local? : Option Instant) : Checked (Option Int) :=
  match local? with
  | some ndt => (subI32 checks (asI32 ndt.seconds) tzOffset).map some
  | none => .ok none

def readNaive (format : String) : Checked (Option Int) :=
  if hasTime s then localTimestamp checks tzOffset (chrono.naiveDateTime format s) else .ok none

def readZulu : Option Int := if s.getLast? = some 'Z' then readExplicit chrono s else none

def readDate : Checked (Option Int) :=
  localTimestamp checks tzOffset ((chrono.naiveDate dateFormat s).map noon)

/-- The readers of times without an offset, and the ones behind them. -/
def readLocal : Checked (Option Int) :=
  orElse (readNaive checks chrono tzOffset s secondsFormat) <|
  orElse (readNaive checks chrono tzOffset s minutesFormat) <|
  orElse (.ok (readZulu chrono s)) <|
  readDate checks chrono tzOffset s

def readTrimmed : Checked (Option Int) :=
  orElse (.ok (readExplicit chrono s)) <|
  orElse (readShort chrono s) <|
  readLocal checks chrono tzOffset s

def parseIsoToTimestamp (text : List Char) : Checked (Option Int) :=
  readTrimmed checks chrono tzOffset (trimText text)

end Reader

/-! ## What a text denotes -/

/-- A time of the user, before the offset is taken off. -/
inductive IsLocal (chrono : Chrono) (s : List Char) : Instant → Prop
  | time {format : String} {ndt : Instant}
      (hformat : format = secondsFormat ∨ format = minutesFormat)
      (hread : chrono.naiveDateTime format s = some ndt) : IsLocal chrono s ndt
  | date {day : Int} (hread : chrono.naiveDate dateFormat s = some day) :
      IsLocal chrono s (noon day)

/-- A time with its own offset, in full or without its seconds. -/
inductive IsZoned (chrono : Chrono) (s : List Char) : Instant → Prop
  | full {dt : Instant} (hread : chrono.rfc3339 s = some dt) : IsZoned chrono s dt
  | short {front back : List Char} {dt : Instant} (hoffset : hasOffset s)
      (hsplit : s = front ++ back) (hlength : byteLen front = 16)
      (hread : chrono.rfc3339 (withSeconds front back) = some dt) : IsZoned chrono s dt

/-- The moment that a text denotes at an offset. -/
inductive DenotesInstant (chrono : Chrono) (tzOffset : Int) (s : List Char) : Instant → Prop
  | zoned {dt : Instant} (h : IsZoned chrono s dt) : DenotesInstant chrono tzOffset s dt
  | naive {ndt : Instant} (h : IsLocal chrono s ndt) :
      DenotesInstant chrono tzOffset s (ndt.ahead tzOffset)

/-- What the formats say: a time has a `T` and ends in a digit, and a text has one form only. -/
structure Chrono.Lawful (chrono : Chrono) : Prop where
  time {format : String} {s : List Char} {ndt : Instant}
    (hformat : format = secondsFormat ∨ format = minutesFormat)
    (hread : chrono.naiveDateTime format s = some ndt) : hasTime s
  zoned {s : List Char} {dt dt' : Instant} (h : IsZoned chrono s dt) (h' : IsZoned chrono s dt') :
    dt = dt'
  naive {s : List Char} {ndt ndt' : Instant} (h : IsLocal chrono s ndt)
    (h' : IsLocal chrono s ndt') : ndt = ndt'
  apart {s : List Char} {dt ndt : Instant} (h : IsZoned chrono s dt) : ¬ IsLocal chrono s ndt

/-- The call returns, and a timestamp that it returns is the moment of the text. -/
def ParsesExactly (checks : Bool) (chrono : Chrono) (tzOffset : Int) (text : List Char) : Prop :=
  Returns (parseIsoToTimestamp checks chrono tzOffset text) ∧
  ∀ timestamp, parseIsoToTimestamp checks chrono tzOffset text = .ok (some timestamp) →
    ∃ moment, DenotesInstant chrono tzOffset (trimText text) moment ∧ moment.Exactly timestamp

/-! ## When the reader is exact -/

def FitsI32 (n : Int) : Prop := i32Min ≤ n ∧ n ≤ i32Max

instance (n : Int) : Decidable (FitsI32 n) := inferInstanceAs (Decidable (_ ∧ _))

/-- The sixteenth byte of a time with an offset ends a character, unless the time is complete. -/
def Sliceable (chrono : Chrono) (s : List Char) : Prop :=
  hasOffset s → chrono.rfc3339 s = none → IsCharBoundary s 16

/-- The moment is a whole second of the years that 32 bits tell. -/
structure Readable (checks : Bool) (chrono : Chrono) (tzOffset : Int) (s : List Char) : Prop where
  sliceable : Sliceable chrono s
  zoned : ∀ dt, IsZoned chrono s dt → dt.nanos = 0 ∧ FitsI32 dt.seconds
  naive : ∀ ndt, IsLocal chrono s ndt → ndt.nanos = 0 ∧ FitsI32 (ndt.seconds - tzOffset) ∧
    (checks = true → FitsI32 ndt.seconds)

/-- What the reader does with a trimmed text. -/
inductive ReadCase (checks : Bool) (chrono : Chrono) (tzOffset : Int) (s : List Char) :
    Checked (Option Int) → Prop
  | aborts (h : ¬ Sliceable chrono s) : ReadCase checks chrono tzOffset s (.error .slice)
  | zoned {dt : Instant} (hslice : Sliceable chrono s) (h : IsZoned chrono s dt) :
      ReadCase checks chrono tzOffset s (.ok (some (asI32 dt.seconds)))
  | naive {ndt : Instant} (hslice : Sliceable chrono s) (h : IsLocal chrono s ndt) :
      ReadCase checks chrono tzOffset s (localTimestamp checks tzOffset (some ndt))
  | nothing (hslice : Sliceable chrono s) (hzoned : ∀ dt, ¬ IsZoned chrono s dt)
      (hlocal : ∀ ndt, ¬ IsLocal chrono s ndt) : ReadCase checks chrono tzOffset s (.ok none)

section Cases

variable {checks : Bool} {chrono : Chrono} {tzOffset : Int} {s : List Char}

theorem orElse_none {α : Type} (second : Checked (Option α)) : orElse (.ok none) second = second :=
  rfl

theorem localTimestamp_some (ndt : Instant) : localTimestamp checks tzOffset (some ndt) =
    (subI32 checks (asI32 ndt.seconds) tzOffset).map some := rfl

theorem orElse_localTimestamp (ndt : Instant) (second : Checked (Option Int)) :
    orElse (localTimestamp checks tzOffset (some ndt)) second =
      localTimestamp checks tzOffset (some ndt) := by
  rw [localTimestamp_some]
  cases subI32 checks (asI32 ndt.seconds) tzOffset <;> rfl

/-- The readers of local times and of dates read what denotes a local time. -/
theorem readLocal_cases (hlawful : chrono.Lawful) (hzulu : chrono.rfc3339 s = none) :
    (∃ ndt, IsLocal chrono s ndt ∧
      readLocal checks chrono tzOffset s = localTimestamp checks tzOffset (some ndt)) ∨
    (∀ ndt, ¬ IsLocal chrono s ndt) ∧ readLocal checks chrono tzOffset s = .ok none := by
  have hnaive : ∀ format, format = secondsFormat ∨ format = minutesFormat →
      readNaive checks chrono tzOffset s format =
        localTimestamp checks tzOffset (chrono.naiveDateTime format s) := by
    intro format hformat
    unfold readNaive
    split
    · rfl
    next hno =>
      cases hread : chrono.naiveDateTime format s with
      | none => rfl
      | some ndt => exact absurd (hlawful.time hformat hread) hno
  have hexplicit : readZulu chrono s = none := by
    unfold readZulu readExplicit
    rw [hzulu]
    exact ite_self _
  unfold readLocal
  rw [hnaive _ (.inl rfl), hnaive _ (.inr rfl), hexplicit, orElse_none]
  cases hseconds : chrono.naiveDateTime secondsFormat s with
  | some ndt => exact .inl ⟨ndt, .time (.inl rfl) hseconds, orElse_localTimestamp _ _⟩
  | none =>
      cases hminutes : chrono.naiveDateTime minutesFormat s with
      | some ndt => exact .inl ⟨ndt, .time (.inr rfl) hminutes, orElse_localTimestamp _ _⟩
      | none =>
          cases hdate : chrono.naiveDate dateFormat s with
          | some day =>
              refine .inl ⟨noon day, .date hdate, ?_⟩
              unfold readDate
              rw [hdate]
              rfl
          | none =>
              refine .inr ⟨?_, ?_⟩
              · rintro ndt (⟨rfl | rfl, hread⟩ | ⟨hread⟩)
                · rw [hseconds] at hread
                  cases hread
                · rw [hminutes] at hread
                  cases hread
                · rw [hdate] at hread
                  cases hread
              · unfold readDate
                rw [hdate]
                rfl

theorem readShort_of_not (h : ¬ hasOffset s) : readShort chrono s = .ok none := if_neg h

theorem readShort_append {front back : List Char} (hoffset : hasOffset (front ++ back))
    (hlength : byteLen front = 16) : readShort chrono (front ++ back) =
      .ok (readExplicit chrono (withSeconds front back)) := by
  unfold readShort
  rw [if_pos hoffset, ← hlength, sliceTo_append, sliceFrom_append]
  rfl

/-- What the readers behind the ones of times with an offset do. -/
theorem readLocal_readCase (hlawful : chrono.Lawful) (hfull : chrono.rfc3339 s = none)
    (hslice : Sliceable chrono s) (hzoned : ∀ dt, ¬ IsZoned chrono s dt) :
    ReadCase checks chrono tzOffset s (readLocal checks chrono tzOffset s) := by
  obtain ⟨ndt, hlocal, hvalue⟩ | ⟨hlocal, hvalue⟩ :=
    @readLocal_cases checks chrono tzOffset s hlawful hfull
  · rw [hvalue]
    exact .naive hslice hlocal
  · rw [hvalue]
    exact .nothing hslice hzoned hlocal

/-- A time with an offset is cut, and read with its seconds. -/
theorem readShort_readCase (hlawful : chrono.Lawful) (hfull : chrono.rfc3339 s = none)
    (hoffset : hasOffset s) : ReadCase checks chrono tzOffset s
      (orElse (readShort chrono s) (readLocal checks chrono tzOffset s)) := by
  by_cases hboundary : IsCharBoundary s 16
  · have hslice : Sliceable chrono s := fun _ _ => hboundary
    obtain ⟨front, ⟨back, rfl⟩, hlength⟩ := hboundary
    rw [readShort_append hoffset hlength, readExplicit]
    cases hshort : chrono.rfc3339 (withSeconds front back) with
    | some dt => exact .zoned hslice (.short hoffset rfl hlength hshort)
    | none =>
        refine readLocal_readCase hlawful hfull hslice ?_
        rintro dt (hdt | ⟨-, hsplit, hlength', hdt⟩)
        · rw [hfull] at hdt
          cases hdt
        · obtain ⟨rfl, rfl⟩ := append_inj_of_byteLen hsplit (hlength.trans hlength'.symm)
          rw [hshort] at hdt
          cases hdt
  · have haborts : readShort chrono s = .error .slice := by
      unfold readShort
      rw [if_pos hoffset, sliceTo_of_not_boundary hboundary]
      rfl
    rw [haborts]
    exact .aborts (fun hslice => hboundary (hslice hoffset hfull))

theorem readTrimmed_cases (hlawful : chrono.Lawful) :
    ReadCase checks chrono tzOffset s (readTrimmed checks chrono tzOffset s) := by
  unfold readTrimmed
  rw [readExplicit]
  cases hfull : chrono.rfc3339 s with
  | some dt =>
      have hslice : Sliceable chrono s := by
        intro _ hnone
        rw [hfull] at hnone
        cases hnone
      exact .zoned hslice (.full hfull)
  | none =>
      rw [Option.map_none, orElse_none]
      by_cases hoffset : hasOffset s
      · exact readShort_readCase hlawful hfull hoffset
      · rw [readShort_of_not hoffset, orElse_none]
        refine readLocal_readCase hlawful hfull (fun h => absurd h hoffset) ?_
        rintro dt (hdt | ⟨hshort, -, -, -⟩)
        · rw [hfull] at hdt
          cases hdt
        · exact hoffset hshort

end Cases

/-! ## Local times -/

section Local

variable {checks : Bool} {tzOffset : Int} {ndt : Instant}

/-- The offset is taken off without a fault, and gives the moment. -/
theorem localTimestamp_exactly_iff :
    (Returns (localTimestamp checks tzOffset (some ndt)) ∧
      ∀ timestamp, localTimestamp checks tzOffset (some ndt) = .ok (some timestamp) →
        (ndt.ahead tzOffset).Exactly timestamp) ↔
    ndt.nanos = 0 ∧ FitsI32 (ndt.seconds - tzOffset) ∧ (checks = true → FitsI32 ndt.seconds) := by
  unfold FitsI32 Instant.Exactly Instant.ahead
  rw [localTimestamp_some, ← subI32_asI32_iff]
  cases subI32 checks (asI32 ndt.seconds) tzOffset with
  | error fault =>
      refine iff_of_false (fun h => not_returns_error fault h.1) ?_
      rintro ⟨-, h⟩
      cases h
  | ok value =>
      constructor
      · rintro ⟨-, hexact⟩
        obtain ⟨htimestamp, hnanos⟩ := hexact value rfl
        refine ⟨hnanos, ?_⟩
        rw [← htimestamp]
      · rintro ⟨hnanos, hvalue⟩
        refine ⟨returns_ok _, fun timestamp h => ?_⟩
        cases h
        exact ⟨(Except.ok.inj hvalue).symm, hnanos⟩

end Local

/-! ## Exact times -/

/-- The reader is exact exactly on readable texts. -/
theorem parseIsoToTimestamp_exactly_iff {checks : Bool} {chrono : Chrono} (tzOffset : Int)
    (text : List Char) (hlawful : chrono.Lawful) :
    ParsesExactly checks chrono tzOffset text ↔
      Readable checks chrono tzOffset (trimText text) := by
  unfold ParsesExactly parseIsoToTimestamp
  generalize trimText text = s
  have hcases := @readTrimmed_cases checks chrono tzOffset s hlawful
  generalize readTrimmed checks chrono tzOffset s = result at hcases
  cases hcases with
  | aborts hslice =>
      exact ⟨fun h => absurd h.1 (not_returns_error _), fun h => absurd h.sliceable hslice⟩
  | @zoned dt hslice hdt =>
      have hunique : ∀ moment, DenotesInstant chrono tzOffset s moment → moment = dt := by
        rintro moment (hmoment | hlocal)
        · exact hlawful.zoned hmoment hdt
        · exact absurd hlocal (hlawful.apart hdt)
      constructor
      · rintro ⟨-, hexact⟩
        obtain ⟨moment, hmoment, htimestamp, hnanos⟩ := hexact _ rfl
        obtain rfl := hunique moment hmoment
        refine ⟨hslice, fun dt' hdt' => ?_, fun ndt hlocal => absurd hlocal (hlawful.apart hdt)⟩
        obtain rfl := hlawful.zoned hdt' hdt
        exact ⟨hnanos, (asI32_eq_iff _).mp htimestamp.symm⟩
      · intro hreadable
        obtain ⟨hnanos, hfits⟩ := hreadable.zoned dt hdt
        refine ⟨returns_ok _, fun timestamp h => ?_⟩
        cases h
        exact ⟨dt, .zoned hdt, ((asI32_eq_iff _).mpr hfits).symm, hnanos⟩
  | @naive ndt hslice hndt =>
      have hunique : ∀ moment, DenotesInstant chrono tzOffset s moment →
          moment = ndt.ahead tzOffset := by
        rintro moment (hmoment | hlocal)
        · exact absurd hndt (hlawful.apart hmoment)
        · rw [hlawful.naive hlocal hndt]
      constructor
      · rintro ⟨hreturns, hexact⟩
        refine ⟨hslice, fun dt hdt => absurd hndt (hlawful.apart hdt), fun ndt' hndt' => ?_⟩
        obtain rfl := hlawful.naive hndt' hndt
        refine localTimestamp_exactly_iff.1 ⟨hreturns, fun timestamp h => ?_⟩
        obtain ⟨moment, hmoment, hexactly⟩ := hexact timestamp h
        rwa [hunique moment hmoment] at hexactly
      · intro hreadable
        obtain ⟨hreturns, hexact⟩ := localTimestamp_exactly_iff.2 (hreadable.naive ndt hndt)
        exact ⟨hreturns, fun timestamp h => ⟨_, .naive hndt, hexact timestamp h⟩⟩
  | nothing hslice hzoned hlocal =>
      refine ⟨fun _ => ⟨hslice, fun dt hdt => absurd hdt (hzoned dt),
        fun ndt hndt => absurd hndt (hlocal ndt)⟩, fun _ => ⟨returns_ok _, fun timestamp h => ?_⟩⟩
      cases h

/-- The calendar library on the texts below. -/
def sampleChrono : Chrono where
  rfc3339 s := if s = "2040-01-01T00:00:00Z".toList then some ⟨2208988800, 0⟩ else none
  naiveDateTime format s :=
    if format = minutesFormat ∧ s = "2026-02-28T09:00".toList then some ⟨1772269200, 0⟩ else none
  naiveDate _ _ := none

theorem sampleChrono_zoned {s : List Char} {dt : Instant} (h : IsZoned sampleChrono s dt) :
    dt = ⟨2208988800, 0⟩ ∧ (s = "2040-01-01T00:00:00Z".toList ∨ hasOffset s) := by
  obtain hread | ⟨hoffset, -, -, hread⟩ := h
  · obtain ⟨hs, hdt⟩ := Option.ite_none_right_eq_some.mp hread
    exact ⟨(Option.some.inj hdt).symm, .inl hs⟩
  · obtain ⟨-, hdt⟩ := Option.ite_none_right_eq_some.mp hread
    exact ⟨(Option.some.inj hdt).symm, .inr hoffset⟩

theorem sampleChrono_local {s : List Char} {ndt : Instant} (h : IsLocal sampleChrono s ndt) :
    ndt = ⟨1772269200, 0⟩ ∧ s = "2026-02-28T09:00".toList := by
  obtain ⟨-, hread⟩ | ⟨hread⟩ := h
  · obtain ⟨⟨-, hs⟩, hndt⟩ := Option.ite_none_right_eq_some.mp hread
    exact ⟨(Option.some.inj hndt).symm, hs⟩
  · cases hread

theorem sampleChrono_lawful : sampleChrono.Lawful where
  time _ hread := by
    obtain ⟨⟨-, rfl⟩, -⟩ := Option.ite_none_right_eq_some.mp hread
    decide
  zoned h h' := (sampleChrono_zoned h).1.trans (sampleChrono_zoned h').1.symm
  naive h h' := (sampleChrono_local h).1.trans (sampleChrono_local h').1.symm
  apart h hlocal := by
    obtain ⟨-, rfl⟩ := sampleChrono_local hlocal
    obtain hs | hoffset := (sampleChrono_zoned h).2
    · exact absurd hs (by decide)
    · exact absurd hoffset (by decide)

/-- A local time of UTC+3. -/
theorem parseIsoToTimestamp_local :
    parseIsoToTimestamp true sampleChrono 10800 " 2026-02-28T09:00".toList =
      .ok (some 1772258400) ∧
    ParsesExactly true sampleChrono 10800 " 2026-02-28T09:00".toList := by
  refine ⟨by decide +kernel, (parseIsoToTimestamp_exactly_iff 10800 _ sampleChrono_lawful).mpr ?_⟩
  have htrim : trimText " 2026-02-28T09:00".toList = "2026-02-28T09:00".toList := by
    decide +kernel
  rw [htrim]
  refine ⟨fun hoffset => ?_, fun dt hdt => ?_, fun ndt hndt => ?_⟩
  · exact absurd hoffset (by decide)
  · obtain hs | hoffset := (sampleChrono_zoned hdt).2
    · exact absurd hs (by decide)
    · exact absurd hoffset (by decide)
  · obtain ⟨rfl, -⟩ := sampleChrono_local hndt
    decide

/-- A text that is cut behind its end, and a year that 32 bits cannot tell. -/
theorem parseIsoToTimestamp_inexact :
    parseIsoToTimestamp true sampleChrono 0 "T+1".toList = .error .slice ∧
    ¬ ParsesExactly true sampleChrono 0 "T+1".toList ∧
    parseIsoToTimestamp true sampleChrono 0 "2040-01-01T00:00:00Z".toList =
      .ok (some (-2085978496)) ∧
    ¬ ParsesExactly true sampleChrono 0 "2040-01-01T00:00:00Z".toList := by
  have haborts : parseIsoToTimestamp true sampleChrono 0 "T+1".toList = .error .slice := by
    decide +kernel
  have hwraps : parseIsoToTimestamp true sampleChrono 0 "2040-01-01T00:00:00Z".toList =
      .ok (some (-2085978496)) := by decide +kernel
  refine ⟨haborts, fun h => ?_, hwraps, fun h => ?_⟩
  · have hreturns := h.1
    rw [haborts] at hreturns
    exact not_returns_error _ hreturns
  · obtain ⟨moment, hmoment, htimestamp, -⟩ := h.2 _ hwraps
    have htrim : trimText "2040-01-01T00:00:00Z".toList = "2040-01-01T00:00:00Z".toList := by
      decide +kernel
    rw [htrim] at hmoment
    obtain hdt | hndt := hmoment
    · obtain ⟨rfl, -⟩ := sampleChrono_zoned hdt
      exact absurd htimestamp (by decide)
    · obtain ⟨-, hs⟩ := sampleChrono_local hndt
      exact absurd hs (by decide)

end Lightfriend.Proactive
