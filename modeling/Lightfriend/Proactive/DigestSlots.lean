import Lightfriend.Proactive.Digest
import Mathlib.Data.List.TakeWhile
import Mathlib.Order.Bounds.Basic

/-! # The times of a digest

The configured times are read into the slots of the scheduler, and stored in the
form in which the slots are written. The slot that is due is the last instant at
which a clock with the offset showed one of them.
-/

namespace Lightfriend.Proactive.DigestSlots

/-! ## The stored form -/

/-- Two digits at least. -/
def twoDigits (n : Nat) : List Char := (Nat.toDigits 10 n).leftpad 2 '0'

/-- A slot as a time of the day. -/
def slotTime (slot : Nat) : List Char := twoDigits (slot / 60) ++ ':' :: twoDigits (slot % 60)

def canonicalTimes (slots : List Nat) : String :=
  String.ofList ([','].intercalate (slots.map slotTime))

/-- `parse_digest_times`, with the form to store. -/
def parseDigestTimesStored (input : String) : Option (String × List Nat) :=
  (parseDigestTimes input).map (fun slots => (canonicalTimes slots, slots))

/-! ## The meaning -/

/-- At least one and at most ten times of the day in order, each at a full ten minutes. -/
structure SlotList (slots : List Nat) : Prop where
  nonempty : slots ≠ []
  atMostTen : slots.length ≤ 10
  increasing : slots.Pairwise (· < ·)
  boundary : ∀ slot ∈ slots, slot % 10 = 0
  ofDay : ∀ slot ∈ slots, slot < 1440

/-- The text gives the time among its parts: an hour, and a minute if there is a colon. -/
def Gives (input : String) (time : Nat) : Prop :=
  ∃ raw ∈ input.toList.splitOn ',', ∃ hour minute : Nat, hour < 24 ∧ minute < 60 ∧
    time = hour * 60 + minute ∧
    ((':' ∉ (trim (String.ofList raw)).toList ∧ minute = 0 ∧
        parseU32 (trim (String.ofList raw)).toList = some hour) ∨
      ∃ h m : List Char, (trim (String.ofList raw)).toList = h ++ ':' :: m ∧ ':' ∉ h ∧
        parseU32 h = some hour ∧ parseU32 m = some minute)

/-- No boundary of ten minutes is nearer to the time than that of the slot, which may be midnight
at the end of the day. -/
def NearestBoundary (time slot : Nat) : Prop :=
  ∃ boundary : Nat, boundary % 10 = 0 ∧ slot = boundary % 1440 ∧
    ∀ other : Nat, other % 10 = 0 → |(boundary : Int) - time| ≤ |(other : Int) - time|

/-- The instants not after now at which a clock with the offset shows a slot. -/
def pastSlots (slots : List Nat) (now tzOffset : Int) : Set Int :=
  {t | t ≤ now ∧ SlotTime slots (t + tzOffset)}

/-! ## Reading the times -/

section

variable {input : String} {slots next : List Nat} {raw token : List Char} {slot : Nat}

theorem parseDigestTime_spec (h : parseDigestTime token = some slot) :
    ∃ hour minute : Nat, hour < 24 ∧ minute < 60 ∧
      slot = (hour * 60 + minute + 5) / 10 * 10 % 1440 ∧
      ((':' ∉ token ∧ minute = 0 ∧ parseU32 token = some hour) ∨
        ∃ h m : List Char, token = h ++ ':' :: m ∧ ':' ∉ h ∧ parseU32 h = some hour ∧
          parseU32 m = some minute) := by
  unfold parseDigestTime splitOnce at h
  simp only [Option.bind_eq_bind, Option.bind_eq_some_iff] at h
  obtain ⟨hour, hhour, minute, hminute, h⟩ := h
  split at h
  · cases h
  next hlt =>
    split at h
    · cases h
    next hlt' =>
      cases h
      refine ⟨hour, minute, by omega, by omega, rfl, ?_⟩
      by_cases hcolon : ':' ∈ token
      · rw [if_pos hcolon, Option.getD_some] at hhour hminute
        obtain ⟨m, htoken⟩ : ∃ m, token.dropWhile (· ≠ ':') = ':' :: m := by
          cases hdrop : token.dropWhile (· ≠ ':') with
          | nil =>
              simpa using List.dropWhile_eq_nil_iff.mp hdrop ':' hcolon
          | cons c m =>
              have hc := List.head?_dropWhile_not (· ≠ ':') token
              rw [hdrop, List.head?_cons] at hc
              exact ⟨m, by simpa using hc⟩
        refine .inr ⟨token.takeWhile (· ≠ ':'), m, ?_, ?_, hhour, ?_⟩
        · rw [← htoken, List.takeWhile_append_dropWhile]
        · intro hmem
          simpa using List.mem_takeWhile_imp hmem
        · rw [htoken] at hminute
          exact hminute
      · rw [if_neg hcolon, Option.getD_none] at hhour hminute
        have hzero : parseU32 ['0'] = some 0 := by decide
        rw [hzero] at hminute
        exact .inl ⟨hcolon, (Option.some.inj hminute).symm, hhour⟩

theorem snapped_nearest (time : Nat) : NearestBoundary time ((time + 5) / 10 * 10 % 1440) := by
  refine ⟨(time + 5) / 10 * 10, by omega, rfl, fun other hother => ?_⟩
  rcases abs_cases ((((time + 5) / 10 * 10 : Nat) : Int) - time) with ⟨hl, _⟩ | ⟨hl, _⟩
  · rcases abs_cases ((other : Int) - time) with ⟨hr, _⟩ | ⟨hr, _⟩
    · rw [hl, hr]
      omega
    · rw [hl, hr]
      omega
  · rcases abs_cases ((other : Int) - time) with ⟨hr, _⟩ | ⟨hr, _⟩
    · rw [hl, hr]
      omega
    · rw [hl, hr]
      omega

/-- What the slots read so far are. -/
structure Read (input : String) (slots : List Nat) : Prop where
  nodup : slots.Nodup
  boundary : ∀ slot ∈ slots, slot % 10 = 0
  ofDay : ∀ slot ∈ slots, slot < 1440
  given : ∀ slot ∈ slots, ∃ time, Gives input time ∧ NearestBoundary time slot

theorem Read.add (hread : Read input slots) (hraw : raw ∈ input.toList.splitOn ',')
    (h : addDigestTime slots raw = some next) : Read input next := by
  unfold addDigestTime at h
  dsimp only at h
  split at h
  · cases h
    exact hread
  · simp only [Option.bind_eq_bind, Option.bind_eq_some_iff, Option.some.injEq] at h
    obtain ⟨snapped, hsnapped, hnext⟩ := h
    split at hnext
    · exact hnext ▸ hread
    next hfresh =>
      obtain ⟨hour, minute, hhour, hminute, heq, htoken⟩ := parseDigestTime_spec hsnapped
      have hlt := parseDigestTime_lt hsnapped
      subst hnext
      refine ⟨?_, ?_, ?_, ?_⟩
      · rw [List.nodup_append]
        refine ⟨hread.nodup, List.nodup_singleton _, ?_⟩
        rintro a ha b hb rfl
        exact hfresh (List.mem_singleton.mp hb ▸ ha)
      · intro slot hmem
        rcases List.mem_append.mp hmem with hmem | hmem
        · exact hread.boundary slot hmem
        · rw [List.mem_singleton.mp hmem, heq]
          omega
      · intro slot hmem
        rcases List.mem_append.mp hmem with hmem | hmem
        · exact hread.ofDay slot hmem
        · exact List.mem_singleton.mp hmem ▸ hlt
      · intro slot hmem
        rcases List.mem_append.mp hmem with hmem | hmem
        · exact hread.given slot hmem
        · refine ⟨hour * 60 + minute, ⟨raw, hraw, hour, minute, hhour, hminute, rfl, htoken⟩, ?_⟩
          rw [List.mem_singleton.mp hmem, heq]
          exact snapped_nearest _

theorem Read.foldlM {raws : List (List Char)} (hread : Read input slots)
    (hraws : ∀ raw ∈ raws, raw ∈ input.toList.splitOn ',')
    (h : raws.foldlM addDigestTime slots = some next) : Read input next := by
  induction raws generalizing slots with
  | nil =>
      cases h
      exact hread
  | cons raw raws ih =>
      rw [List.foldlM_cons, Option.bind_eq_bind, Option.bind_eq_some_iff] at h
      obtain ⟨middle, hmiddle, h⟩ := h
      rw [List.forall_mem_cons] at hraws
      exact ih (hread.add hraws.1 hmiddle) hraws.2 h

theorem parseDigestTimes_spec (h : parseDigestTimes input = some slots) :
    SlotList slots ∧ ∀ slot ∈ slots, ∃ time, Gives input time ∧ NearestBoundary time slot := by
  unfold parseDigestTimes at h
  simp only [Option.bind_eq_bind, Option.bind_eq_some_iff] at h
  obtain ⟨found, hfound, h⟩ := h
  have hread : Read input found :=
    Read.foldlM ⟨List.nodup_nil, by simp, by simp, by simp⟩ (fun _ hraw => hraw) hfound
  split at h
  · cases h
  next hne =>
    split at h
    · cases h
    next hten =>
      cases h
      have hperm : (orderBy (· ≤ ·) found).Perm found := List.perm_insertionSort _ found
      refine ⟨⟨?_, ?_, ?_, ?_, ?_⟩, ?_⟩
      · intro hnil
        rw [hnil] at hperm
        exact hne hperm.nil_eq.symm
      · rw [hperm.length_eq]
        omega
      · have hsorted : (orderBy (· ≤ ·) found).Pairwise (· ≤ ·) :=
          List.pairwise_insertionSort _ found
        have hnodup : (orderBy (· ≤ ·) found).Nodup := hperm.nodup_iff.mpr hread.nodup
        exact hsorted.imp₂ (fun _ _ hle hne => lt_of_le_of_ne hle hne) hnodup
      · exact fun slot hmem => hread.boundary slot (hperm.mem_iff.mp hmem)
      · exact fun slot hmem => hread.ofDay slot (hperm.mem_iff.mp hmem)
      · exact fun slot hmem => hread.given slot (hperm.mem_iff.mp hmem)

/-! ## Reading the stored form -/

theorem parseU32_twoDigits : ∀ n < 60, parseU32 (twoDigits n) = some n := by
  decide +kernel

theorem twoDigits_plain : ∀ n < 60, (twoDigits n).all
    (fun c => !isWhitespace c && c != ':' && c != ',') = true := by
  decide +kernel

/-- Where there is no blank there is none to trim. -/
theorem trim_of_no_blank {text : List Char} (h : ∀ c ∈ text, isWhitespace c = false) :
    (trim (String.ofList text)).toList = text := by
  have hkeep : ∀ rest : List Char, (∀ c ∈ rest, isWhitespace c = false) →
      rest.dropWhile isWhitespace = rest := by
    intro rest hrest
    cases rest with
    | nil => rfl
    | cons c rest => rw [List.dropWhile_cons_of_neg (by simp [hrest c List.mem_cons_self])]
  have hreverse : ∀ c ∈ text.reverse, isWhitespace c = false := fun c hc =>
    h c (List.mem_reverse.mp hc)
  rw [trim, String.toList_ofList, String.toList_ofList, hkeep text h,
    hkeep text.reverse hreverse, List.reverse_reverse]

/-- A slot of the day is read from its own text. -/
theorem slotTime_read (hboundary : slot % 10 = 0) (hday : slot < 1440) :
    parseDigestTime (slotTime slot) = some slot ∧
      (trim (String.ofList (slotTime slot))).toList = slotTime slot ∧ slotTime slot ≠ [] ∧
      ',' ∉ slotTime slot := by
  have hhour : slot / 60 < 60 := by omega
  have hminute : slot % 60 < 60 := by omega
  have hplain : ∀ n < 60, ∀ c ∈ twoDigits n,
      isWhitespace c = false ∧ c ≠ ':' ∧ c ≠ ',' := by
    intro n hn c hc
    have hc' := List.all_eq_true.mp (twoDigits_plain n hn) c hc
    simpa [and_assoc] using hc'
  have hsplit : splitOnce ':' (slotTime slot) =
      some (twoDigits (slot / 60), twoDigits (slot % 60)) := by
    have hcolon : ∀ c ∈ twoDigits (slot / 60), decide (c ≠ ':') = true := fun c hc =>
      decide_eq_true (hplain _ hhour c hc).2.1
    rw [splitOnce, slotTime, if_pos (by simp), List.takeWhile_append_of_pos hcolon,
      List.dropWhile_append_of_pos hcolon]
    simp
  have hchars : ∀ c ∈ slotTime slot, isWhitespace c = false ∧ c ≠ ',' := by
    intro c hc
    rcases List.mem_append.mp hc with hc | hc
    · exact ⟨(hplain _ hhour c hc).1, (hplain _ hhour c hc).2.2⟩
    · rcases List.mem_cons.mp hc with rfl | hc
      · decide
      · exact ⟨(hplain _ hminute c hc).1, (hplain _ hminute c hc).2.2⟩
  refine ⟨?_, trim_of_no_blank (fun c hc => (hchars c hc).1), ?_, ?_⟩
  · unfold parseDigestTime
    rw [hsplit, Option.getD_some]
    dsimp only
    rw [parseU32_twoDigits _ hhour,
      parseU32_twoDigits _ hminute]
    have hslot : (slot / 60 * 60 + slot % 60 + 5) / 10 * 10 % 1440 = slot := by omega
    have hday' : ¬ 24 ≤ slot / 60 := by omega
    have hhour' : ¬ 60 ≤ slot % 60 := by omega
    simp only [Option.bind_eq_bind, Option.bind_some, if_neg hday', if_neg hhour', hslot]
  · simp [slotTime]
  · intro hin
    exact (hchars ',' hin).2 rfl

theorem foldlM_slotTimes {rest : List Nat} (hboundary : ∀ slot ∈ rest, slot % 10 = 0)
    (hday : ∀ slot ∈ rest, slot < 1440) (hnodup : (slots ++ rest).Nodup) :
    (rest.map slotTime).foldlM addDigestTime slots = some (slots ++ rest) := by
  induction rest generalizing slots with
  | nil => simp
  | cons slot rest ih =>
      rw [List.forall_mem_cons] at hboundary hday
      obtain ⟨hparse, htrim, hne, -⟩ := slotTime_read hboundary.1 hday.1
      have hfresh : slot ∉ slots := by
        intro hmem
        exact (List.nodup_append.mp hnodup).2.2 slot hmem slot List.mem_cons_self rfl
      have hadd : addDigestTime slots (slotTime slot) = some (slots ++ [slot]) := by
        unfold addDigestTime
        simp only [htrim, hne, if_false, hparse, Option.bind_eq_bind, Option.bind_some, hfresh]
      rw [List.map_cons, List.foldlM_cons, hadd, Option.bind_eq_bind, Option.bind_some,
        ih hboundary.2 hday.2]
      · rw [List.append_assoc, List.singleton_append]
      · rw [List.append_assoc, List.singleton_append]
        exact hnodup

theorem parseDigestTimes_canonicalTimes (h : SlotList slots) :
    parseDigestTimes (canonicalTimes slots) = some slots := by
  have hsplit : (canonicalTimes slots).toList.splitOn ',' = slots.map slotTime := by
    unfold canonicalTimes
    rw [String.toList_ofList, List.splitOn_intercalate]
    · intro l hl
      obtain ⟨slot, hmem, rfl⟩ := List.mem_map.mp hl
      exact (slotTime_read (h.boundary slot hmem) (h.ofDay slot hmem)).2.2.2
    · rw [Ne, List.map_eq_nil_iff]
      exact h.nonempty
  have hnodup : ([] ++ slots).Nodup := h.increasing.imp (fun hlt => Nat.ne_of_lt hlt)
  have hfold := foldlM_slotTimes h.boundary h.ofDay hnodup
  have hsort : orderBy (· ≤ ·) slots = slots :=
    (h.increasing.imp (fun hlt => Nat.le_of_lt hlt)).insertionSort_eq
  have hten : ¬ 10 < slots.length := Nat.not_lt.mpr h.atMostTen
  unfold parseDigestTimes
  simp only [hsplit, hfold, Option.bind_eq_bind, Option.bind_some, List.nil_append, h.nonempty,
    if_false, hten, hsort]

end

/-! ## The slot that is due -/

section

variable {slots : List Nat} {now tzOffset l : Int}

theorem isGreatest_iff :
    IsGreatest (pastSlots slots now tzOffset) l ↔
      LatestSlot slots (now + tzOffset) (l + tzOffset) := by
  unfold LatestSlot
  constructor
  · rintro ⟨⟨hle, hslot⟩, hmax⟩
    refine ⟨hslot, by omega, fun l' hl' hle' => ?_⟩
    have hat : l' - tzOffset ∈ pastSlots slots now tzOffset :=
      ⟨by omega, by rwa [Int.sub_add_cancel]⟩
    have hbound := hmax hat
    omega
  · rintro ⟨hslot, hle, hmax⟩
    refine ⟨⟨by omega, hslot⟩, fun t ht => ?_⟩
    have hbound := hmax (t + tzOffset) ht.2 (by have := ht.1; omega)
    omega

/-- The due slot before it is cast. -/
theorem exists_isGreatest (now tzOffset : Int) (h : SlotList slots) :
    ∃ due, IsGreatest (pastSlots slots now tzOffset) due ∧
      latestDueDigestSlot slots now tzOffset =
        if i32Min ≤ due ∧ due ≤ i32Max then some due else none := by
  obtain ⟨l, hlatest, heq⟩ := exists_latestSlot now tzOffset h.nonempty h.ofDay
  refine ⟨l - tzOffset, ?_, heq⟩
  rw [isGreatest_iff, Int.sub_add_cancel]
  exact hlatest

/-- The slot that is due is the last instant with a slot. -/
theorem latestDueDigestSlot_iff (h : SlotList slots) :
    latestDueDigestSlot slots now tzOffset = some l ↔
      IsGreatest (pastSlots slots now tzOffset) l ∧ i32Min ≤ l ∧ l ≤ i32Max := by
  obtain ⟨due, hdue, heq⟩ := exists_isGreatest now tzOffset h
  rw [heq, Option.ite_none_right_eq_some, Option.some.injEq]
  constructor
  · rintro ⟨hmem, rfl⟩
    exact ⟨hdue, hmem⟩
  · rintro ⟨hl, hmem⟩
    have hsame := hl.unique hdue
    subst hsame
    exact ⟨hmem, rfl⟩

end

/-- The times that are stored are slots near the given ones and are read back, and the due slot of
any such list is the last instant that has one. -/
theorem digestTimes_right :
    (∀ input canonical slots, parseDigestTimesStored input = some (canonical, slots) →
      SlotList slots ∧ (∀ slot ∈ slots, ∃ time, Gives input time ∧ NearestBoundary time slot) ∧
        parseDigestTimesStored canonical = some (canonical, slots)) ∧
    ∀ slots, SlotList slots → ∀ now tzOffset : Int,
      (∃ l, IsGreatest (pastSlots slots now tzOffset) l) ∧
      ∀ l, latestDueDigestSlot slots now tzOffset = some l ↔
        IsGreatest (pastSlots slots now tzOffset) l ∧ i32Min ≤ l ∧ l ≤ i32Max := by
  constructor
  · intro input canonical slots h
    unfold parseDigestTimesStored at h
    obtain ⟨parsed, hparsed, heq⟩ := Option.map_eq_some_iff.mp h
    cases heq
    obtain ⟨hlist, hgiven⟩ := parseDigestTimes_spec hparsed
    refine ⟨hlist, hgiven, ?_⟩
    unfold parseDigestTimesStored
    rw [parseDigestTimes_canonicalTimes hlist, Option.map_some]
  · intro slots hlist now tzOffset
    obtain ⟨due, hdue, -⟩ := exists_isGreatest now tzOffset hlist
    exact ⟨⟨due, hdue⟩, fun l => latestDueDigestSlot_iff hlist⟩

/-- A minute before midnight is read as midnight and stored so. -/
theorem digestTimes_midnight :
    SlotList [0, 530] ∧
      parseDigestTimesStored "00:00,08:50" = some ("00:00,08:50", [0, 530]) ∧
      ∃ l, IsGreatest (pastSlots [0, 530] 100000 7200) l := by
  have hparse : parseDigestTimesStored "8:53, 23:59" = some ("00:00,08:50", [0, 530]) := by
    decide +kernel
  have hright := digestTimes_right.1 _ _ _ hparse
  exact ⟨hright.1, hright.2.2, (digestTimes_right.2 _ hright.1 100000 7200).1⟩

end Lightfriend.Proactive.DigestSlots
