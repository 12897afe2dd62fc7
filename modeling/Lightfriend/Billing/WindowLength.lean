import Lightfriend.Billing.UsageWindow

/-! # The length of the current window

The windows of a user follow one another without a gap, each of the same
length, as long as the sums stay in 32 bits. Near the last timestamp a window is
cut short, and at the last timestamp the loop spins.
-/

namespace Lightfriend.Billing

variable {now s : Int}

/-- The windows that the rows hold: none, or one that has begun and has its full length. -/
def StoredWindow (now : Int) (currentStart currentEnd : Option Int) : Prop :=
  currentStart = none ∨ currentEnd = none ∨
    ∃ start, currentStart = some start ∧ 0 < start ∧ start ≤ now ∧
      currentEnd = some (start + includedUsageWindowSeconds) ∧
        start + includedUsageWindowSeconds ≤ i32Max

/-- Where the windows are counted from: the stored start, or now. -/
def windowOrigin (now : Int) (currentStart currentEnd : Option Int) : Int :=
  match currentStart, currentEnd with
  | some start, some _ => start
  | _, _ => now

/-- The end of the window around `now`, of those that follow one another from `origin`. -/
def windowEndAround (now origin : Int) : Int :=
  origin + ((now - origin) / includedUsageWindowSeconds + 1) * includedUsageWindowSeconds

/-- A window of full length around `now`, in step with the stored one, and new when it should
be. -/
def CurrentWindow (now : Int) (currentStart currentEnd : Option Int) : Prop :=
  ∃ window reset, currentIncludedUsageWindow now currentStart currentEnd = some (window, reset) ∧
    window.start ≤ now ∧ now < window.ends ∧
    window.ends = window.start + includedUsageWindowSeconds ∧
    (∀ start ends, currentStart = some start → currentEnd = some ends →
      ∃ k : Int, window.start = start + k * includedUsageWindowSeconds) ∧
    (reset = true ↔
      currentStart = none ∨ currentEnd = none ∨ ∃ ends, currentEnd = some ends ∧ ends ≤ now)

/-! ## The loop -/

theorem saturatingAdd_le (a b : Int) : saturatingAdd a b ≤ i32Max :=
  max_le (by decide) (min_le_left _ _)

/-- At the last timestamp every window has ended, after any number of rounds. -/
theorem rollWindow_spins (fuel : Nat) {window : IncludedUsageWindow} (h : window.ends ≤ i32Max) :
    rollWindow i32Max fuel window = none := by
  induction fuel generalizing window with
  | zero => rfl
  | succ fuel ih =>
      rw [rollWindow, if_pos h]
      exact ih (saturatingAdd_le _ _)

/-- No window ends after the last timestamp. -/
theorem rollWindow_ends_le {fuel : Nat} {window w : IncludedUsageWindow}
    (h : rollWindow now fuel window = some w) (hends : window.ends ≤ i32Max) :
    w.ends ≤ i32Max := by
  induction fuel generalizing window with
  | zero => cases h
  | succ fuel ih =>
      rw [rollWindow] at h
      split at h
      next => exact ih h (saturatingAdd_le _ _)
      next =>
        cases h
        exact hends

theorem saturatingAdd_window {a : Int} (hpos : 0 < a)
    (h : a + includedUsageWindowSeconds ≤ i32Max) :
    saturatingAdd a includedUsageWindowSeconds = a + includedUsageWindowSeconds := by
  unfold saturatingAdd clampI32
  rw [min_eq_right h, max_eq_right]
  simp only [includedUsageWindowSeconds, i32Min]
  omega

/-- The window around `now` holds it, and no other in step does. -/
theorem windowEndAround_eq_iff (now origin : Int) (k : Int) :
    windowEndAround now origin = origin + (k + 1) * includedUsageWindowSeconds ↔
      origin + k * includedUsageWindowSeconds ≤ now ∧
        now < origin + (k + 1) * includedUsageWindowSeconds := by
  simp only [windowEndAround, includedUsageWindowSeconds]
  omega

/-- Where the window around `now` ends in 32 bits, the loop finds it, `rounds` windows on. -/
theorem rollWindow_around {fuel : Nat} {window : IncludedUsageWindow} (rounds : Nat)
    (hround : windowEndAround now window.start =
      window.start + (rounds + 1) * includedUsageWindowSeconds)
    (hfits : windowEndAround now window.start ≤ i32Max) (hfuel : rounds < fuel)
    (hpos : 0 < window.start) (hends : window.ends = window.start + includedUsageWindowSeconds) :
    rollWindow now fuel window =
      some ⟨window.start + rounds * includedUsageWindowSeconds,
        window.start + (rounds + 1) * includedUsageWindowSeconds⟩ := by
  rw [hround] at hfits
  induction rounds generalizing fuel window with
  | zero =>
      have haround := (windowEndAround_eq_iff now window.start 0).mp (by simpa using hround)
      obtain ⟨fuel, rfl⟩ : ∃ m, fuel = m + 1 := ⟨fuel - 1, by omega⟩
      obtain ⟨start, ends⟩ := window
      simp only at hends haround
      rw [rollWindow, if_neg (by simp only; omega), hends]
      simp
  | succ rounds ih =>
      have haround := (windowEndAround_eq_iff now window.start (rounds + 1 : Nat)).mp hround
      obtain ⟨fuel, rfl⟩ : ∃ m, fuel = m + 1 := ⟨fuel - 1, by omega⟩
      have hlater : window.start + includedUsageWindowSeconds +
          (rounds + 1) * includedUsageWindowSeconds =
            window.start + (((rounds + 1 : Nat) : Int) + 1) * includedUsageWindowSeconds := by
        push_cast
        ring
      have hseconds : includedUsageWindowSeconds = 2592000 := rfl
      rw [← hlater] at hfits haround
      push_cast at haround
      have hrest := @ih fuel ⟨window.ends, window.ends + includedUsageWindowSeconds⟩
        ((windowEndAround_eq_iff now _ _).mpr ?_) ?_ (by omega) ?_ rfl
      · have hnext : saturatingAdd window.ends includedUsageWindowSeconds =
            window.ends + includedUsageWindowSeconds :=
          saturatingAdd_window (by omega) (by rw [hseconds] at hfits ⊢; omega)
        rw [rollWindow, if_pos (by rw [hseconds] at haround hends; omega), hnext, hrest, ← hlater]
        simp only [hends, Option.some.injEq, IncludedUsageWindow.mk.injEq, and_true]
        push_cast
        ring
      · simp only [hends]
        rw [hseconds] at haround ⊢
        omega
      · simp only [hends]
        exact hfits
      · simp only
        omega

/-! ## The window of a row -/

theorem currentIncludedUsageWindow_absent {currentStart currentEnd : Option Int}
    (h : currentStart = none ∨ currentEnd = none) :
    currentIncludedUsageWindow now currentStart currentEnd =
      some (⟨now, saturatingAdd now includedUsageWindowSeconds⟩, true) := by
  unfold currentIncludedUsageWindow
  obtain rfl | rfl := h
  · rfl
  · cases currentStart <;> rfl

theorem currentIncludedUsageWindow_stored {start : Int} (hpos : 0 < start) :
    currentIncludedUsageWindow now (some start) (some (start + includedUsageWindowSeconds)) =
      if now < start + includedUsageWindowSeconds then
        some (⟨start, start + includedUsageWindowSeconds⟩, false)
      else (rollWindow now (rollRounds now) ⟨start, start + includedUsageWindowSeconds⟩).map
        (fun window => (window, true)) := by
  have hproper : 0 < start ∧ start < start + includedUsageWindowSeconds := by
    simp only [includedUsageWindowSeconds]
    omega
  unfold currentIncludedUsageWindow
  simp only
  rw [if_pos hproper]

/-- What the model tells as spinning is a loop that no number of rounds ends. -/
theorem currentIncludedUsageWindow_spins {currentStart currentEnd : Option Int}
    (hmax : now ≤ i32Max) (hstored : StoredWindow now currentStart currentEnd)
    (h : currentIncludedUsageWindow now currentStart currentEnd = none) :
    ∃ start, currentStart = some start ∧
      ∀ rounds, rollWindow now rounds ⟨start, start + includedUsageWindowSeconds⟩ = none := by
  obtain hnone | hnone | ⟨start, rfl, hpos, hstart, rfl, hends⟩ := hstored
  · rw [currentIncludedUsageWindow_absent (.inl hnone)] at h
    cases h
  · rw [currentIncludedUsageWindow_absent (.inr hnone)] at h
    cases h
  · refine ⟨start, rfl, fun rounds => ?_⟩
    have hlast : now = i32Max := by
      by_contra hne
      have hsome := currentIncludedUsageWindow_isSome (some start)
        (some (start + includedUsageWindowSeconds)) (show 0 < now by omega) (by omega)
      rw [h] at hsome
      cases hsome
    rw [hlast]
    exact rollWindow_spins rounds hends

/-- No window of a row ends after the last timestamp. -/
theorem currentIncludedUsageWindow_ends_le {currentStart currentEnd : Option Int}
    {window : IncludedUsageWindow} {reset : Bool}
    (hstored : StoredWindow now currentStart currentEnd)
    (h : currentIncludedUsageWindow now currentStart currentEnd = some (window, reset)) :
    window.ends ≤ i32Max := by
  have hfresh : currentStart = none ∨ currentEnd = none → window.ends ≤ i32Max := by
    intro habsent
    rw [currentIncludedUsageWindow_absent habsent] at h
    cases h
    exact saturatingAdd_le _ _
  obtain hnone | hnone | ⟨start, rfl, hpos, hstart, rfl, hends⟩ := hstored
  · exact hfresh (.inl hnone)
  · exact hfresh (.inr hnone)
  · rw [currentIncludedUsageWindow_stored hpos] at h
    split at h
    next =>
      cases h
      exact hends
    next =>
      obtain ⟨w, hroll, hw⟩ := Option.map_eq_some_iff.mp h
      cases hw
      exact rollWindow_ends_le hroll hends

/-- A row without a window starts one at `now`. -/
theorem currentWindow_absent {currentStart currentEnd : Option Int} (hmin : i32Min ≤ now)
    (habsent : currentStart = none ∨ currentEnd = none)
    (hfits : now + includedUsageWindowSeconds ≤ i32Max) :
    CurrentWindow now currentStart currentEnd := by
  have hsum : saturatingAdd now includedUsageWindowSeconds = now + includedUsageWindowSeconds := by
    unfold saturatingAdd clampI32
    rw [min_eq_right hfits, max_eq_right]
    simp only [includedUsageWindowSeconds]
    omega
  refine ⟨_, true, currentIncludedUsageWindow_absent habsent, le_refl _, ?_, hsum, ?_, ?_⟩
  · calc now < now + includedUsageWindowSeconds := by simp only [includedUsageWindowSeconds]; omega
      _ = _ := hsum.symm
  · rintro start ends rfl rfl
    cases habsent <;> contradiction
  · exact iff_of_true rfl (habsent.imp_right .inl)

/-- A stored window is kept, or moved on by whole windows. -/
theorem currentWindow_stored {start : Int} (hpos : 0 < start) (hstart : start ≤ now)
    (hfits : windowEndAround now start ≤ i32Max) :
    CurrentWindow now (some start) (some (start + includedUsageWindowSeconds)) := by
  have hseconds : includedUsageWindowSeconds = 2592000 := rfl
  by_cases hcurrent : now < start + includedUsageWindowSeconds
  · refine ⟨_, false, by rw [currentIncludedUsageWindow_stored hpos, if_pos hcurrent], hstart,
      hcurrent, rfl, ?_, ?_⟩
    · rintro _ _ ⟨⟩ -
      exact ⟨0, by simp⟩
    · simp only [Bool.false_eq_true, reduceCtorEq, Option.some.injEq, exists_eq_left', false_or,
        false_iff]
      omega
  · obtain ⟨rounds, hrounds⟩ : ∃ rounds : Nat,
        (now - start) / includedUsageWindowSeconds = rounds :=
      ⟨((now - start) / includedUsageWindowSeconds).toNat, by rw [hseconds]; omega⟩
    have hround : windowEndAround now start =
        start + (rounds + 1) * includedUsageWindowSeconds := by
      rw [windowEndAround, hrounds]
    have haround := (windowEndAround_eq_iff now start rounds).mp hround
    have hfuel : rounds < rollRounds now := by
      unfold rollRounds
      rw [hseconds] at hrounds ⊢
      omega
    have hroll := @rollWindow_around now (rollRounds now)
      ⟨start, start + includedUsageWindowSeconds⟩ rounds hround hfits hfuel hpos rfl
    refine ⟨_, true, by rw [currentIncludedUsageWindow_stored hpos, if_neg hcurrent, hroll]; rfl,
      haround.1, haround.2, ?_, ?_, ?_⟩
    · simp only
      ring
    · rintro _ _ ⟨⟩ -
      exact ⟨rounds, rfl⟩
    · simp only [reduceCtorEq, Option.some.injEq, exists_eq_left', false_or, true_iff]
      omega

/-- The current window is as it should be exactly where the window around `now` ends in 32
bits. -/
theorem currentWindow_iff {currentStart currentEnd : Option Int} (hmin : i32Min ≤ now)
    (hstored : StoredWindow now currentStart currentEnd) :
    CurrentWindow now currentStart currentEnd ↔
      windowEndAround now (windowOrigin now currentStart currentEnd) ≤ i32Max := by
  have hnow : windowEndAround now now = now + includedUsageWindowSeconds := by
    simp [windowEndAround]
  have horigin : currentStart = none ∨ currentEnd = none →
      windowOrigin now currentStart currentEnd = now := by
    rintro (rfl | rfl)
    · rfl
    · cases currentStart <;> rfl
  constructor
  · rintro ⟨window, reset, hwindow, hstart, hends, hlength, haligned, -⟩
    have hle := currentIncludedUsageWindow_ends_le hstored hwindow
    have hfresh : currentStart = none ∨ currentEnd = none →
        windowEndAround now (windowOrigin now currentStart currentEnd) ≤ i32Max := by
      intro habsent
      rw [currentIncludedUsageWindow_absent habsent] at hwindow
      cases hwindow
      rw [horigin habsent, hnow]
      exact hlength ▸ hle
    obtain hnone | hnone | ⟨start, rfl, hpos, -, rfl, -⟩ := hstored
    · exact hfresh (.inl hnone)
    · exact hfresh (.inr hnone)
    · obtain ⟨k, hk⟩ := haligned _ _ rfl rfl
      have hnext : window.ends = start + (k + 1) * includedUsageWindowSeconds := by
        rw [hlength, hk]
        ring
      have haround := (windowEndAround_eq_iff now start k).mpr ⟨hk ▸ hstart, hnext ▸ hends⟩
      rw [windowOrigin, haround, ← hnext]
      exact hle
  · intro hfits
    obtain hnone | hnone | ⟨start, rfl, hpos, hstart, rfl, -⟩ := hstored
    · rw [horigin (.inl hnone), hnow] at hfits
      exact currentWindow_absent hmin (.inl hnone) hfits
    · rw [horigin (.inr hnone), hnow] at hfits
      exact currentWindow_absent hmin (.inr hnone) hfits
    · exact currentWindow_stored hpos hstart hfits

theorem currentWindow_second : CurrentWindow 1765000000 (some 1759000000) (some 1761592000) :=
  (currentWindow_iff (by decide) (.inr (.inr ⟨1759000000, by decide⟩))).mpr (by decide)

/-- A window that begins in the last days of the 32 bits is cut short, and at the last timestamp
the loop spins. -/
theorem currentWindow_cut :
    ¬ CurrentWindow 2147000000 none none ∧
    StoredWindow 2147483647 (some 2144000000) (some 2146592000) ∧
    currentIncludedUsageWindow 2147483647 (some 2144000000) (some 2146592000) = none ∧
    ¬ CurrentWindow 2147483647 (some 2144000000) (some 2146592000) := by
  have hspins : currentIncludedUsageWindow 2147483647 (some 2144000000) (some 2146592000) =
      none := by
    refine (@currentIncludedUsageWindow_stored 2147483647 2144000000 (by decide)).trans ?_
    rw [if_neg (by decide)]
    exact congrArg (Option.map _) (rollWindow_spins _ (by decide))
  refine ⟨?_, .inr (.inr ⟨2144000000, by decide⟩), hspins, ?_⟩
  · rintro ⟨window, reset, hwindow, -, -, hlength, -⟩
    rw [currentIncludedUsageWindow_absent (.inl rfl)] at hwindow
    cases hwindow
    revert hlength
    decide
  · rintro ⟨window, reset, hwindow, -⟩
    rw [hspins] at hwindow
    cases hwindow

end Lightfriend.Billing
