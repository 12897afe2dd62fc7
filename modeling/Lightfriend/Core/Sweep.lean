import Mathlib.Data.Finset.Card
import Mathlib.Tactic

/-! # Sweeps over a changing collection

A sweep visits the elements of a collection in ascending order, in batches of at
most `limit`. All it keeps between two batches is a cursor, the last element of a
batch that did not reach the end; the collection may change in between, and the
element under the cursor may be gone.
-/

namespace Lightfriend.Sweep

variable {α : Type} [LinearOrder α]

/-- What of a sorted list lies behind the cursor. -/
def remaining (items : List α) : Option α → List α
  | none => items
  | some cursor => items.dropWhile (fun x => decide (x ≤ cursor))

def batch (limit : Nat) (items : List α) (cursor : Option α) : List α :=
  (remaining items cursor).take limit

/-- The cursor after a batch; there is none once a batch has taken all that remained. -/
def next (limit : Nat) (items : List α) (cursor : Option α) : Option α :=
  if (remaining items cursor).length ≤ limit then none else (batch limit items cursor).getLast?

section Batch

variable {limit : Nat} {items : List α} {cursor : Option α}

theorem remaining_sublist : (remaining items cursor).Sublist items := by
  cases cursor with
  | none => exact List.Sublist.refl _
  | some c => exact List.dropWhile_sublist _

theorem remaining_sorted (h : items.Pairwise (· < ·)) :
    (remaining items cursor).Pairwise (· < ·) :=
  h.sublist remaining_sublist

theorem batch_sublist : (batch limit items cursor).Sublist (remaining items cursor) :=
  List.take_sublist _ _

theorem batch_sorted (h : items.Pairwise (· < ·)) : (batch limit items cursor).Pairwise (· < ·) :=
  (remaining_sorted h).sublist batch_sublist

theorem mem_dropWhile_le {c x : α} (h : items.Pairwise (· < ·)) :
    x ∈ items.dropWhile (fun y => decide (y ≤ c)) ↔ x ∈ items ∧ c < x := by
  induction items with
  | nil => simp
  | cons head rest ih =>
      obtain ⟨hhead, hrest⟩ := List.pairwise_cons.mp h
      by_cases hle : head ≤ c
      · rw [List.dropWhile_cons_of_pos (by simpa using hle), ih hrest, List.mem_cons]
        constructor
        · exact fun ⟨hx, hlt⟩ => ⟨Or.inr hx, hlt⟩
        · rintro ⟨rfl | hx, hlt⟩
          · exact absurd hle (not_le.mpr hlt)
          · exact ⟨hx, hlt⟩
      · rw [List.dropWhile_cons_of_neg (by simpa using hle), List.mem_cons]
        constructor
        · rintro (rfl | hx)
          · exact ⟨Or.inl rfl, not_le.mp hle⟩
          · exact ⟨Or.inr hx, (not_le.mp hle).trans (hhead x hx)⟩
        · exact fun ⟨hx, _⟩ => hx

theorem mem_remaining {x : α} (h : items.Pairwise (· < ·)) :
    x ∈ remaining items cursor ↔ x ∈ items ∧ ∀ c ∈ cursor, c < x := by
  cases cursor with
  | none => simp [remaining]
  | some c => simpa [remaining] using mem_dropWhile_le h

/-- A batch after which there is no cursor has taken all that remained. -/
theorem batch_of_next_none (hlimit : 0 < limit) (h : next limit items cursor = none) :
    batch limit items cursor = remaining items cursor := by
  unfold next at h
  split at h
  next hle => exact List.take_of_length_le hle
  next hlt =>
    have hnil : batch limit items cursor = [] := List.getLast?_eq_none_iff.mp h
    have hlength : (batch limit items cursor).length = limit := by
      rw [batch, List.length_take]
      omega
    rw [hnil, List.length_nil] at hlength
    omega

theorem batch_length_of_next_some {c : α} (h : next limit items cursor = some c) :
    (batch limit items cursor).length = limit := by
  unfold next at h
  split at h
  next => cases h
  next hlt =>
    rw [batch, List.length_take]
    omega

/-- The new cursor is the greatest element of the batch. -/
theorem le_next {c x : α} (hsorted : items.Pairwise (· < ·))
    (h : next limit items cursor = some c) (hx : x ∈ batch limit items cursor) : x ≤ c := by
  have hlast : (batch limit items cursor).getLast? = some c := by
    unfold next at h
    split at h
    next => cases h
    next => exact h
  obtain ⟨front, hfront⟩ := List.getLast?_eq_some_iff.mp hlast
  have hordered : (batch limit items cursor).Pairwise (· < ·) := batch_sorted hsorted
  rw [hfront] at hx hordered
  rcases List.mem_append.mp hx with hx | hx
  · exact ((List.pairwise_append.mp hordered).2.2 x hx c (List.mem_singleton_self c)).le
  · exact (List.mem_singleton.mp hx).le

theorem next_mem_batch {c : α} (h : next limit items cursor = some c) :
    c ∈ batch limit items cursor := by
  unfold next at h
  split at h
  next => cases h
  next => exact List.mem_of_getLast? h

/-- What remained and was not taken lies behind the new cursor. -/
theorem mem_batch_or_next_lt {c x : α} (hsorted : items.Pairwise (· < ·))
    (h : next limit items cursor = some c) (hx : x ∈ remaining items cursor) :
    x ∈ batch limit items cursor ∨ c < x := by
  have hsplit : batch limit items cursor ++ (remaining items cursor).drop limit =
      remaining items cursor := List.take_append_drop _ _
  have hordered : (remaining items cursor).Pairwise (· < ·) := remaining_sorted hsorted
  rw [← hsplit] at hx hordered
  rcases List.mem_append.mp hx with hx | hx
  · exact Or.inl hx
  · exact Or.inr ((List.pairwise_append.mp hordered).2.2 c (next_mem_batch h) x hx)

end Batch

/-! ## The batches of a sequence of collections -/

/-- The cursor before a batch, starting from none. -/
def cursor (limit : Nat) (lists : Nat → List α) : Nat → Option α
  | 0 => none
  | n + 1 => next limit (lists n) (cursor limit lists n)

/-- All that the first batches have taken. -/
def selected (limit : Nat) (lists : Nat → List α) : Nat → List α
  | 0 => []
  | n + 1 => selected limit lists n ++ batch limit (lists n) (cursor limit lists n)

/-- The sweep has not ended with one of the first batches. -/
def Underway (limit : Nat) (lists : Nat → List α) (n : Nat) : Prop :=
  ∀ k < n, cursor limit lists (k + 1) ≠ none

section Sequence

variable {limit : Nat} {lists : Nat → List α} {n : Nat}

theorem Underway.of_succ (h : Underway limit lists (n + 1)) : Underway limit lists n :=
  fun k hk => h k (Nat.lt_succ_of_lt hk)

theorem Underway.next_cursor (h : Underway limit lists (n + 1)) :
    ∃ c, cursor limit lists (n + 1) = some c :=
  Option.ne_none_iff_exists'.mp (h n (Nat.lt_succ_self n))

theorem mem_selected {x : α} (h : x ∈ selected limit lists n) : ∃ k < n, x ∈ lists k := by
  induction n with
  | zero => cases h
  | succ n ih =>
      rcases List.mem_append.mp h with h | h
      · obtain ⟨k, hk, hx⟩ := ih h
        exact ⟨k, Nat.lt_succ_of_lt hk, hx⟩
      · exact ⟨n, Nat.lt_succ_self n, remaining_sublist.subset (batch_sublist.subset h)⟩

/-- All that was taken lies in front of the cursor. -/
theorem selected_le_cursor (hsorted : ∀ k, (lists k).Pairwise (· < ·))
    (h : Underway limit lists n) {x : α} (hx : x ∈ selected limit lists n) :
    ∃ c ∈ cursor limit lists n, x ≤ c := by
  induction n generalizing x with
  | zero => cases hx
  | succ n ih =>
      obtain ⟨c, hc⟩ := h.next_cursor
      refine ⟨c, hc, ?_⟩
      rcases List.mem_append.mp hx with hx | hx
      · obtain ⟨before, hbefore, hle⟩ := ih h.of_succ hx
        have hbehind : c ∈ remaining (lists n) (cursor limit lists n) :=
          batch_sublist.subset (next_mem_batch hc)
        exact hle.trans (((mem_remaining (hsorted n)).mp hbehind).2 before hbefore).le
      · exact le_next (hsorted n) hc hx

/-- A sweep takes its elements in strictly ascending order, its last batch included. -/
theorem selected_sorted (hsorted : ∀ k, (lists k).Pairwise (· < ·))
    (h : Underway limit lists n) : (selected limit lists (n + 1)).Pairwise (· < ·) := by
  have hstep : ∀ m, Underway limit lists m → (selected limit lists m).Pairwise (· < ·) →
      (selected limit lists (m + 1)).Pairwise (· < ·) := by
    intro m hm hordered
    apply List.pairwise_append.mpr
    refine ⟨hordered, batch_sorted (hsorted m), ?_⟩
    intro x hx y hy
    obtain ⟨c, hc, hle⟩ := selected_le_cursor hsorted hm hx
    have hbehind := (mem_remaining (hsorted m)).mp (batch_sublist.subset hy)
    exact hle.trans_lt (hbehind.2 c hc)
  induction n with
  | zero => exact hstep 0 h List.Pairwise.nil
  | succ n ih => exact hstep (n + 1) h (ih h.of_succ)

theorem selected_length (h : Underway limit lists n) :
    (selected limit lists n).length = n * limit := by
  induction n with
  | zero => simp [selected]
  | succ n ih =>
      obtain ⟨c, hc⟩ := h.next_cursor
      rw [selected, List.length_append, ih h.of_succ, batch_length_of_next_some hc]
      ring

/-- What was there all the time has been taken or still lies behind the cursor. -/
theorem mem_selected_or_cursor_lt (hsorted : ∀ k, (lists k).Pairwise (· < ·))
    (h : Underway limit lists n) {x : α} (hx : ∀ k < n, x ∈ lists k) :
    x ∈ selected limit lists n ∨ ∀ c ∈ cursor limit lists n, c < x := by
  induction n with
  | zero => exact Or.inr (fun c hc => by cases hc)
  | succ n ih =>
      rcases ih h.of_succ (fun k hk => hx k (Nat.lt_succ_of_lt hk)) with htaken | hbehind
      · exact Or.inl (List.mem_append_left _ htaken)
      · obtain ⟨c, hc⟩ := h.next_cursor
        have hremaining : x ∈ remaining (lists n) (cursor limit lists n) :=
          (mem_remaining (hsorted n)).mpr ⟨hx n (Nat.lt_succ_self n), hbehind⟩
        rcases mem_batch_or_next_lt (hsorted n) hc hremaining with hbatch | hlt
        · exact Or.inl (List.mem_append_right _ hbatch)
        · refine Or.inr (fun c' hc' => ?_)
          rw [hc, Option.mem_some_iff] at hc'
          exact hc' ▸ hlt

/-- A sweep that ends has taken all that was there all the time. -/
theorem mem_selected_of_ended (hlimit : 0 < limit) (hsorted : ∀ k, (lists k).Pairwise (· < ·))
    (h : Underway limit lists n) (hended : cursor limit lists (n + 1) = none) {x : α}
    (hx : ∀ k ≤ n, x ∈ lists k) : x ∈ selected limit lists (n + 1) := by
  rcases mem_selected_or_cursor_lt hsorted h (fun k hk => hx k hk.le) with htaken | hbehind
  · exact List.mem_append_left _ htaken
  · apply List.mem_append_right
    rw [batch_of_next_none hlimit hended]
    exact (mem_remaining (hsorted n)).mpr ⟨hx n le_rfl, hbehind⟩

/-- A sweep over the elements of a finite set ends as soon as its full batches exceed the set. -/
theorem exists_ended (hlimit : 0 < limit) (hsorted : ∀ k, (lists k).Pairwise (· < ·))
    (all : Finset α) (hall : ∀ k, ∀ x ∈ lists k, x ∈ all) :
    ∃ n ≤ all.card / limit, cursor limit lists (n + 1) = none := by
  by_contra hnone
  have hunderway : Underway limit lists (all.card / limit + 1) := by
    intro k hk hended
    exact hnone ⟨k, Nat.lt_succ_iff.mp hk, hended⟩
  have hnodup : (selected limit lists (all.card / limit + 1)).Nodup :=
    (selected_sorted hsorted hunderway.of_succ).imp (fun hlt => hlt.ne)
  have hsubset : (selected limit lists (all.card / limit + 1)).toFinset ⊆ all := by
    intro x hx
    obtain ⟨k, -, hmem⟩ := mem_selected (List.mem_toFinset.mp hx)
    exact hall k x hmem
  have hcard := Finset.card_le_card hsubset
  rw [List.toFinset_card_of_nodup hnodup, selected_length hunderway] at hcard
  have hdiv := Nat.lt_mul_of_div_lt (Nat.lt_succ_self (all.card / limit)) hlimit
  exact absurd hcard (not_le.mpr hdiv)

end Sequence

end Lightfriend.Sweep
