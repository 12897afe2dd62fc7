import Lightfriend.Core.Machine
import Lightfriend.Core.Sweep
import Mathlib.Data.String.Basic

/-! # The portal room census

Every census call lists the rooms of a bridge anew and records one batch of them.
Between two calls only the room id at the end of the last batch is kept, and rooms
may have come or gone since.
-/

namespace Lightfriend.Purge

/-- `slice::partition_point`. -/
def partitionPoint {α : Type} (items : List α) (pred : α → Bool) : Nat :=
  (items.takeWhile pred).length

def selectPortalCensusRoomBatch (sortedRoomIds : List String) (cursor : Option String)
    (limit : Nat) : List String × Option String :=
  if sortedRoomIds.isEmpty || limit == 0 then ([], none)
  else
    let start := match cursor with
      | some cursor => partitionPoint sortedRoomIds (fun roomId => decide (roomId ≤ cursor))
      | none => 0
    let selected := (sortedRoomIds.drop (min start sortedRoomIds.length)).take limit
    let nextCursor :=
      if start + selected.length < sortedRoomIds.length then selected.getLast? else none
    (selected, nextCursor)

/-- The room ids that `run_portal_room_census` gets from a bridge: sorted, each of them once. -/
def portalRoomIds (rooms : List String) : List String :=
  ((rooms.filter (fun roomId => startsWithText roomId "!")).mergeSort (· ≤ ·)).dedup

theorem portalRoomIds_sorted (rooms : List String) : (portalRoomIds rooms).Pairwise (· < ·) := by
  have hle : (portalRoomIds rooms).Pairwise (· ≤ ·) :=
    (List.pairwise_mergeSort' (r := (· ≤ ·)) _).sublist (List.dedup_sublist _)
  have hne : (portalRoomIds rooms).Pairwise (· ≠ ·) := List.nodup_dedup _
  exact hle.imp₂ (fun _ _ hab hdiff => lt_of_le_of_ne hab hdiff) hne

/-! ## The batches are those of a sweep -/

theorem drop_partitionPoint {α : Type} (items : List α) (pred : α → Bool) :
    items.drop (partitionPoint items pred) = items.dropWhile pred := by
  have hsplit : items.takeWhile pred ++ items.dropWhile pred = items :=
    List.takeWhile_append_dropWhile
  calc items.drop (partitionPoint items pred)
      = (items.takeWhile pred ++ items.dropWhile pred).drop (items.takeWhile pred).length := by
        rw [hsplit]
        rfl
    _ = items.dropWhile pred := List.drop_left

theorem partitionPoint_le {α : Type} (items : List α) (pred : α → Bool) :
    partitionPoint items pred ≤ items.length :=
  (List.takeWhile_sublist pred).length_le

/-- A batch that starts at some place of the list. -/
theorem select_from {items remaining : List String} {start limit : Nat}
    (hstart : start ≤ items.length) (hdrop : items.drop start = remaining) :
    (if start + ((items.drop (min start items.length)).take limit).length < items.length then
        ((items.drop (min start items.length)).take limit).getLast?
      else none) =
      if remaining.length ≤ limit then none else (remaining.take limit).getLast? := by
  have hlength : remaining.length = items.length - start := by
    rw [← hdrop, List.length_drop]
  rw [Nat.min_eq_left hstart, hdrop, List.length_take]
  by_cases hle : remaining.length ≤ limit
  · rw [if_pos hle, if_neg (by omega)]
  · rw [if_neg hle, if_pos (by omega)]

theorem selectPortalCensusRoomBatch_eq {limit : Nat} (hlimit : 0 < limit) (items : List String)
    (cursor : Option String) :
    selectPortalCensusRoomBatch items cursor limit =
      (Sweep.batch limit items cursor, Sweep.next limit items cursor) := by
  unfold selectPortalCensusRoomBatch
  cases items with
  | nil =>
      have hnil : Sweep.remaining ([] : List String) cursor = [] := by cases cursor <;> rfl
      simp [Sweep.batch, Sweep.next, hnil]
  | cons head rest =>
      have hcond : ((head :: rest).isEmpty || limit == 0) = false := by simp; omega
      rw [hcond]
      cases cursor with
      | none =>
          have hnext := @select_from (head :: rest) _ 0 limit (Nat.zero_le _) List.drop_zero
          exact Prod.ext (by simp [Sweep.batch, Sweep.remaining]) hnext
      | some cursor =>
          have hle := partitionPoint_le (head :: rest) (fun roomId => decide (roomId ≤ cursor))
          have hdrop := drop_partitionPoint (head :: rest) (fun roomId => decide (roomId ≤ cursor))
          have hnext := @select_from _ _ _ limit hle hdrop
          refine Prod.ext ?_ hnext
          simp only [Bool.false_eq_true, if_false]
          rw [Nat.min_eq_left hle, hdrop]
          rfl

/-- The cursor after the first calls of a census that begins without one. -/
def roomCursor (limit : Nat) (lists : Nat → List String) : Nat → Option String
  | 0 => none
  | n + 1 => (selectPortalCensusRoomBatch (lists n) (roomCursor limit lists n) limit).2

/-- The rooms that a call selects. -/
def roomBatch (limit : Nat) (lists : Nat → List String) (n : Nat) : List String :=
  (selectPortalCensusRoomBatch (lists n) (roomCursor limit lists n) limit).1

/-- The rooms that the first calls select, in order. -/
def selectedRooms (limit : Nat) (lists : Nat → List String) : Nat → List String
  | 0 => []
  | n + 1 => selectedRooms limit lists n ++ roomBatch limit lists n

/-- The calls so far have left a cursor, so that the next one belongs to the same sweep. -/
def SweepGoesOn (limit : Nat) (lists : Nat → List String) (n : Nat) : Prop :=
  ∀ k < n, roomCursor limit lists (k + 1) ≠ none

section Sweep

variable {limit : Nat} (hlimit : 0 < limit) (lists : Nat → List String)

include hlimit

theorem roomCursor_eq (n : Nat) : roomCursor limit lists n = Sweep.cursor limit lists n := by
  induction n with
  | zero => rfl
  | succ n ih => rw [roomCursor, selectPortalCensusRoomBatch_eq hlimit, ih, Sweep.cursor]

theorem selectedRooms_eq (n : Nat) :
    selectedRooms limit lists n = Sweep.selected limit lists n := by
  induction n with
  | zero => rfl
  | succ n ih =>
      rw [selectedRooms, roomBatch, selectPortalCensusRoomBatch_eq hlimit, ih,
        roomCursor_eq hlimit, Sweep.selected]

theorem sweepGoesOn_iff (n : Nat) :
    SweepGoesOn limit lists n ↔ Sweep.Underway limit lists n := by
  simp only [SweepGoesOn, Sweep.Underway, roomCursor_eq hlimit]

end Sweep

/-- A sweep selects no room twice, and every room that all its lists have exactly once; it ends
after at most as many full batches as fit into the set that the rooms are from. -/
theorem portal_census_covers_every_room (limit : Nat) (hlimit : 1 ≤ limit)
    (lists : Nat → List String) (hsorted : ∀ n, (lists n).Pairwise (· < ·)) :
    (∀ n, SweepGoesOn limit lists n → (selectedRooms limit lists (n + 1)).Nodup) ∧
    (∀ n, SweepGoesOn limit lists n → roomCursor limit lists (n + 1) = none →
      ∀ room, (∀ k ≤ n, room ∈ lists k) →
        (selectedRooms limit lists (n + 1)).count room = 1) ∧
    (∀ n, SweepGoesOn limit lists n → (selectedRooms limit lists n).length = n * limit) ∧
    ∀ rooms : Finset String, (∀ n, ∀ room ∈ lists n, room ∈ rooms) →
      ∃ n ≤ rooms.card / limit, roomCursor limit lists (n + 1) = none := by
  simp only [sweepGoesOn_iff hlimit, selectedRooms_eq hlimit, roomCursor_eq hlimit]
  have hnodup : ∀ n, Sweep.Underway limit lists n → (Sweep.selected limit lists (n + 1)).Nodup :=
    fun n h => (Sweep.selected_sorted hsorted h).imp (fun hlt => hlt.ne)
  refine ⟨hnodup, ?_, fun n => Sweep.selected_length, Sweep.exists_ended hlimit hsorted⟩
  intro n h hended room hroom
  exact List.count_eq_one_of_mem (hnodup n h) (Sweep.mem_selected_of_ended hlimit hsorted h hended hroom)

theorem portal_census_covers_every_room_of_two_lists :
    (∀ n, SweepGoesOn 1 (fun _ => ["!a", "!b"]) n →
      (selectedRooms 1 (fun _ => ["!a", "!b"]) (n + 1)).Nodup) ∧
    (∀ n, SweepGoesOn 1 (fun _ => ["!a", "!b"]) n →
      roomCursor 1 (fun _ => ["!a", "!b"]) (n + 1) = none →
      ∀ room, (∀ k ≤ n, room ∈ (fun _ : Nat => ["!a", "!b"]) k) →
        (selectedRooms 1 (fun _ => ["!a", "!b"]) (n + 1)).count room = 1) ∧
    (∀ n, SweepGoesOn 1 (fun _ => ["!a", "!b"]) n →
      (selectedRooms 1 (fun _ => ["!a", "!b"]) n).length = n * 1) ∧
    ∀ rooms : Finset String, (∀ n, ∀ room ∈ (fun _ : Nat => ["!a", "!b"]) n, room ∈ rooms) →
      ∃ n ≤ rooms.card / 1, roomCursor 1 (fun _ => ["!a", "!b"]) (n + 1) = none :=
  portal_census_covers_every_room 1 le_rfl (fun _ => ["!a", "!b"]) (fun _ => by decide)

/-! ## A sweep without an end -/

/-- Room ids each of which sorts behind the one before. -/
def laterRoom (n : Nat) : String := String.ofList ('!' :: List.replicate n 'a')

theorem replicate_lt_succ (n : Nat) : List.replicate n 'a' < List.replicate (n + 1) 'a' := by
  induction n with
  | zero => exact List.Lex.nil
  | succ n ih => exact List.Lex.cons ih

theorem laterRoom_lt (n : Nat) : laterRoom n < laterRoom (n + 1) := by
  rw [String.lt_iff_toList_lt, laterRoom, laterRoom, String.toList_ofList, String.toList_ofList]
  exact List.Lex.cons (replicate_lt_succ n)

/-- Between two calls the first of two rooms goes and a later one comes. -/
def movingRooms (n : Nat) : List String := [laterRoom n, laterRoom (n + 1)]

theorem movingRooms_cursor (n : Nat) :
    roomCursor 1 movingRooms (n + 1) = some (laterRoom n) := by
  rw [roomCursor_eq Nat.one_pos]
  induction n with
  | zero => rfl
  | succ n ih =>
      have hle : ¬ laterRoom (n + 1) ≤ laterRoom n := not_le.mpr (laterRoom_lt n)
      rw [Sweep.cursor, ih]
      simp [Sweep.next, Sweep.batch, Sweep.remaining, movingRooms, hle]

/-- Lists of two rooms, and the sweep never ends. -/
theorem portal_census_sweep_may_not_end :
    ¬ ∀ (limit size : Nat), 1 ≤ limit → ∀ lists : Nat → List String,
      (∀ n, (lists n).Pairwise (· < ·)) → (∀ n, (lists n).length ≤ size) →
        ∃ n, roomCursor limit lists (n + 1) = none := by
  intro hends
  have hsorted : ∀ n, (movingRooms n).Pairwise (· < ·) := by
    intro n
    simpa [movingRooms] using laterRoom_lt n
  obtain ⟨n, hn⟩ := hends 1 2 le_rfl movingRooms hsorted (fun _ => le_rfl)
  rw [movingRooms_cursor] at hn
  cases hn

end Lightfriend.Purge
