import Lightfriend.Core.ByteOrder
import Lightfriend.Prune.Pdu

/-! # The timeline index

The index holds one key for an event of a room: the room, the time and the count
of the event. A room is read, and cleared, by the keys that start with it.
-/

namespace Lightfriend.Prune

/-! ## Counts -/

/-- `i64::from_be_bytes`. -/
def countOf (count : Bytes) : Int := Int.bmod (fromBeBytes count) (2 ^ 64)

/-- What the key holds for a count is the count above the smallest one. -/
theorem biased_count (count : Bytes) :
    (((fromBeBytes count + 2 ^ 63) % 2 ^ 64 : Nat) : Int) = countOf count + 2 ^ 63 := by
  unfold countOf
  rw [Int.bmod_def]
  split <;> omega

example : countOf [0xFF, 0xFF, 0xFF, 0xFF, 0xFF, 0xFF, 0xFF, 0xF9] = -7 := by decide

theorem countOf_inj {count count' : Bytes} (h : count.length = 8) (h' : count'.length = 8)
    (heq : countOf count = countOf count') : count = count' := by
  have hlt := fromBeBytes_lt count
  have hlt' := fromBeBytes_lt count'
  have hbiased := biased_count count
  have hbiased' := biased_count count'
  rw [h] at hlt
  rw [h'] at hlt'
  exact fromBeBytes_inj h h' (by omega)

/-! ## Keys -/

/-- An event of the timeline, with the fields of the width they have. -/
structure TimelineEntry where
  roomId : String
  originServerTs : Nat
  count : Bytes
  ts_lt : originServerTs < 2 ^ 64
  count_length : count.length = 8

namespace TimelineEntry

variable {entry other : TimelineEntry}

/-- The order of the events of a room: by the time, and by the count at one time. -/
def Before (entry other : TimelineEntry) : Prop :=
  entry.originServerTs < other.originServerTs ∨
    entry.originServerTs = other.originServerTs ∧ countOf entry.count < countOf other.count

def key (entry : TimelineEntry) : Bytes :=
  timelineIndexKey entry.roomId entry.originServerTs entry.count

/-- The number that the key ends with. -/
def biasedCount (entry : TimelineEntry) : Nat := (fromBeBytes entry.count + 2 ^ 63) % 2 ^ 64

theorem biasedCount_lt (entry : TimelineEntry) : entry.biasedCount < 2 ^ 64 :=
  Nat.mod_lt _ (by decide)

/-- What the key holds behind the room. -/
def behindRoom (entry : TimelineEntry) : Bytes :=
  toBeBytes entry.originServerTs ++ ([0xFF] ++ toBeBytes entry.biasedCount)

theorem key_eq (entry : TimelineEntry) :
    entry.key = asBytes entry.roomId ++ 0xFF :: entry.behindRoom := by
  simp [key, timelineIndexKey, behindRoom, biasedCount]

/-- The keys that start with a room and the end of its name are the keys of the room. -/
theorem isPrefix_key_iff (room : String) (entry : TimelineEntry) :
    asBytes room ++ [0xFF] <+: entry.key ↔ entry.roomId = room := by
  rw [key_eq, append_singleton_isPrefix_iff (ff_not_mem_asBytes _) (ff_not_mem_asBytes _)]
  exact ⟨fun h => (asBytes_inj h).symm, fun h => h ▸ rfl⟩

theorem behindRoom_lt_iff : entry.behindRoom < other.behindRoom ↔ entry.Before other := by
  have hcount := biased_count entry.count
  have hcount' := biased_count other.count
  have hbiased : entry.biasedCount < other.biasedCount ↔
      countOf entry.count < countOf other.count := by
    unfold biasedCount
    omega
  rw [behindRoom, behindRoom, append_lt_append_iff (by rw [toBeBytes_length, toBeBytes_length]),
    append_lt_append_iff rfl, toBeBytes_lt_iff entry.ts_lt other.ts_lt,
    toBeBytes_inj entry.ts_lt other.ts_lt,
    toBeBytes_lt_iff entry.biasedCount_lt other.biasedCount_lt, hbiased]
  simp [Before]

theorem key_lt_iff (h : entry.roomId = other.roomId) :
    entry.key < other.key ↔ entry.Before other := by
  rw [key_eq, key_eq, h, append_lt_append_iff rfl, List.cons_lt_cons_iff, behindRoom_lt_iff]
  simp

theorem key_injective : Function.Injective key := by
  intro entry other h
  have hroom : entry.roomId = other.roomId := by
    have hstart : asBytes other.roomId ++ [0xFF] <+: entry.key := by
      rw [h]
      exact (isPrefix_key_iff _ other).mpr rfl
    exact (isPrefix_key_iff _ entry).mp hstart
  have hbehind : entry.behindRoom = other.behindRoom := by
    rw [key_eq, key_eq, hroom] at h
    exact (List.cons.inj (List.append_cancel_left h)).2
  obtain ⟨hts, hrest⟩ := List.append_inj hbehind (by rw [toBeBytes_length, toBeBytes_length])
  have hbiased := (toBeBytes_inj entry.biasedCount_lt other.biasedCount_lt).mp
    (List.append_cancel_left hrest)
  have hcount : countOf entry.count = countOf other.count := by
    have hentry := biased_count entry.count
    have hother := biased_count other.count
    unfold biasedCount at hbiased
    omega
  obtain ⟨roomId, ts, count, ts_lt, count_length⟩ := entry
  obtain ⟨roomId', ts', count', ts_lt', count_length'⟩ := other
  obtain rfl : roomId = roomId' := hroom
  obtain rfl : ts = ts' := (toBeBytes_inj ts_lt ts_lt').mp hts
  obtain rfl : count = count' := countOf_inj count_length count_length' hcount
  rfl

end TimelineEntry

/-- What scans of the index, and what clears it, go by. -/
structure IsTimelineIndex : Prop where
  injective : Function.Injective TimelineEntry.key
  ordered : ∀ entry other : TimelineEntry, entry.roomId = other.roomId →
    (entry.key < other.key ↔ entry.Before other)
  room : ∀ (room : String) (entry : TimelineEntry),
    asBytes room ++ [0xFF] <+: entry.key ↔ entry.roomId = room

theorem timeline_index : IsTimelineIndex where
  injective := TimelineEntry.key_injective
  ordered := fun _ _ h => TimelineEntry.key_lt_iff h
  room := TimelineEntry.isPrefix_key_iff

end Lightfriend.Prune
