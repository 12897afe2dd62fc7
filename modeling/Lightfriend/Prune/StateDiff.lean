import Lightfriend.Core.Bytes

/-! # State diffs

The homeserver stores every room state as a difference to a parent state: the
parent's hash, the added compressed state events, and after a separator the
removed ones. A compressed state event is a short state key and a short event
id, eight bytes each.
-/

namespace Lightfriend.Prune

def compressedStateEventBytes : Nat := 16

abbrev CompressedStateEvent := { bytes : Bytes // bytes.length = compressedStateEventBytes }

structure StateDiff where
  parent : Option Nat
  added : List CompressedStateEvent
  removed : List CompressedStateEvent
deriving DecidableEq

def zeroWord : Bytes := List.replicate 8 0

/-! ## Reading -/

/-- The entries after the parent hash; `fuel` is the number of bytes left. -/
def parseEntries : Nat → Nat → Bool → StateDiff → Bytes → Result StateDiff
  | _, _, _, diff, [] => .ok diff
  | 0, offset, _, _, _ :: _ => bail s!"state diff has a truncated event at byte {offset}"
  | fuel + 1, offset, readingRemoved, diff, rest =>
      if !readingRemoved && rest.take 8 == zeroWord then
        parseEntries fuel (offset + 8) true diff (rest.drop 8)
      else if h : compressedStateEventBytes ≤ rest.length then
        let compressed : CompressedStateEvent :=
          ⟨rest.take compressedStateEventBytes, by rw [List.length_take, min_eq_left h]⟩
        if compressed.val.take 8 == zeroWord then
          bail "state diff contains an invalid zero short-state-key"
        else
          parseEntries fuel (offset + compressedStateEventBytes) readingRemoved
            (if readingRemoved then { diff with removed := diff.removed ++ [compressed] }
              else { diff with added := diff.added ++ [compressed] })
            (rest.drop compressedStateEventBytes)
      else bail s!"state diff has a truncated event at byte {offset}"

def parentOf (parentRaw : Nat) : Option Nat := if parentRaw != 0 then some parentRaw else none

def parseStateDiff (value : Bytes) : Result StateDiff :=
  if value.length < 8 then bail "state diff is shorter than its parent hash"
  else
    parseEntries (value.drop 8).length 8 false
      { parent := parentOf (fromBeBytes (value.take 8)), added := [], removed := [] }
      (value.drop 8)

/-- Every round of the loop takes bytes, so the bytes left are enough fuel. -/
theorem parseEntries_fuel {fuel more offset : Nat} {readingRemoved : Bool} {diff : StateDiff}
    {rest : Bytes} (hfuel : rest.length ≤ fuel) :
    parseEntries (fuel + more) offset readingRemoved diff rest =
      parseEntries fuel offset readingRemoved diff rest := by
  induction fuel generalizing offset readingRemoved diff rest with
  | zero =>
      have hempty : rest = [] := List.length_eq_zero_iff.mp (by omega)
      rw [hempty]
      cases more <;> rfl
  | succ fuel ih =>
      rw [show fuel + 1 + more = (fuel + more) + 1 by omega]
      cases rest with
      | nil => rfl
      | cons b tail =>
          have hdrop : ∀ n, 0 < n → ((b :: tail).drop n).length ≤ fuel := by
            intro n hn
            rw [List.length_drop]
            simp only [List.length_cons] at hfuel ⊢
            omega
          unfold parseEntries
          split
          · exact ih (hdrop 8 (by omega))
          · split
            · simp only
              split
              · rfl
              · exact ih (hdrop _ (by simp [compressedStateEventBytes]))
            · rfl

theorem parseEntries_parent {fuel offset : Nat} {readingRemoved : Bool} {diff result : StateDiff}
    {rest : Bytes} (h : parseEntries fuel offset readingRemoved diff rest = .ok result) :
    result.parent = diff.parent := by
  induction fuel generalizing offset readingRemoved diff rest with
  | zero =>
      cases rest with
      | nil =>
          cases h
          rfl
      | cons b tail => cases h
  | succ fuel ih =>
      cases rest with
      | nil =>
          cases h
          rfl
      | cons b tail =>
          unfold parseEntries at h
          split at h
          · exact ih h
          · split at h
            · simp only at h
              split at h
              · cases h
              · rw [ih h]
                split <;> rfl
            · cases h

theorem parseStateDiff_parent_lt {value : Bytes} {diff : StateDiff}
    (h : parseStateDiff value = .ok diff) {parent : Nat} (hparent : diff.parent = some parent) :
    parent < 2 ^ 64 := by
  unfold parseStateDiff at h
  split at h
  · cases h
  next hlength =>
    rw [parseEntries_parent h] at hparent
    simp only [parentOf] at hparent
    split at hparent
    · cases hparent
      have hlt := fromBeBytes_lt (value.take 8)
      rwa [List.length_take, min_eq_left (by omega)] at hlt
    · cases hparent

/-! ## Writing -/

def serializeStateDiff (diff : StateDiff) : Bytes :=
  toBeBytes (diff.parent.getD 0) ++ diff.added.flatMap Subtype.val ++
    if diff.removed.isEmpty then [] else toBeBytes 0 ++ diff.removed.flatMap Subtype.val

/-! ## States -/

/-- The state at the end of a chain of diffs that starts at the root. -/
def applyStateDiffChain (rootToCurrent : List StateDiff) : List CompressedStateEvent :=
  rootToCurrent.foldl (fun state diff =>
    (diff.added.foldl (fun state event => state.insert event) state).filter (fun event =>
      !diff.removed.contains event)) []

def shortEventId (compressed : CompressedStateEvent) : Nat := fromBeBytes (compressed.val.drop 8)

/-- The events a diff names, added and removed. -/
def StateDiff.references (diff : StateDiff) : List Nat :=
  (diff.added ++ diff.removed).map shortEventId

end Lightfriend.Prune
