import Lightfriend.Prune.StateDiff

/-! # The grammar of state diffs

A separator looks like the first half of an entry, and the parent hash 0 stands
for no parent. Entries whose short state key is not zero keep the two readings
apart.
-/

namespace Lightfriend.Prune

/-! ## The grammar -/

/-- An entry that cannot be read as a separator. -/
def CompressedStateEvent.Keyed (compressed : CompressedStateEvent) : Prop :=
  compressed.val.take 8 ≠ zeroWord

def entryBytes (events : List CompressedStateEvent) : Bytes := events.flatMap Subtype.val

/-- The parent hash, the added entries, and behind a separator the removed ones. -/
def diffBytes (parent : Bytes) (added : List CompressedStateEvent) :
    Option (List CompressedStateEvent) → Bytes
  | none => parent ++ entryBytes added
  | some removed => parent ++ entryBytes added ++ (zeroWord ++ entryBytes removed)

/-- The byte strings that are a state diff. -/
def IsStateDiff (value : Bytes) : Prop :=
  ∃ (parent : Bytes) (added : List CompressedStateEvent)
    (removed : Option (List CompressedStateEvent)),
    parent.length = 8 ∧ (∀ e ∈ added, e.Keyed) ∧ (∀ events ∈ removed, ∀ e ∈ events, e.Keyed) ∧
      value = diffBytes parent added removed

/-- The diffs that the code writes. -/
structure StateDiff.Valid (diff : StateDiff) : Prop where
  parent : ∀ hash ∈ diff.parent, hash ≠ 0 ∧ hash < 2 ^ 64
  added : ∀ e ∈ diff.added, e.Keyed
  removed : ∀ e ∈ diff.removed, e.Keyed

@[simp] theorem entryBytes_nil : entryBytes [] = [] := rfl

@[simp] theorem entryBytes_cons (e : CompressedStateEvent) (events : List CompressedStateEvent) :
    entryBytes (e :: events) = e.val ++ entryBytes events := rfl

theorem zeroWord_eq : toBeBytes 0 = zeroWord := by decide

theorem CompressedStateEvent.take_append (e : CompressedStateEvent) (tail : Bytes) :
    (e.val ++ tail).take 8 = e.val.take 8 := by
  apply List.take_append_of_le_length
  rw [e.property]
  decide

theorem CompressedStateEvent.ne_nil (e : CompressedStateEvent) : e.val ≠ [] := by
  intro hnil
  have hlength := e.property
  rw [hnil] at hlength
  cases hlength

/-! ## Entries -/

/-- The rest of a diff: entries added, or removed once the separator has been read. -/
def EntriesOf (readingRemoved : Bool) (diff result : StateDiff) (rest : Bytes) : Prop :=
  if readingRemoved then
    ∃ removed, (∀ e ∈ removed, e.Keyed) ∧ rest = entryBytes removed ∧
      result = { diff with removed := diff.removed ++ removed }
  else
    ∃ added, (∀ e ∈ added, e.Keyed) ∧
      ((rest = entryBytes added ∧ result = { diff with added := diff.added ++ added }) ∨
        ∃ removed, (∀ e ∈ removed, e.Keyed) ∧
          rest = entryBytes added ++ (zeroWord ++ entryBytes removed) ∧
          result =
            { diff with added := diff.added ++ added, removed := diff.removed ++ removed })

theorem EntriesOf.nil (readingRemoved : Bool) (diff : StateDiff) :
    EntriesOf readingRemoved diff diff [] := by
  cases readingRemoved with
  | true => exact ⟨[], by simp, rfl, by simp⟩
  | false => exact ⟨[], by simp, Or.inl ⟨rfl, by simp⟩⟩

theorem EntriesOf.separator {diff result : StateDiff} {rest : Bytes}
    (h : EntriesOf true diff result rest) : EntriesOf false diff result (zeroWord ++ rest) := by
  obtain ⟨removed, hkeyed, rfl, rfl⟩ := h
  exact ⟨[], by simp, Or.inr ⟨removed, hkeyed, rfl, by simp⟩⟩

/-- The diff with one entry more. -/
def StateDiff.push (readingRemoved : Bool) (e : CompressedStateEvent) (diff : StateDiff) :
    StateDiff :=
  if readingRemoved then { diff with removed := diff.removed ++ [e] }
  else { diff with added := diff.added ++ [e] }

theorem EntriesOf.cons {readingRemoved : Bool} {e : CompressedStateEvent} (he : e.Keyed)
    {diff result : StateDiff} {rest : Bytes}
    (h : EntriesOf readingRemoved (diff.push readingRemoved e) result rest) :
    EntriesOf readingRemoved diff result (e.val ++ rest) := by
  have hkeyed : ∀ events : List CompressedStateEvent, (∀ x ∈ events, x.Keyed) →
      ∀ x ∈ e :: events, x.Keyed := by
    intro events hall x hx
    rcases List.mem_cons.mp hx with rfl | hx
    · exact he
    · exact hall x hx
  cases readingRemoved with
  | true =>
      obtain ⟨removed, hall, rfl, rfl⟩ := h
      exact ⟨e :: removed, hkeyed removed hall, rfl, by simp [StateDiff.push]⟩
  | false =>
      obtain ⟨added, hall, hcases⟩ := h
      refine ⟨e :: added, hkeyed added hall, ?_⟩
      rcases hcases with ⟨rfl, rfl⟩ | ⟨removed, hremoved, rfl, rfl⟩
      · exact Or.inl ⟨rfl, by simp [StateDiff.push]⟩
      · exact Or.inr ⟨removed, hremoved, by simp, by simp [StateDiff.push]⟩

/-- What the loop accepts are entries. -/
theorem parseEntries_sound {fuel offset : Nat} {readingRemoved : Bool} {diff result : StateDiff}
    {rest : Bytes} (h : parseEntries fuel offset readingRemoved diff rest = .ok result) :
    EntriesOf readingRemoved diff result rest := by
  induction fuel generalizing offset readingRemoved diff rest with
  | zero =>
      cases rest with
      | nil =>
          cases h
          exact EntriesOf.nil _ _
      | cons b tail => cases h
  | succ fuel ih =>
      cases rest with
      | nil =>
          cases h
          exact EntriesOf.nil _ _
      | cons b tail =>
          unfold parseEntries at h
          split at h
          next hseparator =>
            simp only [Bool.and_eq_true, Bool.not_eq_true', beq_iff_eq] at hseparator
            obtain ⟨rfl, hzero⟩ := hseparator
            rw [← List.take_append_drop 8 (b :: tail), hzero]
            exact (ih h).separator
          next =>
            split at h
            next hlength =>
              simp only at h
              split at h
              · cases h
              next hkeyed =>
                rw [← List.take_append_drop compressedStateEventBytes (b :: tail)]
                refine EntriesOf.cons (e := ⟨(b :: tail).take compressedStateEventBytes, _⟩) ?_
                  (ih h)
                intro hzero
                exact hkeyed (beq_iff_eq.mpr hzero)
            · cases h

/-- A keyed entry is read as one. -/
theorem parseEntries_cons {fuel offset : Nat} {readingRemoved : Bool} {diff : StateDiff}
    {e : CompressedStateEvent} (he : e.Keyed) {rest : Bytes} :
    parseEntries (fuel + 1) offset readingRemoved diff (e.val ++ rest) =
      parseEntries fuel (offset + compressedStateEventBytes) readingRemoved
        (diff.push readingRemoved e) rest := by
  have hne : e.val ++ rest ≠ [] := by
    intro hnil
    exact e.ne_nil (List.append_eq_nil_iff.mp hnil).1
  obtain ⟨b, tail, hcons⟩ := List.exists_cons_of_ne_nil hne
  have htake : (b :: tail).take 8 = e.val.take 8 := by rw [← hcons, e.take_append]
  have hkey : ((b :: tail).take 8 == zeroWord) = false := by
    rw [htake]
    exact beq_eq_false_iff_ne.mpr he
  have hentry : (b :: tail).take compressedStateEventBytes = e.val := by
    rw [← hcons]
    exact List.take_left' e.property
  have hrest : (b :: tail).drop compressedStateEventBytes = rest := by
    rw [← hcons]
    exact List.drop_left' e.property
  have hlength : compressedStateEventBytes ≤ (b :: tail).length := by
    rw [← hcons, List.length_append, e.property]
    exact Nat.le_add_right _ _
  have hfirst : ((e.val.take 8) == zeroWord) = false := beq_eq_false_iff_ne.mpr he
  rw [hcons]
  conv_lhs => unfold parseEntries
  simp only [hkey, Bool.and_false, Bool.false_eq_true, if_false, dif_pos hlength, hentry, hrest,
    hfirst]
  rfl

theorem parseEntries_separator {fuel offset : Nat} {diff : StateDiff} {rest : Bytes} :
    parseEntries (fuel + 1) offset false diff (zeroWord ++ rest) =
      parseEntries fuel (offset + 8) true diff rest := rfl

/-- With fuel to spare, entries in front of a text are read before it. -/
theorem parseEntries_append {readingRemoved : Bool} {events : List CompressedStateEvent}
    (hkeyed : ∀ e ∈ events, e.Keyed) {fuel : Nat} {diff result : StateDiff} {tail : Bytes}
    (htail : ∀ offset, parseEntries fuel offset readingRemoved
      (events.foldl (fun diff e => diff.push readingRemoved e) diff) tail = .ok result)
    (offset : Nat) :
    parseEntries (fuel + events.length) offset readingRemoved diff (entryBytes events ++ tail) =
      .ok result := by
  induction events generalizing diff offset with
  | nil => exact htail offset
  | cons e events ih =>
      rw [entryBytes_cons, List.append_assoc, List.length_cons, ← Nat.add_assoc,
        parseEntries_cons (hkeyed e List.mem_cons_self)]
      exact ih (fun x hx => hkeyed x (List.mem_cons_of_mem _ hx)) htail _

theorem foldl_push (readingRemoved : Bool) (events : List CompressedStateEvent)
    (diff : StateDiff) :
    events.foldl (fun diff e => diff.push readingRemoved e) diff =
      if readingRemoved then { diff with removed := diff.removed ++ events }
      else { diff with added := diff.added ++ events } := by
  induction events generalizing diff with
  | nil => cases readingRemoved <;> simp
  | cons e events ih =>
      rw [List.foldl_cons, ih]
      cases readingRemoved <;> simp [StateDiff.push]

theorem parseEntries_nil (fuel offset : Nat) (readingRemoved : Bool) (diff : StateDiff) :
    parseEntries fuel offset readingRemoved diff [] = .ok diff := by
  cases fuel <;> rfl

/-- What are entries the loop accepts. -/
theorem parseEntries_complete {readingRemoved : Bool} {diff result : StateDiff} {rest : Bytes}
    (h : EntriesOf readingRemoved diff result rest) (offset : Nat) :
    parseEntries rest.length offset readingRemoved diff rest = .ok result := by
  have henough : ∃ enough, ∀ more offset,
      parseEntries (more + enough) offset readingRemoved diff rest = .ok result := by
    cases readingRemoved with
    | true =>
        obtain ⟨removed, hkeyed, rfl, rfl⟩ := h
        refine ⟨removed.length, fun more offset => ?_⟩
        rw [← List.append_nil (entryBytes removed)]
        refine parseEntries_append hkeyed (fun offset => ?_) offset
        rw [parseEntries_nil, foldl_push]
        rfl
    | false =>
        obtain ⟨added, hkeyed, ⟨rfl, rfl⟩ | ⟨removed, hremoved, rfl, rfl⟩⟩ := h
        · refine ⟨added.length, fun more offset => ?_⟩
          rw [← List.append_nil (entryBytes added)]
          refine parseEntries_append hkeyed (fun offset => ?_) offset
          rw [parseEntries_nil, foldl_push]
          rfl
        · refine ⟨removed.length + 1 + added.length, fun more offset => ?_⟩
          rw [← Nat.add_assoc]
          refine parseEntries_append hkeyed (fun offset => ?_) offset
          rw [← Nat.add_assoc, parseEntries_separator, ← List.append_nil (entryBytes removed)]
          refine parseEntries_append hremoved (fun offset => ?_) _
          rw [parseEntries_nil, foldl_push, foldl_push]
          rfl
  obtain ⟨enough, hall⟩ := henough
  rw [← hall rest.length offset]
  exact (parseEntries_fuel le_rfl).symm

/-! ## Diffs -/

/-- What is accepted, and as which diff. -/
theorem parseStateDiff_eq_ok_iff {value : Bytes} {diff : StateDiff} :
    parseStateDiff value = .ok diff ↔
      ∃ (parent : Bytes) (removed : Option (List CompressedStateEvent)),
        parent.length = 8 ∧ (∀ e ∈ diff.added, e.Keyed) ∧ (∀ e ∈ diff.removed, e.Keyed) ∧
          diff.parent = parentOf (fromBeBytes parent) ∧ diff.removed = removed.getD [] ∧
            value = diffBytes parent diff.added removed := by
  constructor
  · intro h
    unfold parseStateDiff at h
    split at h
    · cases h
    next hlength =>
      have htake : (value.take 8).length = 8 := by
        rw [List.length_take]
        omega
      obtain ⟨added, hadded, ⟨hrest, rfl⟩ | ⟨removed, hremoved, hrest, rfl⟩⟩ :=
        parseEntries_sound h
      · refine ⟨value.take 8, none, htake, by simpa using hadded, by simp, rfl, rfl, ?_⟩
        rw [diffBytes, List.nil_append, ← hrest, List.take_append_drop]
      · refine ⟨value.take 8, some removed, htake, by simpa using hadded, by simpa using hremoved,
          rfl, by simp, ?_⟩
        rw [diffBytes, List.nil_append, List.append_assoc, ← hrest, List.take_append_drop]
  · rintro ⟨parent, removed, hlength, hadded, hremoved, hparent, hgetD, rfl⟩
    have hentries : ∀ rest, diffBytes parent diff.added removed = parent ++ rest →
        EntriesOf false ⟨parentOf (fromBeBytes parent), [], []⟩ diff rest →
        parseStateDiff (diffBytes parent diff.added removed) = .ok diff := by
      intro rest heq h
      have hlong : ¬ (parent ++ rest).length < 8 := by
        rw [List.length_append]
        omega
      rw [heq, parseStateDiff, if_neg hlong, List.drop_left' hlength, List.take_left' hlength]
      exact parseEntries_complete h 8
    obtain ⟨parentOfDiff, added, removedOfDiff⟩ := diff
    cases hparent
    cases removed with
    | none =>
        cases hgetD
        exact hentries _ rfl ⟨added, hadded, Or.inl ⟨rfl, rfl⟩⟩
    | some events =>
        cases hgetD
        refine hentries (entryBytes added ++ (zeroWord ++ entryBytes removedOfDiff)) ?_
          ⟨added, hadded, Or.inr ⟨removedOfDiff, hremoved, rfl, rfl⟩⟩
        rw [diffBytes, List.append_assoc]

theorem serializeStateDiff_eq (diff : StateDiff) :
    serializeStateDiff diff = diffBytes (toBeBytes (diff.parent.getD 0)) diff.added
      (if diff.removed.isEmpty then none else some diff.removed) := by
  unfold serializeStateDiff
  split
  · rw [List.append_nil]
    rfl
  · rw [zeroWord_eq]
    rfl

theorem parentOf_getD {parent : Bytes} (hlength : parent.length = 8) :
    toBeBytes ((parentOf (fromBeBytes parent)).getD 0) = parent := by
  have hget : (parentOf (fromBeBytes parent)).getD 0 = fromBeBytes parent := by
    unfold parentOf
    split
    · rfl
    next hzero =>
      simp only [bne_iff_ne, ne_eq, not_not] at hzero
      exact hzero.symm
  rw [hget, toBeBytes_fromBeBytes hlength]

/-- A valid diff is read back as it was written. -/
theorem StateDiff.Valid.parse_serialize {diff : StateDiff} (h : diff.Valid) :
    parseStateDiff (serializeStateDiff diff) = .ok diff := by
  rw [serializeStateDiff_eq]
  refine parseStateDiff_eq_ok_iff.2 ⟨_, _, toBeBytes_length _, h.added, h.removed, ?_, ?_, rfl⟩
  · cases hparent : diff.parent with
    | none =>
        rw [Option.getD_none, fromBeBytes_toBeBytes (by norm_num)]
        rfl
    | some hash =>
        obtain ⟨hne, hlt⟩ := h.parent hash hparent
        rw [Option.getD_some, fromBeBytes_toBeBytes hlt, parentOf,
          if_pos (bne_iff_ne.mpr hne)]
  · cases hremoved : diff.removed with
    | nil => rfl
    | cons e rest => rfl

/-- What is read is valid, and is written as it was read, but for a separator with nothing behind
it. -/
theorem parseStateDiff_spec {value : Bytes} {diff : StateDiff}
    (h : parseStateDiff value = .ok diff) :
    diff.Valid ∧ (value = serializeStateDiff diff ∨
      diff.removed = [] ∧ value = serializeStateDiff diff ++ zeroWord) := by
  obtain ⟨parent, removed, hlength, hadded, hremoved, hparent, hgetD, rfl⟩ :=
    parseStateDiff_eq_ok_iff.1 h
  constructor
  · refine ⟨fun hash hhash => ?_, hadded, hremoved⟩
    constructor
    · rintro rfl
      rw [hparent, Option.mem_def, parentOf] at hhash
      split at hhash
      next hne => exact (bne_iff_ne.mp hne) (Option.some.inj hhash)
      next => cases hhash
    · exact parseStateDiff_parent_lt h hhash
  · rw [serializeStateDiff_eq, hparent, parentOf_getD hlength, hgetD]
    cases removed with
    | none => exact Or.inl rfl
    | some events =>
        cases events with
        | nil =>
            refine Or.inr ⟨rfl, ?_⟩
            simp [diffBytes]
        | cons e rest => exact Or.inl rfl

/-- The codec of the state diffs. -/
structure IsCodec : Prop where
  accepts : ∀ value, (∃ diff, parseStateDiff value = .ok diff) ↔ IsStateDiff value
  reads : ∀ diff : StateDiff, diff.Valid → parseStateDiff (serializeStateDiff diff) = .ok diff
  writes : ∀ value diff, parseStateDiff value = .ok diff →
    value = serializeStateDiff diff ∨
      diff.removed = [] ∧ value = serializeStateDiff diff ++ zeroWord

theorem state_diff_codec : IsCodec where
  accepts := by
    intro value
    constructor
    · rintro ⟨diff, h⟩
      obtain ⟨parent, removed, hlength, hadded, hremoved, -, hgetD, rfl⟩ :=
        parseStateDiff_eq_ok_iff.1 h
      refine ⟨parent, diff.added, removed, hlength, hadded, ?_, rfl⟩
      rintro events ⟨⟩
      rw [hgetD] at hremoved
      exact hremoved
    · rintro ⟨parent, added, removed, hlength, hadded, hremoved, rfl⟩
      refine ⟨⟨parentOf (fromBeBytes parent), added, removed.getD []⟩,
        parseStateDiff_eq_ok_iff.2 ⟨parent, removed, hlength, hadded, ?_, rfl, rfl, rfl⟩⟩
      cases removed with
      | none => simp
      | some events => exact hremoved events rfl
  reads := fun _ h => h.parse_serialize
  writes := fun _ _ h => (parseStateDiff_spec h).2

end Lightfriend.Prune
