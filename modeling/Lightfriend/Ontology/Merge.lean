import Lightfriend.Ontology.People

/-! # Merging two persons

A merge moves the channels of one person to another and deletes the first. Each
of its statements is carried out for itself, and the ids are not looked at before.
-/

namespace Lightfriend.People.Merge

open Procedure

/-! ## The meaning -/

/-- What a channel is to the user. -/
def address (c : OntChannel) : String × Option String × Option String :=
  (c.platform, c.handle, c.roomId)

def ownChannels (userId : Int) (t : Tables) : List OntChannel :=
  t.channels.filter (fun c => c.userId = userId)

def channelsOf (personId : Int) (t : Tables) : List OntChannel :=
  t.channels.filter (fun c => c.personId = personId)

/-- The user has no fewer and no other channels, those of the merged person are the kept person's,
and no other person's have changed. -/
structure Merged (userId keepId mergeId : Int) (t t' : Tables) : Prop where
  same : ((ownChannels userId t').map address).Perm ((ownChannels userId t).map address)
  gone : channelsOf mergeId t' = []
  moved : (channelsOf keepId t').Perm
    ((channelsOf mergeId t).map (fun c => { c with personId := keepId }) ++ channelsOf keepId t)
  others : ∀ personId, personId ≠ keepId → personId ≠ mergeId →
    channelsOf personId t' = channelsOf personId t

/-- The ids are two persons of the user. -/
def Valid (userId keepId mergeId : Int) (t : Tables) : Prop :=
  keepId ≠ mergeId ∧ t.persons.any (Tables.ownPerson userId keepId) = true ∧
    t.persons.any (Tables.ownPerson userId mergeId) = true

instance (userId keepId mergeId : Int) (t : Tables) :
    Decidable (Valid userId keepId mergeId t) := by
  unfold Valid
  exact inferInstance

/-- A merge of two persons of the user that returns has merged them; any other call has changed
nothing. -/
def KeepsChannels (userId keepId mergeId now : Int) (w : World) : Prop :=
  if Valid userId keepId mergeId w.tables ∧
      (mergePersons userId keepId mergeId now w).value = some () then
    Merged userId keepId mergeId w.tables (mergePersons userId keepId mergeId now w).state.tables
  else (mergePersons userId keepId mergeId now w).state.tables = w.tables

section

variable (userId keepId mergeId now : Int) (t : Tables)

/-- There is no channel to move, or it is there already. -/
def NothingToMove : Prop :=
  ∀ c ∈ t.channels, c.personId = mergeId → c.userId = userId → keepId = mergeId

/-- The kept person, where there is one, was written in this second. -/
def JustTouched : Prop := ∀ p ∈ t.persons, p.id = keepId → p.updatedAt = now

/-- The person of a channel must exist. -/
def CanMove : Prop :=
  t.persons.any (fun p => p.id = keepId) = true ∨
    ¬ t.channels.any (fun c => c.personId = mergeId ∧ c.userId = userId) = true

instance : Decidable (NothingToMove userId keepId mergeId t) := by
  unfold NothingToMove
  exact inferInstance

instance : Decidable (JustTouched keepId now t) := by
  unfold JustTouched
  exact inferInstance

instance : Decidable (CanMove userId keepId mergeId t) := by
  unfold CanMove
  exact inferInstance

/-- The fates of the three statements. -/
def fateOf (n : Nat) (fates : List StatementFate) : StatementFate := (fates.drop n).headD .done

/-- Two persons of the user, all of whose statements are done, and no channel of somebody else at
the merged one; or each statement that is carried out finds nothing to change. -/
def Harmless (fates : List StatementFate) : Prop :=
  if Valid userId keepId mergeId t ∧ fateOf 0 fates = .done ∧ fateOf 1 fates = .done ∧
      fateOf 2 fates = .done then
    ∀ c ∈ t.channels, c.personId = mergeId → c.userId = userId
  else
    CanMove userId keepId mergeId t → fateOf 0 fates ≠ .refused →
      NothingToMove userId keepId mergeId t ∧
      (fateOf 0 fates = .done → fateOf 1 fates ≠ .refused →
        JustTouched keepId now t ∧
        (fateOf 1 fates = .done → fateOf 2 fates ≠ .refused →
          ¬ t.persons.any (Tables.ownPerson userId mergeId) = true))

end

/-! ## The statements -/

section

variable {userId keepId mergeId now : Int} {t : Tables}

theorem statement_of_some {α : Type} {f : Tables → Option (α × Tables)} {a : α} {t' : Tables}
    (fates : List StatementFate) (h : f t = some (a, t')) :
    statement f ⟨t, fates⟩ = ⟨⟨(fates.headD .done).after t t', fates.tail⟩, [],
      (fates.headD .done).answer a⟩ := by
  unfold statement
  dsimp only
  rw [h]
  cases fates.headD .done with
  | done => rfl
  | refused => rfl
  | lost => rfl

theorem statement_of_none {α : Type} {f : Tables → Option (α × Tables)}
    (fates : List StatementFate) (h : f t = none) :
    statement f ⟨t, fates⟩ = ⟨⟨t, fates.tail⟩, [], none⟩ := by
  unfold statement
  dsimp only
  rw [h]

/-- The channels as they are moved. -/
def movedTables (userId keepId mergeId : Int) (t : Tables) : Tables :=
  Tables.updateChannels (fun c => c.personId = mergeId ∧ c.userId = userId)
    (fun c => { c with personId := keepId }) t

theorem moveChannels_eq (userId keepId mergeId : Int) (t : Tables) :
    Tables.moveChannels userId keepId mergeId t =
      if CanMove userId keepId mergeId t then some ((), movedTables userId keepId mergeId t)
      else none := rfl

/-- A statement that is done is followed by the rest, and any other ends the call. -/
theorem statement_then {f : Tables → Option (Unit × Tables)} {t' : Tables} (k : Db Unit)
    (fates : List StatementFate) (h : f t = some ((), t')) :
    (fates.headD .done = .done ∧
        ((statement f >>= fun _ => k) ⟨t, fates⟩).state = (k ⟨t', fates.tail⟩).state ∧
        ((statement f >>= fun _ => k) ⟨t, fates⟩).value = (k ⟨t', fates.tail⟩).value) ∨
      (fates.headD .done ≠ .done ∧
        ((statement f >>= fun _ => k) ⟨t, fates⟩).state.tables =
          (fates.headD .done).after t t' ∧
        ((statement f >>= fun _ => k) ⟨t, fates⟩).value = none) := by
  have hrun := statement_of_some fates h
  cases hfate : fates.headD .done with
  | done =>
      rw [hfate] at hrun
      rw [bind_apply hrun]
      exact .inl ⟨rfl, rfl, rfl⟩
  | refused =>
      rw [hfate] at hrun
      rw [bind_stop hrun]
      exact .inr ⟨by simp, rfl, rfl⟩
  | lost =>
      rw [hfate] at hrun
      rw [bind_stop hrun]
      exact .inr ⟨by simp, rfl, rfl⟩

/-- What a merge leaves, by the fates of its statements. -/
theorem mergePersons_cases (fates : List StatementFate) (hmove : CanMove userId keepId mergeId t) :
    (fateOf 0 fates ≠ .done ∧
        (mergePersons userId keepId mergeId now ⟨t, fates⟩).state.tables =
          (fateOf 0 fates).after t (movedTables userId keepId mergeId t) ∧
        (mergePersons userId keepId mergeId now ⟨t, fates⟩).value = none) ∨
      (fateOf 0 fates = .done ∧ fateOf 1 fates ≠ .done ∧
        (mergePersons userId keepId mergeId now ⟨t, fates⟩).state.tables =
          (fateOf 1 fates).after (movedTables userId keepId mergeId t)
            (Tables.touchPerson keepId now (movedTables userId keepId mergeId t)) ∧
        (mergePersons userId keepId mergeId now ⟨t, fates⟩).value = none) ∨
      (fateOf 0 fates = .done ∧ fateOf 1 fates = .done ∧
        (mergePersons userId keepId mergeId now ⟨t, fates⟩).state.tables =
          (fateOf 2 fates).after
            (Tables.touchPerson keepId now (movedTables userId keepId mergeId t))
            (Tables.deletePerson userId mergeId
              (Tables.touchPerson keepId now (movedTables userId keepId mergeId t))) ∧
        (mergePersons userId keepId mergeId now ⟨t, fates⟩).value =
          (fateOf 2 fates).answer ()) := by
  have hzero : fates.headD .done = fateOf 0 fates := rfl
  have hone : fates.tail.headD .done = fateOf 1 fates := by
    unfold fateOf
    rw [List.drop_one]
  have htwo : fates.tail.tail.headD .done = fateOf 2 fates := by
    unfold fateOf
    rw [← List.drop_one, ← List.drop_one, List.drop_drop]
  unfold mergePersons
  rcases statement_then _ fates ((moveChannels_eq userId keepId mergeId t).trans (if_pos hmove))
    with ⟨h0, hstate, hvalue⟩ | ⟨h0, hstate, hvalue⟩
  · right
    rw [hzero] at h0
    rw [hstate, hvalue]
    rcases @statement_then (movedTables userId keepId mergeId t)
      (fun t => some ((), Tables.touchPerson keepId now t)) _ _ fates.tail rfl
      with ⟨h1, hstate, hvalue⟩ | ⟨h1, hstate, hvalue⟩
    · right
      rw [hone] at h1
      refine ⟨h0, h1, (congrArg World.tables hstate).trans ?_, hvalue.trans ?_⟩
      · have hdelete := @statement_of_some
          (Tables.touchPerson keepId now (movedTables userId keepId mergeId t)) Unit
          (fun t => some ((), Tables.deletePerson userId mergeId t)) () _ fates.tail.tail rfl
        rw [htwo] at hdelete
        exact congrArg (fun out => out.state.tables) hdelete
      · have hdelete := @statement_of_some
          (Tables.touchPerson keepId now (movedTables userId keepId mergeId t)) Unit
          (fun t => some ((), Tables.deletePerson userId mergeId t)) () _ fates.tail.tail rfl
        rw [htwo] at hdelete
        exact congrArg (fun out => out.value) hdelete
    · left
      rw [hone] at h1 hstate
      exact ⟨h0, h1, hstate, hvalue⟩
  · left
    rw [hzero] at h0 hstate
    exact ⟨h0, hstate, hvalue⟩

/-- A merge whose channels cannot be moved does nothing. -/
theorem mergePersons_blocked (fates : List StatementFate)
    (hmove : ¬ CanMove userId keepId mergeId t) :
    (mergePersons userId keepId mergeId now ⟨t, fates⟩).state.tables = t ∧
      (mergePersons userId keepId mergeId now ⟨t, fates⟩).value = none := by
  have hfirst := statement_of_none fates
    ((moveChannels_eq userId keepId mergeId t).trans (if_neg hmove))
  unfold mergePersons
  rw [bind_stop hfirst]
  exact ⟨rfl, rfl⟩

/-! ## What changes nothing -/

theorem map_ite_eq_self {ρ : Type} {p : ρ → Bool} {set : ρ → ρ} {rows : List ρ} :
    rows.map (fun r => if p r then set r else r) = rows ↔ ∀ r ∈ rows, p r = true → set r = r := by
  induction rows with
  | nil => simp
  | cons r rest ih =>
      rw [List.map_cons, List.cons.injEq, ih, List.forall_mem_cons, ite_eq_right_iff]

theorem movedTables_eq_self :
    movedTables userId keepId mergeId t = t ↔ NothingToMove userId keepId mergeId t := by
  have hchannels : movedTables userId keepId mergeId t = t ↔
      (movedTables userId keepId mergeId t).channels = t.channels := by
    constructor
    · intro h
      rw [h]
    · intro h
      unfold movedTables Tables.updateChannels at h ⊢
      dsimp only at h
      rw [h]
  rw [hchannels]
  unfold movedTables Tables.updateChannels
  dsimp only
  rw [map_ite_eq_self]
  unfold NothingToMove
  refine forall_congr' fun c => forall_congr' fun _ => ?_
  rw [decide_eq_true_eq]
  constructor
  · intro h hmerge huser
    have hid := congrArg OntChannel.personId (h ⟨hmerge, huser⟩)
    exact hid.trans hmerge
  · rintro h ⟨hmerge, huser⟩
    rw [h hmerge huser, ← hmerge]

theorem touchPerson_eq_self (u : Tables) :
    Tables.touchPerson keepId now u = u ↔ JustTouched keepId now u := by
  have hpersons : Tables.touchPerson keepId now u = u ↔
      (Tables.touchPerson keepId now u).persons = u.persons := by
    constructor
    · intro h
      rw [h]
    · intro h
      unfold Tables.touchPerson Tables.updatePersons at h ⊢
      dsimp only at h
      rw [h]
  rw [hpersons]
  unfold Tables.touchPerson Tables.updatePersons
  dsimp only
  rw [map_ite_eq_self]
  unfold JustTouched
  refine forall_congr' fun p => forall_congr' fun _ => ?_
  rw [decide_eq_true_eq]
  constructor
  · intro h hid
    exact (congrArg OntPerson.updatedAt (h hid)).symm
  · intro h hid
    rw [← h hid]

/-- Moving leaves the persons, and touching the channels, so both change nothing only where each
does. -/
theorem touched_moved_eq_self :
    Tables.touchPerson keepId now (movedTables userId keepId mergeId t) = t ↔
      NothingToMove userId keepId mergeId t ∧ JustTouched keepId now t := by
  constructor
  · intro h
    have hmoved : movedTables userId keepId mergeId t = t := by
      have hchannels := congrArg Tables.channels h
      unfold movedTables Tables.updateChannels
      unfold Tables.touchPerson movedTables Tables.updatePersons Tables.updateChannels at hchannels
      dsimp only at hchannels
      rw [hchannels]
    refine ⟨movedTables_eq_self.1 hmoved, ?_⟩
    rw [hmoved] at h
    exact (touchPerson_eq_self t).mp h
  · rintro ⟨hmoved, htouched⟩
    rw [movedTables_eq_self.2 hmoved]
    exact (touchPerson_eq_self t).mpr htouched

theorem any_own_touched (personId : Int) (u : Tables) :
    (Tables.touchPerson keepId now u).persons.any (Tables.ownPerson userId personId) =
      u.persons.any (Tables.ownPerson userId personId) := by
  unfold Tables.touchPerson Tables.updatePersons
  dsimp only
  rw [List.any_map]
  congr 1
  funext p
  dsimp only [Function.comp]
  split
  · rfl
  · rfl

theorem deletePerson_eq_self (u : Tables) :
    Tables.deletePerson userId mergeId u = u ↔
      ¬ u.persons.any (Tables.ownPerson userId mergeId) = true := by
  unfold Tables.deletePerson
  split
  next h =>
    refine iff_of_false (fun heq => ?_) (fun hnot => hnot h)
    have hpersons := congrArg Tables.persons heq
    dsimp only at hpersons
    rw [List.filter_eq_self] at hpersons
    obtain ⟨p, hp, hown⟩ := List.any_eq_true.mp h
    have hnot := hpersons p hp
    rw [hown] at hnot
    cases hnot
  next h => exact iff_of_true rfl h

theorem deleted_eq_self :
    Tables.deletePerson userId mergeId
        (Tables.touchPerson keepId now (movedTables userId keepId mergeId t)) = t ↔
      (NothingToMove userId keepId mergeId t ∧ JustTouched keepId now t) ∧
        ¬ t.persons.any (Tables.ownPerson userId mergeId) = true := by
  have hany : (Tables.touchPerson keepId now (movedTables userId keepId mergeId t)).persons.any
      (Tables.ownPerson userId mergeId) = t.persons.any (Tables.ownPerson userId mergeId) :=
    any_own_touched mergeId _
  by_cases hown : t.persons.any (Tables.ownPerson userId mergeId) = true
  · refine iff_of_false (fun heq => ?_) (fun h => h.2 hown)
    have hgone : ∀ p ∈ t.persons, ¬ Tables.ownPerson userId mergeId p = true := by
      intro p hp hp'
      have hpersons := congrArg Tables.persons heq
      unfold Tables.deletePerson at hpersons
      rw [hany, if_pos hown] at hpersons
      dsimp only at hpersons
      rw [← hpersons, List.mem_filter, hp'] at hp
      exact absurd hp.2 (by simp)
    obtain ⟨p, hp, hp'⟩ := List.any_eq_true.mp hown
    exact hgone p hp hp'
  · have hkeep := (deletePerson_eq_self
      (Tables.touchPerson keepId now (movedTables userId keepId mergeId t))).mpr
      (by rw [hany]; exact hown)
    rw [hkeep, touched_moved_eq_self]
    exact ⟨fun h => ⟨h, hown⟩, fun h => h.1⟩

/-! ## A merge that is done -/

section Done

variable {cs : List OntChannel}

def moveTo (userId keepId mergeId : Int) (c : OntChannel) : OntChannel :=
  if c.personId = mergeId ∧ c.userId = userId then { c with personId := keepId } else c

theorem address_moveTo (c : OntChannel) : address (moveTo userId keepId mergeId c) = address c := by
  unfold moveTo
  split
  · rfl
  · rfl

theorem userId_moveTo (c : OntChannel) : (moveTo userId keepId mergeId c).userId = c.userId := by
  unfold moveTo
  split
  · rfl
  · rfl

/-- The channels that a merge leaves. -/
def keptChannels (userId keepId mergeId : Int) (cs : List OntChannel) : List OntChannel :=
  (cs.map (moveTo userId keepId mergeId)).filter (fun c => !decide (c.personId = mergeId))

theorem channels_done (hvalid : Valid userId keepId mergeId t) :
    (Tables.deletePerson userId mergeId
      (Tables.touchPerson keepId now (movedTables userId keepId mergeId t))).channels =
      keptChannels userId keepId mergeId t.channels := by
  have hany := @any_own_touched userId keepId now mergeId
    (movedTables userId keepId mergeId t)
  unfold Tables.deletePerson
  rw [hany]
  have hown : (movedTables userId keepId mergeId t).persons.any (Tables.ownPerson userId mergeId) =
      true := hvalid.2.2
  rw [if_pos hown]
  unfold keptChannels movedTables moveTo Tables.touchPerson Tables.updatePersons
    Tables.updateChannels
  simp only [decide_eq_true_eq]

theorem personId_moveTo (c : OntChannel) :
    (moveTo userId keepId mergeId c).personId =
      if c.personId = mergeId ∧ c.userId = userId then keepId else c.personId := by
  unfold moveTo
  split
  · rfl
  · rfl

/-- A channel of somebody else at the merged person is deleted with it. -/
theorem keptChannels_cons (hne : keepId ≠ mergeId) (c : OntChannel) (rest : List OntChannel) :
    keptChannels userId keepId mergeId (c :: rest) =
      if c.personId = mergeId ∧ c.userId ≠ userId then keptChannels userId keepId mergeId rest
      else moveTo userId keepId mergeId c :: keptChannels userId keepId mergeId rest := by
  unfold keptChannels
  rw [List.map_cons, List.filter_cons, personId_moveTo]
  by_cases hmerge : c.personId = mergeId
  · by_cases huser : c.userId = userId
    · simp [hmerge, huser, hne]
    · simp [hmerge, huser]
  · simp [hmerge]

/-- As many channels are at the kept person as were there and were moved. -/
theorem length_keptChannels (hne : keepId ≠ mergeId) (cs : List OntChannel) :
    ((keptChannels userId keepId mergeId cs).filter (fun c => c.personId = keepId)).length +
        (cs.filter (fun c => c.personId = mergeId ∧ c.userId ≠ userId)).length =
      (cs.filter (fun c => c.personId = mergeId)).length +
        (cs.filter (fun c => c.personId = keepId)).length := by
  induction cs with
  | nil => rfl
  | cons c rest ih =>
      rw [keptChannels_cons hne]
      by_cases hmerge : c.personId = mergeId
      · have hkeep : ¬ mergeId = keepId := fun h => hne h.symm
        by_cases huser : c.userId = userId
        · rw [if_neg (by simp [huser]), List.filter_cons, personId_moveTo]
          simp [hmerge, huser, hkeep] at ih ⊢
          omega
        · rw [if_pos ⟨hmerge, huser⟩]
          simp [hmerge, huser, hkeep] at ih ⊢
          omega
      · rw [if_neg (fun h => hmerge h.1), List.filter_cons, personId_moveTo]
        by_cases hkeep : c.personId = keepId
        · simp [hne, hkeep] at ih ⊢
          omega
        · simp [hmerge, hkeep] at ih ⊢
          omega

/-- Where the merged person has channels of the user only, none is lost. -/
theorem merged_of_own (hne : keepId ≠ mergeId) {t' : Tables}
    (hchannels : t'.channels = keptChannels userId keepId mergeId t.channels)
    (hown : ∀ c ∈ t.channels, c.personId = mergeId → c.userId = userId) :
    Merged userId keepId mergeId t t' := by
  have hall : keptChannels userId keepId mergeId t.channels =
      t.channels.map (moveTo userId keepId mergeId) := by
    unfold keptChannels
    rw [List.filter_eq_self]
    intro c hc
    obtain ⟨c, hmem, rfl⟩ := List.mem_map.mp hc
    rw [personId_moveTo]
    split
    · simp [hne]
    next hnot => simpa using fun hmerge => hnot ⟨hmerge, hown c hmem hmerge⟩
  rw [hall] at hchannels
  refine ⟨?_, ?_, ?_, fun personId hkeep hmerge => ?_⟩
  · unfold ownChannels
    rw [hchannels, List.filter_map, List.map_map]
    have haddress : address ∘ moveTo userId keepId mergeId = address := funext address_moveTo
    have hfilter : (fun c : OntChannel => decide (c.userId = userId)) ∘
        moveTo userId keepId mergeId = fun c => decide (c.userId = userId) := by
      funext c
      dsimp only [Function.comp]
      rw [userId_moveTo]
    rw [haddress, hfilter]
  · unfold channelsOf
    rw [hchannels, ← hall]
    unfold keptChannels
    rw [List.filter_filter, List.filter_eq_nil_iff]
    intro c _
    by_cases h : c.personId = mergeId
    · simp [h]
    · simp [h]
  · unfold channelsOf
    rw [hchannels]
    clear hchannels hall
    generalize t.channels = cs at hown
    induction cs with
    | nil => exact List.Perm.refl _
    | cons c rest ih =>
        rw [List.forall_mem_cons] at hown
        have hrest := ih hown.2
        rw [List.map_cons, List.filter_cons, personId_moveTo, List.filter_cons, List.filter_cons]
        by_cases hmerge : c.personId = mergeId
        · have huser := hown.1 hmerge
          have hkeep : ¬ mergeId = keepId := fun h => hne h.symm
          have hmoved : moveTo userId keepId mergeId c = { c with personId := keepId } :=
            if_pos ⟨hmerge, huser⟩
          simpa [hmerge, huser, hkeep, hmoved] using hrest
        · have hstay : moveTo userId keepId mergeId c = c := if_neg (fun h => hmerge h.1)
          by_cases hkeep : c.personId = keepId
          · simp only [hstay, hkeep, hne, false_and, if_false, decide_true, if_true,
              decide_false, Bool.false_eq_true]
            exact (hrest.cons c).trans List.perm_middle.symm
          · simpa [hmerge, hkeep] using hrest
  · unfold channelsOf
    rw [hchannels, List.filter_map]
    have hfilter : t.channels.filter ((fun c : OntChannel => decide (c.personId = personId)) ∘
        moveTo userId keepId mergeId) = t.channels.filter (fun c => c.personId = personId) := by
      refine List.filter_congr fun c _ => ?_
      dsimp only [Function.comp]
      rw [personId_moveTo]
      split
      next h => simp [h.1, hkeep.symm, hmerge.symm]
      next h => rfl
    rw [hfilter]
    refine (List.map_congr_left fun c hc => ?_).trans (List.map_id _)
    have hperson : c.personId = personId := of_decide_eq_true (List.mem_filter.mp hc).2
    exact if_neg (fun h => hmerge (hperson.symm.trans h.1))

end Done

end

/-- A merge keeps the channels exactly where it is harmless. -/
theorem mergePersons_keepsChannels_iff (userId keepId mergeId now : Int) (t : Tables)
    (fates : List StatementFate) :
    KeepsChannels userId keepId mergeId now ⟨t, fates⟩ ↔
      Harmless userId keepId mergeId now t fates := by
  unfold KeepsChannels Harmless
  dsimp only
  by_cases hmove : CanMove userId keepId mergeId t
  · have hmoved := @movedTables_eq_self userId keepId mergeId t
    have htouched := @touched_moved_eq_self userId keepId mergeId now t
    have hdeleted := @deleted_eq_self userId keepId mergeId now t
    rcases @mergePersons_cases userId keepId mergeId now t fates hmove with
      ⟨h0, hstate, hvalue⟩ | ⟨h0, h1, hstate, hvalue⟩ | ⟨h0, h1, hstate, hvalue⟩
    · rw [hstate, hvalue, if_neg (by simp), if_neg (fun h => h0 h.2.1)]
      cases hfate : fateOf 0 fates with
      | done => exact absurd hfate h0
      | refused => simp [StatementFate.after]
      | lost => simp [StatementFate.after, hmoved, hmove]
    · rw [hstate, hvalue, if_neg (by simp), if_neg (fun h => h1 h.2.2.1)]
      cases hfate : fateOf 1 fates with
      | done => exact absurd hfate h1
      | refused => simp [StatementFate.after, hmoved, hmove, h0]
      | lost => simp [StatementFate.after, htouched, hmove, h0]
    · rw [hstate, hvalue]
      cases hfate : fateOf 2 fates with
      | refused =>
          rw [if_neg (by simp [StatementFate.answer]), if_neg (by simp)]
          simp [StatementFate.after, htouched, hmove, h0, h1]
      | lost =>
          rw [if_neg (by simp [StatementFate.answer]), if_neg (by simp)]
          simp [StatementFate.after, hdeleted, hmove, h0, h1, and_assoc]
      | done =>
          by_cases hvalid : Valid userId keepId mergeId t
          · rw [if_pos ⟨hvalid, rfl⟩, if_pos ⟨hvalid, h0, h1, rfl⟩]
            have hchannels := @channels_done userId keepId mergeId now t hvalid
            constructor
            · intro hmerged c hc hmerge
              by_contra huser
              have hlength := @length_keptChannels userId keepId mergeId hvalid.1 t.channels
              have hcount := hmerged.moved.length_eq
              unfold channelsOf at hcount
              rw [List.length_append, List.length_map, ← hlength] at hcount
              change ((Tables.deletePerson userId mergeId (Tables.touchPerson keepId now
                (movedTables userId keepId mergeId t))).channels.filter
                  (fun c => c.personId = keepId)).length = _ at hcount
              rw [hchannels] at hcount
              have hforeign : c ∈ t.channels.filter
                  (fun c => c.personId = mergeId ∧ c.userId ≠ userId) :=
                List.mem_filter.mpr ⟨hc, decide_eq_true ⟨hmerge, huser⟩⟩
              have hpos := List.length_pos_of_mem hforeign
              omega
            · exact fun hown => merged_of_own hvalid.1 hchannels hown
          · rw [if_neg (fun h => hvalid h.1), if_neg (fun h => hvalid h.1)]
            simp [StatementFate.after, hdeleted, hmove, h0, h1, and_assoc]
  · obtain ⟨hstate, hvalue⟩ := @mergePersons_blocked userId keepId mergeId now t fates hmove
    rw [hstate, hvalue, if_neg (by simp)]
    refine iff_of_true rfl ?_
    rw [if_neg]
    · exact fun h => absurd h hmove
    · rintro ⟨hvalid, -⟩
      refine hmove (.inl ?_)
      obtain ⟨p, hp, hown⟩ := List.any_eq_true.mp hvalid.2.1
      unfold Tables.ownPerson at hown
      exact List.any_eq_true.mpr ⟨p, hp, decide_eq_true (of_decide_eq_true hown).1⟩

/-! ## Merging a person with itself -/

def annWithChannel : Tables where
  persons := [⟨1, 7, "Ann", 0, 0⟩]
  channels := [⟨1, 7, 1, "whatsapp", none, some "!ann", "default", "sms", 1, 0⟩]
  edits := []
  personSerial := 1
  channelSerial := 1

/-- A merge of a person with itself deletes it with its channel, and returns. -/
theorem mergePersons_itself : ¬ KeepsChannels 7 1 1 100 ⟨annWithChannel, []⟩ := by
  intro h
  unfold KeepsChannels at h
  rw [if_neg (fun hboth => hboth.1.1 rfl)] at h
  have hchannels := congrArg Tables.channels h
  revert hchannels
  decide +kernel

end Lightfriend.People.Merge
