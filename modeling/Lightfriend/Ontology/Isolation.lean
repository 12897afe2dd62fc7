import Lightfriend.Ontology.People

/-! # What the requests of a user leave as it is

The rows of the other users are a view of the tables. Each statement keeps the
view where it only touches rows of the user, and a request keeps it statement by
statement, wherever it ends.
-/

namespace Lightfriend.People

open Procedure

/-- The persons, channels and edits of the other users. -/
def others (u : Int) (t : Tables) : List OntPerson × List OntChannel × List OntPersonEdit :=
  (Owner.others OntPerson.userId u t.persons, Owner.others OntChannel.userId u t.channels,
    Owner.others OntPersonEdit.userId u t.edits)

/-! ## The rules for statements -/

section Rules

variable {I : Tables → Prop} {α β : Type}

theorem keeps_statement {f : Tables → Option (α × Tables)}
    (h : ∀ t a t', I t → f t = some (a, t') → I t') :
    Keeps (fun w _ => I w.tables) (statement f) := by
  apply keeps_of_apply
  intro w _ hw
  unfold statement
  cases hf : f w.tables with
  | none => exact hw
  | some r =>
      cases w.fates.headD .done with
      | done => exact h w.tables r.1 r.2 hw hf
      | refused => exact hw
      | lost => exact h w.tables r.1 r.2 hw hf

theorem keeps_query {f : Tables → α} : Keeps (fun w _ => I w.tables) (query f) := by
  refine keeps_statement (fun t a t' ht heq => ?_)
  cases heq
  exact ht

theorem keeps_execute {f : Tables → Tables} (h : ∀ t, I t → I (f t)) :
    Keeps (fun w _ => I w.tables) (execute f) := by
  refine keeps_statement (fun t a t' ht heq => ?_)
  cases heq
  exact h t ht

theorem keeps_pure {a : α} : Keeps (fun w _ => I w.tables) (pure a : Db α) :=
  ensures_pure (fun _ _ hw => hw)

theorem keeps_leave : Keeps (fun w _ => I w.tables) (leave : Db α) :=
  ensures_leave (fun _ _ hw => hw)

theorem keeps_logChange {userId : Int} {entityType : String} {entityId : Int}
    {changeType : String} {changedFields : Option String} {source : String} :
    Keeps (fun w _ => I w.tables)
      (logChange userId entityType entityId changeType changedFields source) :=
  ensures_emit (fun _ _ hw => hw)

theorem keeps_attempt {p : Db Unit} (h : Keeps (fun w _ => I w.tables) p) :
    Keeps (fun w _ => I w.tables) (attempt p) := by
  apply keeps_of_apply
  intro w log hw
  exact @Keeps.apply _ _ _ _ _ h w log hw

/-- A query of tables that are known. -/
theorem ensures_query {t₀ : Tables} (f : Tables → α) :
    Ensures (fun w _ => w.tables = t₀) (query f) (fun a w _ => a = f t₀ ∧ w.tables = t₀)
      (fun w _ => w.tables = t₀) := by
  intro w log hw
  unfold query statement
  cases w.fates.headD .done with
  | done => exact ⟨congrArg f hw, hw⟩
  | refused => exact hw
  | lost => exact hw

end Rules

/-! ## What the statements leave -/

section Statements

variable {u : Int}

theorem others_insertPerson {name : String} {now : Int} {t t' : Tables} {p : OntPerson}
    (h : Tables.insertPerson u name now t = some (p, t')) : others u t' = others u t := by
  cases h
  unfold others
  rw [Owner.others_insert (by rfl)]

theorem others_insertChannel {personId now : Int} {platform : String}
    {handle roomId : Option String} {t t' : Tables} {c : OntChannel}
    (h : Tables.insertChannel u personId platform handle roomId now t = some (c, t')) :
    others u t' = others u t := by
  unfold Tables.insertChannel at h
  split at h
  · cases h
    unfold others
    rw [Owner.others_insert (by rfl)]
  · cases h

theorem others_updateChannels {p : OntChannel → Bool} {set : OntChannel → OntChannel} {t : Tables}
    (hp : ∀ c ∈ t.channels, p c = true → c.userId = u)
    (hset : ∀ c, (set c).userId = c.userId) :
    others u (Tables.updateChannels p set t) = others u t := by
  unfold others Tables.updateChannels
  rw [Owner.others_update hp hset]

theorem others_updatePersons {p : OntPerson → Bool} {set : OntPerson → OntPerson} {t : Tables}
    (hp : ∀ r ∈ t.persons, p r = true → r.userId = u)
    (hset : ∀ r, (set r).userId = r.userId) :
    others u (Tables.updatePersons p set t) = others u t := by
  unfold others Tables.updatePersons
  rw [Owner.others_update hp hset]

theorem others_updateEdit {personId now : Int} {property value : String} {t t' : Tables} {n : Nat}
    (h : Tables.updateEdit u personId property value now t = some (n, t')) :
    others u t' = others u t := by
  cases h
  refine congrArg (Prod.mk _) (congrArg (Prod.mk _) (Owner.others_update ?_ (fun _ => rfl)))
  intro e _ he
  simp only [Tables.editOf, decide_eq_true_eq] at he
  exact he.1

theorem others_insertEdit {personId now : Int} {property value : String} {t t' : Tables}
    (h : Tables.insertEdit u personId property value now t = some ((), t')) :
    others u t' = others u t := by
  unfold Tables.insertEdit at h
  split at h
  · cases h
    unfold others
    rw [Owner.others_insert (by rfl)]
  · cases h

theorem others_moveChannels {keepId mergeId : Int} {t t' : Tables}
    (h : Tables.moveChannels u keepId mergeId t = some ((), t')) : others u t' = others u t := by
  unfold Tables.moveChannels at h
  split at h
  · cases h
    refine others_updateChannels (fun c _ hc => ?_) (fun _ => rfl)
    simp only [decide_eq_true_eq] at hc
    exact hc.2
  · cases h

/-- What refers to the person, where it is one of the user's, belongs to the user. -/
def AttachedOwn (u personId : Int) (t : Tables) : Prop :=
  t.persons.any (Tables.ownPerson u personId) = true →
    (∀ c ∈ t.channels, c.personId = personId → c.userId = u) ∧
      ∀ e ∈ t.edits, e.personId = personId → e.userId = u

theorem others_deletePerson {personId : Int} {t : Tables} (h : AttachedOwn u personId t) :
    others u (Tables.deletePerson u personId t) = others u t := by
  unfold Tables.deletePerson
  split
  next hown =>
    obtain ⟨hchannels, hedits⟩ := h hown
    unfold others
    rw [Owner.others_delete, Owner.others_delete, Owner.others_delete]
    · intro e he hid
      exact hedits e he (by simpa using hid)
    · intro c hc hid
      exact hchannels c hc (by simpa using hid)
    · intro p _ hp
      simp only [Tables.ownPerson, decide_eq_true_eq] at hp
      exact hp.2
  next => rfl

/-- The person, where it exists, is one of the user's. -/
def OwnPersonId (u personId : Int) (t : Tables) : Prop :=
  ∀ p ∈ t.persons, p.id = personId → p.userId = u

def OwnChannelId (u channelId : Int) (t : Tables) : Prop :=
  ∀ c ∈ t.channels, c.id = channelId → c.userId = u

theorem OwnPersonId.of_others {personId : Int} {t t' : Tables} (h : OwnPersonId u personId t)
    (heq : others u t' = others u t) : OwnPersonId u personId t' := by
  intro p hp hid
  by_contra hne
  have hmem : p ∈ (others u t').1 := Owner.mem_others.mpr ⟨hp, hne⟩
  rw [heq] at hmem
  obtain ⟨hold, -⟩ := Owner.mem_others.mp hmem
  exact hne (h p hold hid)

theorem others_touchPerson {personId now : Int} {t : Tables} (h : OwnPersonId u personId t) :
    others u (Tables.touchPerson personId now t) = others u t :=
  others_updatePersons (fun p hp hid => h p hp (by simpa using hid)) (fun _ => rfl)

end Statements

/-! ## What the requests leave -/

/-- The rows that the request names are the user's, where it writes them by their id alone. -/
def NamesOwn (lower : String → String) (u : Int) (t : Tables) : Request → Prop
  | .upsertPerson name platform _ roomId =>
      (∀ rid ∈ roomId, roomChannel u rid t = none) →
      ∀ person ∈ namedPerson lower u name t, ∀ ch ∈ platformChannel person.id platform t,
        ch.roomId = none → roomId.isSome = true → OwnChannelId u ch.id t
  | .updatePerson personId req => req.edits ≠ [] → OwnPersonId u personId t
  | .deletePerson personId => AttachedOwn u personId t
  | .updatePersonChannel _ channelId _ _ _ => OwnChannelId u channelId t
  | .mergePersons keepId mergeId => OwnPersonId u keepId t ∧ AttachedOwn u mergeId t
  | .createPerson _ _ => True
  | .addPersonChannel _ _ => True
  | .deletePersonChannel _ _ => True

instance (u id : Int) (t : Tables) : Decidable (OwnPersonId u id t) :=
  inferInstanceAs (Decidable (∀ p ∈ t.persons, p.id = id → p.userId = u))

instance (u id : Int) (t : Tables) : Decidable (OwnChannelId u id t) :=
  inferInstanceAs (Decidable (∀ c ∈ t.channels, c.id = id → c.userId = u))

instance (u id : Int) (t : Tables) : Decidable (AttachedOwn u id t) := by
  unfold AttachedOwn
  infer_instance

instance (lower : String → String) (u : Int) (t : Tables) (request : Request) :
    Decidable (NamesOwn lower u t request) := by
  cases request <;> unfold NamesOwn <;> infer_instance

section Requests

variable {u : Int} {t₀ : Tables}

/-- Nothing of the others has changed. -/
def Same (u : Int) (t₀ t : Tables) : Prop := others u t = others u t₀

theorem keeps_addChannel {personId now : Int} {platform : String} {handle roomId : Option String} :
    Keeps (fun w _ => Same u t₀ w.tables)
      (addChannel u personId platform handle roomId now) := by
  unfold addChannel
  have hinsert : Keeps (fun w _ => Same u t₀ w.tables)
      (statement (Tables.insertChannel u personId platform handle roomId now)) :=
    keeps_statement (fun t c t' ht h => (others_insertChannel h).trans ht)
  exact hinsert.bind (fun _ => Keeps.bind keeps_logChange (fun _ => keeps_pure))

theorem keeps_createPerson {name : String} {now : Int} :
    Keeps (fun w _ => Same u t₀ w.tables) (createPerson u name now) := by
  unfold createPerson
  have hinsert : Keeps (fun w _ => Same u t₀ w.tables)
      (statement (Tables.insertPerson u name now)) :=
    keeps_statement (fun t c t' ht h => (others_insertPerson h).trans ht)
  exact hinsert.bind (fun _ => Keeps.bind keeps_logChange (fun _ => keeps_pure))

theorem keeps_addChannels {personId now : Int} (channels : List CreateChannelRequest) :
    Keeps (fun w _ => Same u t₀ w.tables) (addChannels u personId now channels) := by
  induction channels with
  | nil => exact keeps_pure
  | cons ch rest ih =>
      exact Keeps.bind (keeps_attempt (Keeps.bind keeps_addChannel (fun _ => keeps_pure)))
        (fun _ => ih)

theorem keeps_getPersonWithChannels {I : Tables → Prop} {personId : Int} :
    Keeps (fun w _ => I w.tables) (getPersonWithChannels u personId) := by
  unfold getPersonWithChannels
  refine Keeps.bind keeps_query (fun found => ?_)
  cases found with
  | none => exact keeps_leave
  | some person =>
      exact Keeps.bind keeps_query (fun _ => Keeps.bind keeps_query (fun _ => keeps_pure))

theorem keeps_updatePersonName {personId now : Int} {name : String} :
    Keeps (fun w _ => Same u t₀ w.tables) (updatePersonName u personId name now) := by
  refine keeps_execute (fun t ht => (others_updatePersons (fun p _ hp => ?_) ?_).trans ht)
  · simp only [Tables.ownPerson, decide_eq_true_eq] at hp
    exact hp.2
  · exact fun _ => rfl

theorem keeps_setPersonEdit {personId now : Int} {property value : String}
    (h : OwnPersonId u personId t₀) :
    Keeps (fun w _ => Same u t₀ w.tables) (setPersonEdit u personId property value now) := by
  unfold setPersonEdit
  have hupdate : Keeps (fun w _ => Same u t₀ w.tables)
      (statement (Tables.updateEdit u personId property value now)) :=
    keeps_statement (fun t n t' ht heq => (others_updateEdit heq).trans ht)
  have hinsert : Keeps (fun w _ => Same u t₀ w.tables)
      (statement (Tables.insertEdit u personId property value now)) :=
    keeps_statement (fun t n t' ht heq => (others_insertEdit heq).trans ht)
  have htouch : Keeps (fun w _ => Same u t₀ w.tables)
      (execute (Tables.touchPerson personId now)) :=
    keeps_execute (fun t ht => (others_touchPerson (h.of_others ht)).trans ht)
  refine hupdate.bind (fun updated => ?_)
  by_cases hzero : updated = 0
  · rw [if_pos hzero]
    exact hinsert.bind (fun _ => htouch.bind (fun _ => keeps_logChange))
  · rw [if_neg hzero]
    exact htouch.bind (fun _ => keeps_logChange)

theorem keeps_setPersonEdits {personId now : Int} (edits : List (String × String))
    (h : edits ≠ [] → OwnPersonId u personId t₀) :
    Keeps (fun w _ => Same u t₀ w.tables) (setPersonEdits u personId now edits) := by
  induction edits with
  | nil => exact keeps_pure
  | cons edit rest ih =>
      have hown := h (List.cons_ne_nil edit rest)
      exact Keeps.bind (keeps_attempt (keeps_setPersonEdit hown)) (fun _ => ih (fun _ => hown))

/-- Moving the channels of the user leaves attached what was attached, and the persons as they
were. -/
theorem attachedOwn_moveChannels {keepId mergeId : Int} {t t' : Tables}
    (h : AttachedOwn u mergeId t) (hmove : Tables.moveChannels u keepId mergeId t = some ((), t')) :
    AttachedOwn u mergeId t' := by
  unfold Tables.moveChannels at hmove
  split at hmove
  · cases hmove
    intro hown
    obtain ⟨hchannels, hedits⟩ := h hown
    refine ⟨fun c hc hid => ?_, hedits⟩
    obtain ⟨old, hold, rfl⟩ := List.mem_map.mp hc
    by_cases hp : old.personId = mergeId ∧ old.userId = u
    · simp only [hp, and_self, decide_true, if_true]
    · simp only [hp, decide_false] at hid ⊢
      exact hchannels old hold hid
  · cases hmove

theorem attachedOwn_touchPerson {personId mergeId now : Int} {t : Tables}
    (h : AttachedOwn u mergeId t) : AttachedOwn u mergeId (Tables.touchPerson personId now t) := by
  intro hown
  refine h ?_
  obtain ⟨p, hp, hrow⟩ := List.any_eq_true.mp hown
  obtain ⟨old, hold, rfl⟩ := List.mem_map.mp hp
  refine List.any_eq_true.mpr ⟨old, hold, ?_⟩
  split at hrow
  · exact hrow
  · exact hrow

/-- A statement after which less is known. -/
theorem ensures_execute {I J : Tables → Prop} {f : Tables → Tables} (hIJ : ∀ t, I t → J t)
    (h : ∀ t, I t → J (f t)) :
    Ensures (fun w (_ : List Change) => I w.tables) (execute f) (fun _ w _ => J w.tables)
      (fun w _ => J w.tables) := by
  intro w log hw
  unfold execute statement
  cases w.fates.headD .done with
  | done => exact h w.tables hw
  | refused => exact hIJ w.tables hw
  | lost => exact h w.tables hw

theorem ensures_mergePersons {keepId mergeId now : Int} (hkeep : OwnPersonId u keepId t₀) :
    Ensures (fun w _ => Same u t₀ w.tables ∧ AttachedOwn u mergeId w.tables)
      (mergePersons u keepId mergeId now) (fun _ w _ => Same u t₀ w.tables)
      (fun w _ => Same u t₀ w.tables) := by
  have hmove : Keeps (fun w _ => Same u t₀ w.tables ∧ AttachedOwn u mergeId w.tables)
      (statement (Tables.moveChannels u keepId mergeId)) :=
    keeps_statement (I := fun t => Same u t₀ t ∧ AttachedOwn u mergeId t) (fun t _ t' ht heq =>
      ⟨(others_moveChannels heq).trans ht.1, attachedOwn_moveChannels ht.2 heq⟩)
  have htouch : Keeps (fun w _ => Same u t₀ w.tables ∧ AttachedOwn u mergeId w.tables)
      (execute (Tables.touchPerson keepId now)) :=
    keeps_execute (I := fun t => Same u t₀ t ∧ AttachedOwn u mergeId t) (fun t ht =>
      ⟨(others_touchPerson (hkeep.of_others ht.1)).trans ht.1, attachedOwn_touchPerson ht.2⟩)
  have hlog : Keeps (fun w _ => Same u t₀ w.tables ∧ AttachedOwn u mergeId w.tables)
      (logChange u "person" keepId "merged"
        (some ("\x7b\"merged_from\":" ++ toString mergeId ++ "\x7d")) "user_action") :=
    keeps_logChange (I := fun t => Same u t₀ t ∧ AttachedOwn u mergeId t)
  have hdelete : Ensures (fun w _ => Same u t₀ w.tables ∧ AttachedOwn u mergeId w.tables)
      (execute (Tables.deletePerson u mergeId)) (fun _ w _ => Same u t₀ w.tables)
      (fun w _ => Same u t₀ w.tables) :=
    ensures_execute (I := fun t => Same u t₀ t ∧ AttachedOwn u mergeId t) (fun _ ht => ht.1)
      (fun t ht => (others_deletePerson ht.2).trans ht.1)
  have hearly : ∀ (w : World) (_ : List Change),
      Same u t₀ w.tables ∧ AttachedOwn u mergeId w.tables → Same u t₀ w.tables := fun _ _ h => h.1
  unfold mergePersons
  exact (hmove.weaken (fun _ _ _ h => h) hearly).bind (fun _ =>
    (htouch.weaken (fun _ _ _ h => h) hearly).bind (fun _ =>
      (hlog.weaken (fun _ _ _ h => h) hearly).bind (fun _ => hdelete)))

theorem same_of_eq (w : World) (_ : List Change) (h : w.tables = t₀) : Same u t₀ w.tables :=
  congrArg (others u) h

theorem keeps_linkPlatform {person : OntPerson} {platform : String} {handle roomId : Option String}
    {now : Int} {found : Option OntChannel}
    (h : ∀ ch, found = some ch → ch.roomId = none → roomId.isSome = true →
      OwnChannelId u ch.id t₀) :
    Ensures (fun w _ => w.tables = t₀) (linkPlatform u person platform handle roomId now found)
      (fun _ w _ => Same u t₀ w.tables) (fun w _ => Same u t₀ w.tables) := by
  cases found with
  | none =>
      have hinsert : Keeps (fun w _ => Same u t₀ w.tables)
          (statement (Tables.insertChannel u person.id platform handle roomId now)) :=
        keeps_statement (fun t c t' ht heq => (others_insertChannel heq).trans ht)
      have hall : Keeps (fun w _ => Same u t₀ w.tables)
          (linkPlatform u person platform handle roomId now none) :=
        hinsert.bind (fun _ => Keeps.bind keeps_logChange (fun _ => keeps_pure))
      exact fun w log hw => hall w log (same_of_eq w log hw)
  | some ch =>
      simp only [linkPlatform]
      by_cases hset : ch.roomId.isNone ∧ roomId.isSome
      · rw [if_pos hset]
        have hown := h ch rfl (by simpa using hset.1) hset.2
        have hexec : Ensures (fun w _ => w.tables = t₀)
            (execute (Tables.updateChannels (fun c => c.id = ch.id) (fun c => { c with roomId })))
            (fun _ w _ => Same u t₀ w.tables) (fun w _ => Same u t₀ w.tables) := by
          refine ensures_execute (I := fun t => t = t₀) (fun t ht => congrArg (others u) ht)
            (fun t ht => ?_)
          rw [ht]
          exact others_updateChannels (fun c hc hid => hown c hc (by simpa using hid))
            (fun _ => rfl)
        exact hexec.bind (fun _ => ensures_pure (fun _ _ hw => hw))
      · rw [if_neg hset]
        exact ensures_pure (fun w log hw => same_of_eq w log hw)

theorem ensures_upsertNamed {lower : String → String} {name platform : String}
    {handle roomId : Option String} {now : Int}
    (h : ∀ person ch, namedPerson lower u name t₀ = some person →
      platformChannel person.id platform t₀ = some ch → ch.roomId = none →
      roomId.isSome = true → OwnChannelId u ch.id t₀) :
    Ensures (fun w _ => w.tables = t₀) (upsertNamed lower u name platform handle roomId now)
      (fun _ w _ => Same u t₀ w.tables) (fun w _ => Same u t₀ w.tables) := by
  unfold upsertNamed
  refine ((ensures_query (namedPerson lower u name)).weaken (fun _ _ _ hq => hq)
    same_of_eq).bind (fun named => ?_)
  cases named with
  | none =>
      have hperson : Keeps (fun w _ => Same u t₀ w.tables)
          (statement (Tables.insertPerson u name now)) :=
        keeps_statement (fun t p t' ht heq => (others_insertPerson heq).trans ht)
      have hchannel : ∀ person : OntPerson, Keeps (fun w _ => Same u t₀ w.tables)
          (statement (Tables.insertChannel u person.id platform handle roomId now)) :=
        fun person => keeps_statement (fun t c t' ht heq => (others_insertChannel heq).trans ht)
      have hall : Keeps (fun w _ => Same u t₀ w.tables)
          (createWithChannel u name platform handle roomId now) :=
        hperson.bind (fun person => Keeps.bind keeps_logChange (fun _ =>
          (hchannel person).bind (fun _ => Keeps.bind keeps_logChange (fun _ => keeps_pure))))
      exact fun w log hw => hall w log (same_of_eq w log hw.2)
  | some person =>
      intro w log hw
      have hlink : Ensures (fun w _ => w.tables = t₀) (do
          let found ← query (platformChannel person.id platform)
          linkPlatform u person platform handle roomId now found)
          (fun _ w _ => Same u t₀ w.tables) (fun w _ => Same u t₀ w.tables) := by
        refine ((ensures_query (platformChannel person.id platform)).weaken (fun _ _ _ hq => hq)
          same_of_eq).bind (fun found => ?_)
        intro w' log' hw'
        exact keeps_linkPlatform
          (fun ch hch => h person ch hw.1.symm (hw'.1.symm.trans hch)) w' log' hw'.2
      exact hlink w log hw.2

theorem ensures_upsertPerson {lower : String → String} {name platform : String}
    {handle roomId : Option String} {now : Int}
    (h : NamesOwn lower u t₀ (.upsertPerson name platform handle roomId)) :
    Ensures (fun w _ => w.tables = t₀) (upsertPerson lower u name platform handle roomId now)
      (fun _ w _ => Same u t₀ w.tables) (fun w _ => Same u t₀ w.tables) := by
  have hfound : Ensures (fun w _ => w.tables = t₀) (findRoomChannel u roomId)
      (fun found w _ => (found = none → ∀ rid, roomId = some rid → roomChannel u rid t₀ = none) ∧
        w.tables = t₀) (fun w _ => Same u t₀ w.tables) := by
    cases roomId with
    | none => exact ensures_pure (fun w _ hw => ⟨(fun _ _ hr => by cases hr), hw⟩)
    | some rid =>
        refine (ensures_query (roomChannel u rid)).weaken (fun found w log hq => ⟨?_, hq.2⟩)
          same_of_eq
        intro hnone rid' hr
        cases hr
        rw [← hq.1, hnone]
  unfold upsertPerson
  refine hfound.bind (fun found => ?_)
  cases found with
  | some ch =>
      have hkeep : Keeps (fun w _ => Same u t₀ w.tables) (personOfChannel ch) := by
        refine Keeps.bind keeps_query (fun person => ?_)
        cases person with
        | none => exact keeps_leave
        | some person => exact keeps_pure
      exact fun w log hw => hkeep w log (same_of_eq w log hw.2)
  | none =>
      exact fun w log hw => ensures_upsertNamed
        (fun person ch hperson hch => h (hw.1 rfl) person hperson ch hch) w log hw.2

theorem same_of_ensures {α : Type} {p : Db α} {pre : World → List Change → Prop}
    (h : Ensures pre p (fun _ w _ => Same u t₀ w.tables) (fun w _ => Same u t₀ w.tables))
    {w : World} (hw : pre w []) : Same u t₀ (p w).state.tables := by
  have hend := h w [] hw
  cases hvalue : (p w).value with
  | none => rwa [hvalue] at hend
  | some a => rwa [hvalue] at hend

/-- Wherever a request ends, it has left the rows of the others as they were. -/
theorem handle_same {lower : String → String} {now : Int} {request : Request} {w : World}
    (h : NamesOwn lower u w.tables request) :
    Same u w.tables (handle lower u now request w).state.tables := by
  have hself : Same u w.tables w.tables := rfl
  have hget : ∀ personId, Keeps (fun v _ => Same u w.tables v.tables) (do
      let _ ← getPersonWithChannels u personId
      return () : Db Unit) :=
    fun personId => Keeps.bind keeps_getPersonWithChannels (fun _ => keeps_pure)
  cases request with
  | upsertPerson name platform handle roomId =>
      exact same_of_ensures ((ensures_upsertPerson h).bind
        (fun _ => ensures_pure (fun _ _ hv => hv))) rfl
  | createPerson name channels =>
      exact same_of_ensures (keeps_createPerson.bind (fun person =>
        (keeps_addChannels (channels.getD [])).bind (fun _ => hget person.id))) hself
  | updatePerson personId req =>
      have hedits : Keeps (fun v _ => Same u w.tables v.tables)
          (setPersonEdits u personId now req.edits) := keeps_setPersonEdits req.edits h
      cases hname : req.name with
      | none =>
          simp only [handle, hname]
          exact same_of_ensures (hedits.bind (fun _ => hget personId)) hself
      | some name =>
          simp only [handle, hname]
          exact same_of_ensures (keeps_updatePersonName.bind (fun _ =>
            hedits.bind (fun _ => hget personId))) hself
  | deletePerson personId =>
      have hdelete : Ensures (fun v _ => v.tables = w.tables)
          (execute (Tables.deletePerson u personId)) (fun _ v _ => Same u w.tables v.tables)
          (fun v _ => Same u w.tables v.tables) :=
        ensures_execute (I := fun t => t = w.tables) (fun t ht => congrArg (others u) ht)
          (fun t ht => by rw [ht]; exact others_deletePerson h)
      have hlog : Ensures (fun v _ => v.tables = w.tables)
          (logChange u "person" personId "deleted" none "user_action")
          (fun _ v _ => v.tables = w.tables) (fun v _ => Same u w.tables v.tables) :=
        ensures_emit (fun _ _ hv => hv)
      exact same_of_ensures (hlog.bind (fun _ => hdelete)) rfl
  | addPersonChannel personId req =>
      exact same_of_ensures (keeps_addChannel.bind (fun _ => keeps_pure)) hself
  | updatePersonChannel personId channelId mode ntype onCall =>
      have hupdate : Ensures (fun v _ => v.tables = w.tables)
          (updateChannelNotification channelId (mode.getD "default") (ntype.getD "sms")
            (onCall.getD 1)) (fun _ v _ => Same u w.tables v.tables)
          (fun v _ => Same u w.tables v.tables) := by
        refine ensures_execute (I := fun t => t = w.tables) (fun t ht => congrArg (others u) ht)
          (fun t ht => ?_)
        rw [ht]
        exact others_updateChannels (fun c hc hid => h c hc (by simpa using hid)) (fun _ => rfl)
      exact same_of_ensures (hupdate.bind (fun _ => hget personId)) rfl
  | deletePersonChannel personId channelId =>
      have hdelete : Keeps (fun v _ => Same u w.tables v.tables) (execute (fun t => { t with
          channels := t.channels.filter
            (fun c => !decide (c.id = channelId ∧ c.userId = u)) })) := by
        refine keeps_execute (fun t ht => ?_)
        refine Eq.trans (congrArg (fun cs => (_, cs, _)) (Owner.others_delete ?_)) ht
        intro c _ hc
        exact (of_decide_eq_true hc).2
      exact same_of_ensures (Keeps.bind keeps_logChange (fun _ => hdelete)) hself
  | mergePersons keepId mergeId =>
      have hmerge : Ensures (fun v _ => Same u w.tables v.tables ∧ AttachedOwn u mergeId v.tables)
          (mergePersons u keepId mergeId now) (fun _ v _ => Same u w.tables v.tables)
          (fun v _ => Same u w.tables v.tables) := ensures_mergePersons h.1
      exact same_of_ensures (hmerge.bind (fun _ => hget keepId)) ⟨hself, h.2⟩

end Requests

/-! ## Sequences of requests -/

/-- A request, the time it is served, and how its statements end. -/
structure Call where
  request : Request
  now : Int
  fates : List StatementFate
deriving DecidableEq, Repr

def step (lower : String → String) (u : Int) (t : Tables) (call : Call) : Option Tables :=
  some (handle lower u call.now call.request ⟨t, call.fates⟩).state.tables

/-- Requests that write by an id alone only rows of their user leave the persons, channels and
edits of every other user as they are. -/
theorem people_isolated {lower : String → String} {u : Int} {t₀ t : Tables} {calls : List Call}
    (hmeets : Transition.Meets (step lower u) (fun t call => NamesOwn lower u t call.request) t₀
      calls)
    (hrun : Transition.run (step lower u) t₀ calls = some t) : others u t = others u t₀ := by
  refine @Transition.run_invariant _ _ _ _ (fun t => others u t = others u t₀)
    (fun s call next hs hok hstep => ?_) _ _ _ rfl hmeets hrun
  cases hstep
  exact (handle_same hok).trans hs

/-! ## Two users -/

/-- Ann is user 1, Bob user 2; each knows one person with one channel. -/
def twoUsers : Tables where
  persons := [⟨10, 1, "Carol", 0, 0⟩, ⟨20, 2, "Dave", 0, 0⟩]
  channels := [⟨100, 1, 10, "whatsapp", none, none, "default", "sms", 1, 0⟩,
    ⟨200, 2, 20, "telegram", none, none, "all", "sms", 1, 0⟩]
  edits := []
  personSerial := 20
  channelSerial := 200

def ownRequests : List Call :=
  [⟨.updatePersonChannel 10 100 (some "all") none none, 5, []⟩,
    ⟨.updatePersonChannel 20 100 none none none, 6, []⟩,
    ⟨.deletePerson 20, 7, []⟩, ⟨.mergePersons 10 20, 8, []⟩]

theorem ownRequests_isolated :
    others 1 (Transition.final (step id 1) twoUsers ownRequests) = others 1 twoUsers :=
  @people_isolated id 1 twoUsers (Transition.final (step id 1) twoUsers ownRequests)
    ownRequests (by decide +kernel) (Transition.run_eq_final (by decide +kernel))

/-- Ann names the channel of Bob: his settings change, and she is answered with an error. -/
theorem foreignChannel_changed :
    others 1 (Transition.final (step id 1) twoUsers
      [⟨.updatePersonChannel 20 200 (some "off") none none, 5, []⟩]) ≠ others 1 twoUsers ∧
    (handle id 1 5 (.updatePersonChannel 20 200 (some "off") none none) ⟨twoUsers, []⟩).value =
      none := by
  decide +kernel

end Lightfriend.People
