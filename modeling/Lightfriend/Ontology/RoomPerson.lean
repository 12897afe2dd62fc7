import Lightfriend.Ontology.Isolation

/-! # The person of a chat room

A person is looked up by the room of one of its channels, then by its name. A call
that finds the person by name puts the room on a channel only where the person has
no channel on the platform, or one without a room.
-/

namespace Lightfriend.People.RoomPerson

open Procedure

/-! ## Calls -/

/-- A call of `upsert_person`, with how its statements end. -/
structure Call where
  userId : Int
  name : String
  platform : String
  handle : Option String
  roomId : Option String
  now : Int
  fates : List StatementFate
deriving DecidableEq, Repr

section

variable (lower : String → String)

def outcome (t : Tables) (c : Call) : Outcome World Change OntPerson :=
  upsertPerson lower c.userId c.name c.platform c.handle c.roomId c.now ⟨t, c.fates⟩

/-- The person that the call returns; an error is `none`. -/
def answer (t : Tables) (c : Call) : Option OntPerson := (outcome lower t c).value

def after (t : Tables) (c : Call) : Tables := (outcome lower t c).state.tables

def run (t : Tables) (calls : List Call) : Tables := calls.foldl (after lower) t

/-! ## The meaning -/

/-- No two channels of one user carry the same room. -/
def RoomsApart (t : Tables) : Prop :=
  t.channels.Pairwise (fun a b =>
    a.userId = b.userId → ∀ r, a.roomId = some r → b.roomId ≠ some r)

/-- The tables as the database keeps them: ids are unique and handed out in order, the person of a
channel exists and is one of its user, and no two channels of a user carry the same room. -/
structure Sound (t : Tables) : Prop where
  persons : (t.persons.map (·.id)).Nodup
  personSerial : ∀ p ∈ t.persons, p.id ≤ t.personSerial
  channels : (t.channels.map (·.id)).Nodup
  channelSerial : ∀ ch ∈ t.channels, ch.id ≤ t.channelSerial
  attached : ∀ ch ∈ t.channels, ∃ p ∈ t.persons, p.id = ch.personId ∧ p.userId = ch.userId
  rooms : RoomsApart t

/-- Once a call with a room returned a person, a later call with it returns this person, unless a
statement of it fails; and at no time do two channels of a user carry the same room. -/
def RoomKeepsPerson (t : Tables) (calls : List Call) : Prop :=
  (∀ front c middle d back r x, calls = front ++ c :: (middle ++ d :: back) →
    c.userId = d.userId → c.roomId = some r → d.roomId = some r →
    answer lower (run lower t front) c = some x →
    answer lower (run lower t (front ++ c :: middle)) d = some x ∨
      answer lower (run lower t (front ++ c :: middle)) d = none ∧
        ∃ fate ∈ d.fates, fate ≠ .done) ∧
  ∀ front back, calls = front ++ back → RoomsApart (run lower t front)

/-- Where no channel of the user has the room of the call yet, and there is a person with the name,
its channel on the platform, if it has one, has no other room. -/
def RoomFits (t : Tables) (c : Call) : Prop :=
  ∀ r, c.roomId = some r → roomChannel c.userId r t = none →
    ∀ p, namedPerson lower c.userId c.name t = some p →
      ∀ ch, platformChannel p.id c.platform t = some ch → ch.roomId = none

/-- Every call of the run finds its room fitting. -/
def RoomsFit (t : Tables) (calls : List Call) : Prop :=
  ∀ front c back, calls = front ++ c :: back → RoomFits lower (run lower t front) c

end

/-! ## What a call leaves -/

/-- No person is lost, nor a channel with a room. -/
structure Grows (t t' : Tables) : Prop where
  sound : Sound t'
  persons : ∀ p ∈ t.persons, p ∈ t'.persons
  channels : ∀ ch ∈ t.channels, ch.roomId ≠ none → ch ∈ t'.channels

/-- A channel of the user with the room leads to the person. -/
def LeadsTo (t : Tables) (userId : Int) (r : String) (x : OntPerson) : Prop :=
  x ∈ t.persons ∧
    ∃ ch ∈ t.channels, ch.userId = userId ∧ ch.roomId = some r ∧ ch.personId = x.id

section

variable {lower : String → String} {t t' t'' : Tables} {userId now : Int} {r : String}
variable {x p : OntPerson} {ch : OntChannel}

theorem Sound.grows (h : Sound t) : Grows t t := ⟨h, fun _ hp => hp, fun _ hch _ => hch⟩

theorem Grows.trans (h : Grows t t') (h' : Grows t' t'') : Grows t t'' :=
  ⟨h'.sound, fun p hp => h'.persons p (h.persons p hp),
    fun ch hch hroom => h'.channels ch (h.channels ch hch hroom) hroom⟩

theorem Grows.leadsTo (h : Grows t t') (hx : LeadsTo t userId r x) : LeadsTo t' userId r x := by
  obtain ⟨hmem, ch, hch, huser, hroom, hperson⟩ := hx
  exact ⟨h.persons x hmem, ch, h.channels ch hch (by simp [hroom]), huser, hroom, hperson⟩

theorem grows_insertPerson {name : String} (h : Sound t) :
    Grows t { t with
      persons := t.persons ++ [t.newPerson userId name now]
      personSerial := t.personSerial + 1 } := by
  refine ⟨⟨?_, ?_, h.channels, h.channelSerial, ?_, h.rooms⟩,
    fun p hp => List.mem_append_left _ hp, fun ch hch _ => hch⟩
  · rw [List.map_append, List.nodup_append]
    refine ⟨h.persons, List.nodup_singleton _, ?_⟩
    rintro a ha b hb rfl
    obtain ⟨p, hp, hid⟩ := List.mem_map.mp ha
    have hle := h.personSerial p hp
    have hnew : a = t.personSerial + 1 := List.mem_singleton.mp hb
    omega
  · intro p hp
    rcases List.mem_append.mp hp with hp | hp
    · have hle := h.personSerial p hp
      dsimp only
      omega
    · rw [List.mem_singleton.mp hp]
      exact le_refl _
  · intro ch hch
    obtain ⟨p, hp, hids⟩ := h.attached ch hch
    exact ⟨p, List.mem_append_left _ hp, hids⟩

/-- A new channel brings no room that the user has already. -/
theorem grows_insertChannel {platform : String} {handle roomId : Option String} (h : Sound t)
    (hp : p ∈ t.persons) (huser : p.userId = userId)
    (hroom : ∀ r, roomId = some r → roomChannel userId r t = none) :
    Grows t { t with
      channels := t.channels ++ [t.newChannel userId p.id platform handle roomId now]
      channelSerial := t.channelSerial + 1 } := by
  refine ⟨⟨h.persons, h.personSerial, ?_, ?_, ?_, ?_⟩, fun _ hp => hp,
    fun ch hch _ => List.mem_append_left _ hch⟩
  · rw [List.map_append, List.nodup_append]
    refine ⟨h.channels, List.nodup_singleton _, ?_⟩
    rintro a ha b hb rfl
    obtain ⟨ch, hch, hid⟩ := List.mem_map.mp ha
    have hle := h.channelSerial ch hch
    have hnew : a = t.channelSerial + 1 := List.mem_singleton.mp hb
    omega
  · intro ch hch
    rcases List.mem_append.mp hch with hch | hch
    · have hle := h.channelSerial ch hch
      dsimp only
      omega
    · rw [List.mem_singleton.mp hch]
      exact le_refl _
  · intro ch hch
    rcases List.mem_append.mp hch with hch | hch
    · exact h.attached ch hch
    · rw [List.mem_singleton.mp hch]
      exact ⟨p, hp, rfl, huser⟩
  · unfold RoomsApart
    rw [List.pairwise_append]
    refine ⟨h.rooms, List.pairwise_singleton _ _, ?_⟩
    intro ch hch new hnew hsame r hr hnewroom
    rw [List.mem_singleton.mp hnew] at hsame hnewroom
    have hnone := hroom r hnewroom
    unfold roomChannel at hnone
    rw [List.find?_eq_none] at hnone
    exact hnone ch hch (decide_eq_true ⟨hsame, hr⟩)

/-- A room is put on a channel without one. -/
theorem grows_setRoom (h : Sound t) (hch : ch ∈ t.channels) (huser : ch.userId = userId)
    (hempty : ch.roomId = none) (hroom : roomChannel userId r t = none) :
    Grows t (Tables.updateChannels (fun c => c.id = ch.id)
      (fun c => { c with roomId := some r }) t) := by
  have honly : ∀ c ∈ t.channels, c.id = ch.id → c = ch := fun c hc hid =>
    List.inj_on_of_nodup_map h.channels hc hch hid
  unfold Tables.updateChannels
  refine ⟨⟨h.persons, h.personSerial, ?_, ?_, ?_, ?_⟩, fun _ hp => hp, ?_⟩
  · dsimp only
    rw [List.map_map]
    have hids : t.channels.map ((·.id) ∘ fun c =>
        if decide (c.id = ch.id) = true then { c with roomId := some r } else c) =
        t.channels.map (·.id) := by
      refine List.map_congr_left fun c _ => ?_
      dsimp only [Function.comp]
      split
      · rfl
      · rfl
    rw [hids]
    exact h.channels
  · intro c hc
    obtain ⟨c, hmem, rfl⟩ := List.mem_map.mp hc
    have hle := h.channelSerial c hmem
    split
    · exact hle
    · exact hle
  · intro c hc
    obtain ⟨c, hmem, rfl⟩ := List.mem_map.mp hc
    have hattached := h.attached c hmem
    split
    · exact hattached
    · exact hattached
  · unfold RoomsApart
    dsimp only
    rw [List.pairwise_map]
    have hids : t.channels.Pairwise (fun a b => a.id ≠ b.id) := List.pairwise_map.mp h.channels
    unfold roomChannel at hroom
    rw [List.find?_eq_none] at hroom
    refine ((h.rooms.and hids).imp_of_mem fun {a b} ha hb hab => ?_)
    obtain ⟨hrooms, hne⟩ := hab
    intro hsame r' hr' hr''
    by_cases hida : a.id = ch.id
    · have hidb : ¬ b.id = ch.id := fun hidb => hne (hida.trans hidb.symm)
      simp only [hida, hidb, decide_true, decide_false, if_true, Bool.false_eq_true,
        if_false] at hsame hr' hr''
      have haeq := honly a ha hida
      refine hroom b hb (decide_eq_true ⟨?_, ?_⟩)
      · rw [← hsame, haeq, huser]
      · rw [hr'', ← hr']
    · by_cases hidb : b.id = ch.id
      · simp only [hida, hidb, decide_true, decide_false, if_true, Bool.false_eq_true,
          if_false] at hsame hr' hr''
        have hbeq := honly b hb hidb
        refine hroom a ha (decide_eq_true ⟨?_, ?_⟩)
        · rw [hsame, hbeq, huser]
        · rw [hr', ← hr'']
      · simp only [hida, hidb, decide_false, Bool.false_eq_true, if_false] at hsame hr' hr''
        exact hrooms hsame r' hr' hr''
  · intro c hc hsome
    refine List.mem_map.mpr ⟨c, hc, ?_⟩
    split
    next hid =>
      rw [honly c hc (of_decide_eq_true hid)] at hsome
      exact absurd hempty hsome
    next => rfl

/-! ## The branches of a call -/

theorem Sound.person_eq (h : Sound t) {a b : OntPerson} (ha : a ∈ t.persons) (hb : b ∈ t.persons)
    (hid : a.id = b.id) : a = b :=
  List.inj_on_of_nodup_map h.persons ha hb hid

/-- A statement of known tables, carried out or not. -/
theorem ensures_statement {α : Type} (f : Tables → Option (α × Tables)) :
    Ensures (fun w (_ : List Change) => w.tables = t) (statement f)
      (fun a w _ => f t = some (a, w.tables))
      (fun w _ => w.tables = t ∨ ∃ a, f t = some (a, w.tables)) := by
  rintro w log rfl
  unfold statement
  cases hf : f w.tables with
  | none => exact .inl rfl
  | some r =>
      cases w.fates.headD .done with
      | done => rfl
      | refused => exact .inl rfl
      | lost => exact .inr ⟨r.1, rfl⟩

/-- The changelog is none of the tables. -/
theorem ensures_logChange {I : Tables → Prop} {early : World → List Change → Prop}
    (userId : Int) (entityType : String) (entityId : Int) (changeType : String)
    (changedFields : Option String) (source : String) :
    Ensures (fun w _ => I w.tables)
      (logChange userId entityType entityId changeType changedFields source)
      (fun _ w _ => I w.tables) early :=
  ensures_emit (fun _ _ hw => hw)

/-- What holds of a channel that is put in for a person that is there. -/
theorem ensures_insertChannel {platform : String} {handle roomId : Option String} (h : Sound t)
    (hp : p ∈ t.persons) (huser : p.userId = userId)
    (hroom : ∀ r, roomId = some r → roomChannel userId r t = none) :
    Ensures (fun w (_ : List Change) => w.tables = t)
      (statement (Tables.insertChannel userId p.id platform handle roomId now))
      (fun _ w _ => Grows t w.tables ∧ ∀ r, roomId = some r → LeadsTo w.tables userId r p)
      (fun w _ => Grows t w.tables) := by
  have hany : t.persons.any (fun q => q.id = p.id) = true :=
    List.any_eq_true.mpr ⟨p, hp, by simp⟩
  have hinsert : Tables.insertChannel userId p.id platform handle roomId now t =
      some (t.newChannel userId p.id platform handle roomId now,
        { t with
          channels := t.channels ++ [t.newChannel userId p.id platform handle roomId now]
          channelSerial := t.channelSerial + 1 }) := if_pos hany
  have hgrows := @grows_insertChannel t userId now p platform handle roomId h hp huser hroom
  refine (ensures_statement _).weaken (fun a w _ hw => ?_) (fun w _ hw => ?_)
  · rw [hinsert] at hw
    obtain ⟨-, hw⟩ := Prod.mk.inj (Option.some.inj hw)
    rw [← hw]
    exact ⟨hgrows, fun r hr => ⟨hgrows.persons p hp, _,
      List.mem_append_right _ (List.mem_singleton.mpr rfl), rfl, hr, rfl⟩⟩
  · rcases hw with hw | ⟨a, hw⟩
    · rw [hw]
      exact h.grows
    · rw [hinsert] at hw
      obtain ⟨-, hw⟩ := Prod.mk.inj (Option.some.inj hw)
      rw [← hw]
      exact hgrows

theorem ensures_linkPlatform {platform : String} {handle roomId : Option String} (h : Sound t)
    (hp : p ∈ t.persons) (huser : p.userId = userId)
    (hroom : ∀ r, roomId = some r → roomChannel userId r t = none) :
    Ensures (fun w (_ : List Change) => w.tables = t)
      (linkPlatform userId p platform handle roomId now (platformChannel p.id platform t))
      (fun x w _ => Grows t w.tables ∧ ∀ r, roomId = some r →
        (∀ ch, platformChannel p.id platform t = some ch → ch.roomId = none) →
        LeadsTo w.tables userId r x)
      (fun w _ => Grows t w.tables) := by
  cases hfound : platformChannel p.id platform t with
  | none =>
      simp only [linkPlatform]
      refine (ensures_insertChannel h hp huser hroom).bind (fun _ => ?_)
      refine Ensures.bind (ensures_logChange (I := fun u => Grows t u ∧ ∀ r, roomId = some r →
        LeadsTo u userId r p) _ _ _ _ _ _) (fun _ => ?_)
      exact ensures_pure (fun w log hw => ⟨hw.1, fun r hr _ => hw.2 r hr⟩)
  | some ch =>
      have hkind := List.find?_some hfound
      have hch := List.mem_of_find?_eq_some hfound
      simp only [decide_eq_true_eq] at hkind
      have hchuser : ch.userId = userId := by
        obtain ⟨q, hq, hid, hquser⟩ := h.attached ch hch
        rw [h.person_eq hq hp (hid.trans hkind.1)] at hquser
        rw [← hquser, huser]
      simp only [linkPlatform]
      by_cases hset : ch.roomId.isNone ∧ roomId.isSome
      · rw [if_pos hset]
        obtain ⟨r, rfl⟩ := Option.isSome_iff_exists.mp hset.2
        have hgrows := grows_setRoom h hch hchuser (Option.isNone_iff_eq_none.mp hset.1)
          (hroom r rfl)
        have hexec : Ensures (fun w (_ : List Change) => w.tables = t)
            (execute (Tables.updateChannels (fun c => c.id = ch.id)
              (fun c => { c with roomId := some r })))
            (fun _ w _ => Grows t w.tables ∧ ∀ r', some r = some r' → LeadsTo w.tables userId r' p)
            (fun w _ => Grows t w.tables) := by
          refine (ensures_statement _).weaken (fun a w _ hw => ?_) (fun w _ hw => ?_)
          · obtain ⟨-, hw⟩ := Prod.mk.inj (Option.some.inj hw)
            rw [← hw]
            refine ⟨hgrows, fun r' hr' => ?_⟩
            cases hr'
            exact ⟨hp, _, List.mem_map.mpr ⟨ch, hch, if_pos (by simp)⟩, hchuser, rfl, hkind.1⟩
          · rcases hw with hw | ⟨a, hw⟩
            · rw [hw]
              exact h.grows
            · obtain ⟨-, hw⟩ := Prod.mk.inj (Option.some.inj hw)
              rw [← hw]
              exact hgrows
        exact hexec.bind (fun _ => ensures_pure
          (fun w log hw => ⟨hw.1, fun r' hr' _ => hw.2 r' hr'⟩))
      · rw [if_neg hset]
        refine ensures_pure (fun w log hw => ?_)
        rw [hw]
        refine ⟨h.grows, fun r hr hempty => absurd ⟨?_, ?_⟩ hset⟩
        · rw [hempty ch rfl]
          rfl
        · rw [hr]
          rfl

theorem ensures_createWithChannel {name platform : String} {handle roomId : Option String}
    (h : Sound t) (hroom : ∀ r, roomId = some r → roomChannel userId r t = none) :
    Ensures (fun w (_ : List Change) => w.tables = t)
      (createWithChannel userId name platform handle roomId now)
      (fun x w _ => Grows t w.tables ∧ ∀ r, roomId = some r → LeadsTo w.tables userId r x)
      (fun w _ => Grows t w.tables) := by
  have hgrows := @grows_insertPerson t userId now name h
  unfold createWithChannel
  refine Ensures.bind ((ensures_statement _).weaken (fun a w _ hw => hw) (fun w _ hw => ?_))
    (fun person => ?_)
  · rcases hw with hw | ⟨a, hw⟩
    · rw [hw]
      exact h.grows
    · obtain ⟨-, hw⟩ := Prod.mk.inj (Option.some.inj hw)
      rw [← hw]
      exact hgrows
  · refine Ensures.bind (ensures_logChange
      (I := fun u => Tables.insertPerson userId name now t = some (person, u)) _ _ _ _ _ _)
      (fun _ => ?_)
    intro w log hw
    obtain ⟨hperson, hw'⟩ := Prod.mk.inj (Option.some.inj hw)
    subst hperson
    have hinsert := @ensures_insertChannel _ userId now (t.newPerson userId name now) platform
      handle roomId hgrows.sound (List.mem_append_right _ (List.mem_singleton.mpr rfl)) rfl hroom
    have hlast : Ensures (fun w (_ : List Change) => Grows t w.tables ∧ ∀ r, roomId = some r →
          LeadsTo w.tables userId r (t.newPerson userId name now))
        (pure (t.newPerson userId name now) : Db OntPerson)
        (fun x w _ => Grows t w.tables ∧ ∀ r, roomId = some r → LeadsTo w.tables userId r x)
        (fun w _ => Grows t w.tables) := ensures_pure (fun _ _ hw => hw)
    have hgrown := hinsert.weaken
      (fun _ w _ hw => (⟨hgrows.trans hw.1, hw.2⟩ : Grows t w.tables ∧ ∀ r, roomId = some r →
        LeadsTo w.tables userId r (t.newPerson userId name now)))
      (fun w _ hw => hgrows.trans hw)
    have hrest := hgrown.bind (fun channel => Ensures.bind
      (ensures_logChange (I := fun u => Grows t u ∧ ∀ r, roomId = some r →
        LeadsTo u userId r (t.newPerson userId name now)) userId "channel" channel.id "created"
        none "pipeline") (fun _ => hlast))
    exact hrest w log hw'.symm

/-! ## A call -/

theorem ensures_upsertNamed {name platform : String} {handle roomId : Option String} (h : Sound t)
    (hroom : ∀ r, roomId = some r → roomChannel userId r t = none) :
    Ensures (fun w (_ : List Change) => w.tables = t)
      (upsertNamed lower userId name platform handle roomId now)
      (fun x w _ => Grows t w.tables ∧ ∀ r, roomId = some r →
        (∀ p, namedPerson lower userId name t = some p →
          ∀ ch, platformChannel p.id platform t = some ch → ch.roomId = none) →
        LeadsTo w.tables userId r x)
      (fun w _ => Grows t w.tables) := by
  have hstay : ∀ (w : World) (_ : List Change), w.tables = t → Grows t w.tables := by
    intro w _ hw
    rw [hw]
    exact h.grows
  unfold upsertNamed
  refine ((ensures_query (namedPerson lower userId name)).weaken (fun _ _ _ hq => hq)
    hstay).bind (fun named => ?_)
  cases named with
  | none =>
      intro w log hw
      have hcreate := (@ensures_createWithChannel t userId now name platform handle roomId h
        hroom).weaken (fun x w _ hx => (⟨hx.1, fun r hr _ => hx.2 r hr⟩ : Grows t w.tables ∧
          ∀ r, roomId = some r → (∀ p, namedPerson lower userId name t = some p →
            ∀ ch, platformChannel p.id platform t = some ch → ch.roomId = none) →
            LeadsTo w.tables userId r x)) (fun _ _ hw => hw)
      exact hcreate w log hw.2
  | some person =>
      intro w log hw
      have hkind := List.find?_some hw.1.symm
      have hperson := List.mem_of_find?_eq_some hw.1.symm
      simp only [decide_eq_true_eq] at hkind
      have hlink : Ensures (fun w (_ : List Change) => w.tables = t) (do
          let found ← query (platformChannel person.id platform)
          linkPlatform userId person platform handle roomId now found)
          (fun x w _ => Grows t w.tables ∧ ∀ r, roomId = some r →
            (∀ ch, platformChannel person.id platform t = some ch → ch.roomId = none) →
            LeadsTo w.tables userId r x)
          (fun w _ => Grows t w.tables) := by
        refine ((ensures_query (platformChannel person.id platform)).weaken (fun _ _ _ hq => hq)
          hstay).bind (fun found => ?_)
        intro w' log' hw'
        rw [hw'.1]
        exact ensures_linkPlatform h hperson hkind.1 hroom w' log' hw'.2
      have hend := (hlink.weaken (fun x w _ hx => (⟨hx.1, fun r hr hfits => hx.2 r hr
        (hfits person hw.1.symm)⟩ : Grows t w.tables ∧ ∀ r, roomId = some r →
          (∀ p, namedPerson lower userId name t = some p →
            ∀ ch, platformChannel p.id platform t = some ch → ch.roomId = none) →
          LeadsTo w.tables userId r x)) (fun _ _ hx => hx)) w log hw.2
      exact hend

theorem RoomsApart.eq (h : RoomsApart t) {a b : OntChannel} (ha : a ∈ t.channels)
    (hb : b ∈ t.channels) (huser : a.userId = b.userId) (hra : a.roomId = some r)
    (hrb : b.roomId = some r) : a = b := by
  have hsymm : Std.Symm (fun a b : OntChannel =>
      a.userId = b.userId → ∀ r, a.roomId = some r → b.roomId ≠ some r) :=
    ⟨fun a b hab hsame r hb ha => hab hsame.symm r ha hb⟩
  by_contra hne
  exact List.Pairwise.forall h ha hb hne huser r hra hrb

theorem query_apply {α : Type} (f : Tables → α) (fates : List StatementFate) :
    query f ⟨t, fates⟩ = ⟨⟨t, fates.tail⟩, [], (fates.headD .done).answer (f t)⟩ := by
  unfold query statement
  dsimp only
  cases fates.headD .done with
  | done => rfl
  | refused => rfl
  | lost => rfl

theorem mem_of_headD {fates : List StatementFate} (h : fates.headD .done ≠ .done) :
    ∃ fate ∈ fates, fate ≠ .done := by
  cases fates with
  | nil => exact absurd rfl h
  | cons fate rest => exact ⟨fate, List.mem_cons_self, h⟩

/-- A query that fails is one whose statement does. -/
theorem answer_eq_none {α : Type} {a : α} {fate : StatementFate} (h : fate.answer a = none) :
    fate ≠ .done := by
  rintro rfl
  cases h

/-- A room that leads to a person leads to it again, unless a statement fails. -/
theorem outcome_found {c : Call} (h : Sound t) (hroom : c.roomId = some r)
    (hleads : LeadsTo t c.userId r x) :
    after lower t c = t ∧ (answer lower t c = some x ∨
      answer lower t c = none ∧ ∃ fate ∈ c.fates, fate ≠ .done) := by
  obtain ⟨hx, ch, hch, huser, hchroom, hperson⟩ := hleads
  have hchannel : roomChannel c.userId r t = some ch := by
    unfold roomChannel
    cases hfind : t.channels.find? (fun c' => c'.userId = c.userId ∧ c'.roomId = some r) with
    | none =>
        rw [List.find?_eq_none] at hfind
        exact absurd (decide_eq_true ⟨huser, hchroom⟩) (hfind ch hch)
    | some ch' =>
        have hkind := List.find?_some hfind
        simp only [decide_eq_true_eq] at hkind
        rw [h.rooms.eq (List.mem_of_find?_eq_some hfind) hch (hkind.1.trans huser.symm) hkind.2
          hchroom]
  have hfound : t.persons.find? (fun p => p.id = ch.personId) = some x := by
    cases hfind : t.persons.find? (fun p => p.id = ch.personId) with
    | none =>
        rw [List.find?_eq_none] at hfind
        exact absurd (decide_eq_true hperson.symm) (hfind x hx)
    | some p =>
        have hid := List.find?_some hfind
        rw [decide_eq_true_eq] at hid
        rw [h.person_eq (List.mem_of_find?_eq_some hfind) hx (hid.trans hperson)]
  have hfirst := @query_apply t _ (roomChannel c.userId r) c.fates
  have hsecond := @query_apply t _ (fun t => t.persons.find? (fun p => p.id = ch.personId))
    c.fates.tail
  rw [hchannel] at hfirst
  rw [hfound] at hsecond
  unfold answer after outcome upsertPerson findRoomChannel
  rw [hroom]
  dsimp only
  cases hfate : (c.fates.headD .done).answer (some ch) with
  | none =>
      rw [hfate] at hfirst
      rw [bind_stop hfirst]
      exact ⟨rfl, .inr ⟨rfl, mem_of_headD (answer_eq_none hfate)⟩⟩
  | some found =>
      obtain ⟨-, rfl⟩ := StatementFate.answer_eq_some hfate
      rw [hfate] at hfirst
      rw [bind_apply hfirst]
      dsimp only
      unfold personOfChannel
      cases hfate' : (c.fates.tail.headD .done).answer (some x) with
      | none =>
          rw [hfate'] at hsecond
          rw [bind_stop hsecond]
          obtain ⟨fate, hmem, hne⟩ := mem_of_headD (answer_eq_none hfate')
          exact ⟨rfl, .inr ⟨rfl, fate, List.mem_of_mem_tail hmem, hne⟩⟩
      | some found =>
          obtain ⟨-, rfl⟩ := StatementFate.answer_eq_some hfate'
          rw [hfate'] at hsecond
          rw [bind_apply hsecond]
          exact ⟨rfl, .inl rfl⟩

/-- What a call leaves, and where the person that it returns can be found again. -/
theorem after_spec (c : Call) (h : Sound t) :
    Grows t (after lower t c) ∧ ∀ x r, answer lower t c = some x → c.roomId = some r →
      RoomFits lower t c → LeadsTo (after lower t c) c.userId r x := by
  cases hroom : c.roomId with
  | none =>
      have hnamed := @ensures_upsertNamed lower t c.userId c.now c.name c.platform c.handle none h
        (fun r hr => by cases hr) ⟨t, c.fates⟩ [] rfl
      have hsame : outcome lower t c = upsertNamed lower c.userId c.name c.platform c.handle none
          c.now ⟨t, c.fates⟩ := by
        unfold outcome upsertPerson findRoomChannel
        rw [hroom]
        rfl
      unfold after answer
      rw [hsame]
      refine ⟨?_, fun x r _ hr => by cases hr⟩
      split at hnamed
      · exact hnamed
      · exact hnamed.1
  | some r =>
      cases hchannel : roomChannel c.userId r t with
      | some ch =>
          have hkind := List.find?_some hchannel
          have hch := List.mem_of_find?_eq_some hchannel
          simp only [decide_eq_true_eq] at hkind
          obtain ⟨p, hp, hid, -⟩ := h.attached ch hch
          have hleads : LeadsTo t c.userId r p := ⟨hp, ch, hch, hkind.1, hkind.2, hid.symm⟩
          obtain ⟨hafter, hanswer⟩ := @outcome_found lower t r p c h hroom hleads
          rw [hafter]
          refine ⟨h.grows, fun x r' hx hr' _ => ?_⟩
          cases hr'
          rcases hanswer with hp' | ⟨hnone, -⟩
          · rw [hp'] at hx
            cases hx
            exact hleads
          · rw [hnone] at hx
            cases hx
      | none =>
          have hfree : ∀ r', some r = some r' → roomChannel c.userId r' t = none := by
            intro r' hr'
            cases hr'
            exact hchannel
          have hfirst := @query_apply t _ (roomChannel c.userId r) c.fates
          rw [hchannel] at hfirst
          have hnamed := @ensures_upsertNamed lower t c.userId c.now c.name c.platform c.handle
            (some r) h hfree ⟨t, c.fates.tail⟩ [] rfl
          unfold after answer outcome upsertPerson findRoomChannel
          rw [hroom]
          dsimp only
          cases hfate : (c.fates.headD .done).answer (none : Option OntChannel) with
          | none =>
              rw [hfate] at hfirst
              rw [bind_stop hfirst]
              exact ⟨h.grows, fun x r' hx => by cases hx⟩
          | some found =>
              obtain ⟨-, rfl⟩ := StatementFate.answer_eq_some hfate
              rw [hfate] at hfirst
              rw [bind_apply hfirst]
              dsimp only
              split at hnamed
              next hvalue => exact ⟨hnamed, fun x r' hx => by rw [hvalue] at hx; cases hx⟩
              next x hvalue =>
                refine ⟨hnamed.1, fun x' r' hx hr' hfits => ?_⟩
                rw [hvalue] at hx
                cases hx
                cases hr'
                exact hnamed.2 r rfl (hfits r hroom hchannel)

/-! ## Runs -/

theorem run_append (a b : List Call) : run lower t (a ++ b) = run lower (run lower t a) b :=
  List.foldl_append

theorem run_cons (c : Call) (rest : List Call) :
    run lower t (c :: rest) = run lower (after lower t c) rest := rfl

theorem run_grows (h : Sound t) (calls : List Call) : Grows t (run lower t calls) := by
  induction calls generalizing t with
  | nil => exact h.grows
  | cons c rest ih =>
      have hfirst := (@after_spec lower t c h).1
      exact hfirst.trans (ih hfirst.sound)

end

/-- Rooms keep their persons over every run of calls whose rooms fit. -/
theorem upsertPerson_roomKeepsPerson (lower : String → String) {t : Tables} (h : Sound t)
    (calls : List Call) (hfit : RoomsFit lower t calls) : RoomKeepsPerson lower t calls := by
  constructor
  · intro front c middle d back r x hcalls huser hroom hroom' hanswer
    have hfront := (@run_grows lower t h front).sound
    obtain ⟨hgrows, hleads⟩ := @after_spec lower _ c hfront
    have hfound := hleads x r hanswer hroom (hfit front c _ hcalls)
    have hmiddle := @run_grows lower _ hgrows.sound middle
    rw [run_append, run_cons]
    rw [huser] at hfound
    exact (outcome_found hmiddle.sound hroom' (hmiddle.leadsTo hfound)).2
  · intro front back _
    exact (@run_grows lower t h front).sound.rooms

/-! ## A contact with two rooms -/

def noPeople : Tables := ⟨[], [], [], 0, 0⟩

theorem noPeople_sound : Sound noPeople :=
  ⟨List.nodup_nil, by simp [noPeople], List.nodup_nil, by simp [noPeople], by simp [noPeople],
    List.Pairwise.nil⟩

def callAs (name room : String) : Call := ⟨7, name, "whatsapp", none, some room, 0, []⟩

/-- A contact that is renamed keeps its person. -/
theorem upsertPerson_renamed :
    RoomKeepsPerson id noPeople [callAs "Ann" "!a", callAs "Anna" "!a"] := by
  refine upsertPerson_roomKeepsPerson id noPeople_sound _ ?_
  intro front c back hcalls
  unfold RoomFits
  rcases front with - | ⟨first, - | ⟨second, front⟩⟩
  · obtain ⟨rfl, -⟩ := List.cons.inj hcalls
    intro r hr _ p hp
    cases hp
  · obtain ⟨rfl, hrest⟩ := List.cons.inj hcalls
    obtain ⟨rfl, -⟩ := List.cons.inj hrest
    intro r hr hnone
    cases hr
    exact absurd hnone (by decide +kernel)
  · have hlength := congrArg List.length hcalls
    simp at hlength

/-- The second room of a contact is on no channel, so that a new name in it is a new person. -/
theorem upsertPerson_secondRoom :
    ¬ RoomKeepsPerson id noPeople [callAs "Ann" "!a", callAs "Ann" "!b", callAs "Anna" "!b"] := by
  intro h
  have hkept := h.1 [callAs "Ann" "!a"] (callAs "Ann" "!b") [] (callAs "Anna" "!b") [] "!b"
    ⟨1, 7, "Ann", 0, 0⟩ rfl rfl rfl rfl (by decide +kernel)
  revert hkept
  decide +kernel

end Lightfriend.People.RoomPerson
