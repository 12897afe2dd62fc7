import Mathlib.Data.Rat.Lemmas
import Mathlib.Algebra.Order.Ring.Rat
import Mathlib.Data.String.Basic
import Mathlib.Tactic.Linarith
import Lightfriend.Core.Machine
import Lightfriend.Core.Sort

/-! # The contact that a message goes to

The contacts of a platform are scored against what the user said, sorted, and each
route keeps its best contact. The first two decide: the best contact is taken, unless
the second is too close to it.
-/

namespace Lightfriend.Bridge.ContactMatch

/-! ## Contacts -/

structure Contact where
  id : String
  displayName : String
  platform : Option String
  roomId : Option String
  chatId : Option String
deriving DecidableEq

inductive Route
  | room (id : String)
  | chat (id : String)
deriving DecidableEq

def Contact.route (contact : Contact) : Option Route :=
  match contact.roomId with
  | some id => some (.room id)
  | none => contact.chatId.map .chat

inductive CachedContactMatch
  | found (contact : Contact)
  | ambiguous (names : List String)
  | none
deriving DecidableEq

/-- The lower case of all of Unicode, and the similarity of two texts. -/
structure Texts where
  toLowercase : String → String
  jaroWinkler : String → String → ℚ
  lowercase_ascii : ∀ a b, toAsciiLowercase a = toAsciiLowercase b → toLowercase a = toLowercase b
  similarity_comm : ∀ a b, jaroWinkler a b = jaroWinkler b a
  similarity_self : ∀ a, jaroWinkler a a = 1
  similarity_nonneg : ∀ a b, 0 ≤ jaroWinkler a b
  similarity_le_one : ∀ a b, jaroWinkler a b ≤ 1

/-! ## The selection -/

/-! The floating-point numbers 0.92, 0.88, 0.7 and 0.08. -/

def startScore : ℚ := 8286623314361713 / 9007199254740992

def insideScore : ℚ := 7926335344172073 / 9007199254740992

def leastScore : ℚ := 3152519739159347 / 4503599627370496

def margin : ℚ := 5764607523034235 / 72057594037927936

variable (texts : Texts)

def score (query : String) (contact : Contact) : ℚ :=
  let name := texts.toLowercase (trim contact.displayName)
  if name = query then 1
  else if startsWithText name query then startScore
  else if containsText name query then insideScore
  else texts.jaroWinkler query name

def sendable (platform : String) (contact : Contact) : Bool :=
  decide (contact.platform = some platform) &&
    (contact.roomId.isSome || contact.chatId.isSome)

def scored (query platform : String) (contacts : List Contact) : List Contact :=
  (contacts.filter (sendable platform)).filter (fun c => leastScore ≤ score texts query c)

/-- The better score comes first, and of one score the lesser id. -/
def Before (query : String) (a b : Contact) : Prop :=
  score texts query b < score texts query a ∨
    score texts query a = score texts query b ∧ a.id ≤ b.id

instance (query : String) : DecidableRel (Before texts query) := fun _ _ =>
  inferInstanceAs (Decidable (_ ∨ _))

/-- The first contact of each route. -/
def survivors (query platform : String) (contacts : List Contact) : List Contact :=
  firstPerGroup Contact.route (orderBy (Before texts query) (scored texts query platform contacts))

def eqIgnoreAsciiCase (a b : String) : Bool := toAsciiLowercase a = toAsciiLowercase b

def exactName (searchTerm : String) (contact : Contact) : Bool :=
  eqIgnoreAsciiCase (trim contact.displayName) (trim searchTerm)

def decideMatch (query searchTerm : String) : List Contact → CachedContactMatch
  | [] => .none
  | [best] => .found best
  | best :: second :: _ =>
      if (exactName searchTerm best ∧ exactName searchTerm second) ∨
          (exactName searchTerm best = false ∧
            score texts query best - score texts query second < margin) then
        .ambiguous (orderBy (· ≤ ·) [best.displayName, second.displayName]).dedup
      else .found best

def queryOf (searchTerm : String) : String := texts.toLowercase (trim searchTerm)

def selectCachedContact (contacts : List Contact) (platform searchTerm : String) :
    CachedContactMatch :=
  if queryOf texts searchTerm = "" then .none
  else decideMatch texts (queryOf texts searchTerm) searchTerm
    (survivors texts (queryOf texts searchTerm) platform contacts)

/-! ## What is asked of the selection -/

def Candidate (contacts : List Contact) (platform : String) (c : Contact) : Prop :=
  c ∈ contacts ∧ sendable platform c = true

/-- Does the name equal the term, whatever the case? -/
def EqualName (searchTerm : String) (c : Contact) : Prop :=
  texts.toLowercase (trim c.displayName) = queryOf texts searchTerm

instance (searchTerm : String) (c : Contact) : Decidable (EqualName texts searchTerm c) :=
  inferInstanceAs (Decidable (_ = _))

/-- The same route on the same platform, under the same name. -/
structure Repeats (c d : Contact) : Prop where
  platform : d.platform = c.platform
  route : d.route = c.route
  name : d.displayName = c.displayName

structure PicksOne (contacts : List Contact) (platform searchTerm : String) (added : Contact) :
    Prop where
  order : ∀ others, others.Perm contacts →
    selectCachedContact texts others platform searchTerm =
      selectCachedContact texts contacts platform searchTerm
  repeated : ∀ c ∈ contacts, Repeats c added →
    selectCachedContact texts (added :: contacts) platform searchTerm =
      selectCachedContact texts contacts platform searchTerm
  matched : ∀ c, selectCachedContact texts contacts platform searchTerm = .found c →
    Candidate contacts platform c ∧
      (∀ e, Candidate contacts platform e → e.route ≠ c.route → ¬ EqualName texts searchTerm e) ∧
      (¬ EqualName texts searchTerm c → ∀ e, Candidate contacts platform e → e.route ≠ c.route →
        margin ≤ score texts (queryOf texts searchTerm) c -
          score texts (queryOf texts searchTerm) e)
  equal : ∀ c, Candidate contacts platform c → EqualName texts searchTerm c →
    (∀ e, Candidate contacts platform e → EqualName texts searchTerm e → e.route = c.route) →
    ∃ c', selectCachedContact texts contacts platform searchTerm = .found c' ∧
      EqualName texts searchTerm c' ∧ c'.route = c.route

/-- The first contact whose name equals the term. -/
def FirstEqual (contacts : List Contact) (platform searchTerm : String) (c : Contact) : Prop :=
  Candidate contacts platform c ∧ EqualName texts searchTerm c ∧
    ∀ e, Candidate contacts platform e → EqualName texts searchTerm e → c.id ≤ e.id

/-- When the selection does what is asked. -/
structure Clear (contacts : List Contact) (platform searchTerm : String) (added : Contact) :
    Prop where
  /-- A contact without a name is not asked for by a blank term. -/
  named : ∀ c, Candidate contacts platform c → EqualName texts searchTerm c →
    queryOf texts searchTerm ≠ ""
  /-- Another name is not perfectly similar. -/
  similar : ∀ c, Candidate contacts platform c → ¬ EqualName texts searchTerm c →
    score texts (queryOf texts searchTerm) c < 1
  /-- If one route has the name, its first contact equals the term in ASCII, or no other route is
  close. -/
  alone : ∀ c, FirstEqual texts contacts platform searchTerm c →
    (∀ e, Candidate contacts platform e → EqualName texts searchTerm e → e.route = c.route) →
    exactName searchTerm c = true ∨ ∀ e, Candidate contacts platform e → e.route ≠ c.route →
      margin ≤ 1 - score texts (queryOf texts searchTerm) e
  /-- If two routes have it and the first equals the term in ASCII, so does the next. -/
  shared : ∀ c e, FirstEqual texts contacts platform searchTerm c →
    Candidate contacts platform e → EqualName texts searchTerm e → e.route ≠ c.route →
    (∀ x, Candidate contacts platform x → EqualName texts searchTerm x → x.route ≠ c.route →
      e.id ≤ x.id) → exactName searchTerm c = true → exactName searchTerm e = true
  /-- No contact that scores too low to be considered is close to the best one, unless another
  is. -/
  near : ∀ c, Candidate contacts platform c → ¬ EqualName texts searchTerm c →
    leastScore ≤ score texts (queryOf texts searchTerm) c →
    (∀ x, Candidate contacts platform x → Before texts (queryOf texts searchTerm) c x) →
    ∀ e, Candidate contacts platform e → e.route ≠ c.route →
      score texts (queryOf texts searchTerm) c - score texts (queryOf texts searchTerm) e <
        margin →
      ∃ x, Candidate contacts platform x ∧ x.route ≠ c.route ∧
        leastScore ≤ score texts (queryOf texts searchTerm) x
  /-- The added contact comes after one that it repeats. -/
  later : ∀ c ∈ contacts, Repeats c added → ∃ c' ∈ contacts, Repeats c' added ∧ c'.id < added.id

variable {texts} {contacts : List Contact} {platform searchTerm query : String}
  {added c e : Contact}

/-! ## The order of the contacts -/

theorem before_refl (c : Contact) : Before texts query c c := .inr ⟨rfl, le_refl _⟩

variable (texts query) in
theorem before_total (a b : Contact) : Before texts query a b ∨ Before texts query b a := by
  unfold Before
  rcases lt_trichotomy (score texts query a) (score texts query b) with hlt | heq | hgt
  · exact .inr (.inl hlt)
  · rcases le_total a.id b.id with hle | hle
    · exact .inl (.inr ⟨heq, hle⟩)
    · exact .inr (.inr ⟨heq.symm, hle⟩)
  · exact .inl (.inl hgt)

theorem before_trans (a b c : Contact) (hab : Before texts query a b)
    (hbc : Before texts query b c) : Before texts query a c := by
  unfold Before at *
  rcases hab with hab | ⟨hab, hid⟩
  · rcases hbc with hbc | ⟨hbc, -⟩
    · exact .inl (hbc.trans hab)
    · exact .inl (hbc ▸ hab)
  · rcases hbc with hbc | ⟨hbc, hid'⟩
    · exact .inl (hab ▸ hbc)
    · exact .inr ⟨hab.trans hbc, hid.trans hid'⟩

theorem Before.score_le (h : Before texts query c e) :
    score texts query e ≤ score texts query c := by
  rcases h with hlt | ⟨heq, -⟩
  · exact hlt.le
  · exact heq.ge

/-- Contacts with distinct ids have one order. -/
theorem orderBy_before_perm {l l' : List Contact} (hids : (l.map Contact.id).Nodup)
    (hperm : l'.Perm l) : orderBy (Before texts query) l' = orderBy (Before texts query) l := by
  have hsorted := fun rows : List Contact =>
    pairwise_orderBy (before_total texts query) before_trans rows
  refine List.Perm.eq_of_pairwise ?_ (hsorted l') (hsorted l)
    ((perm_orderBy l').trans (hperm.trans (perm_orderBy l).symm))
  intro a b ha hb hab hba
  have hid : a.id = b.id := by
    rcases hab with hlt | ⟨heq, hle⟩
    · exact absurd hlt (not_lt.mpr hba.score_le)
    · rcases hba with hlt | ⟨-, hge⟩
      · exact absurd heq hlt.ne
      · exact le_antisymm hle hge
  have ha' : a ∈ l := hperm.subset ((perm_orderBy l').subset ha)
  have hb' : b ∈ l := (perm_orderBy l).subset hb
  exact List.inj_on_of_nodup_map hids ha' hb' hid

/-! ## The contacts that are considered -/

theorem mem_scored : c ∈ scored texts query platform contacts ↔
    Candidate contacts platform c ∧ leastScore ≤ score texts query c := by
  simp only [scored, Candidate, List.mem_filter, decide_eq_true_eq]

theorem leastScore_lt_one : leastScore < 1 := by
  norm_num [leastScore]

theorem score_of_equalName (h : EqualName texts searchTerm c) :
    score texts (queryOf texts searchTerm) c = 1 := by
  unfold EqualName at h
  simp [score, h]

theorem score_le_one : score texts query c ≤ 1 := by
  unfold score
  dsimp only
  split_ifs
  · exact le_refl 1
  · norm_num [startScore]
  · norm_num [insideScore]
  · exact texts.similarity_le_one _ _

theorem equalName_of_exact (h : exactName searchTerm c = true) : EqualName texts searchTerm c := by
  have heq : toAsciiLowercase (trim c.displayName) = toAsciiLowercase (trim searchTerm) := by
    rw [exactName, eqIgnoreAsciiCase, decide_eq_true_eq] at h
    assumption
  unfold EqualName queryOf
  exact texts.lowercase_ascii _ _ heq

/-! ### The survivors -/

theorem candidate_of_survivor (hc : c ∈ survivors texts query platform contacts) :
    Candidate contacts platform c ∧ leastScore ≤ score texts query c :=
  mem_scored.1 (mem_orderBy.mp (mem_of_mem_firstPerGroup hc))

variable (texts query platform contacts) in
theorem pairwise_survivors :
    (survivors texts query platform contacts).Pairwise (Before texts query) :=
  (pairwise_orderBy (before_total texts query) before_trans _).sublist (firstPerGroup_sublist _)

/-- Each contact that is considered is represented by one of its route. -/
theorem exists_survivor (he : Candidate contacts platform e)
    (hhigh : leastScore ≤ score texts query e) :
    ∃ s ∈ survivors texts query platform contacts, s.route = e.route ∧ Before texts query s e :=
  exists_firstPerGroup_le before_refl
    (pairwise_orderBy (before_total texts query) before_trans _)
    (mem_orderBy.mpr (mem_scored.2 ⟨he, hhigh⟩))

/-- The first survivor is the best contact. -/
theorem best_before {best : Contact} {rest : List Contact}
    (h : survivors texts query platform contacts = best :: rest)
    (he : Candidate contacts platform e) (hhigh : leastScore ≤ score texts query e) :
    Before texts query best e := by
  have hpairwise := pairwise_survivors texts contacts platform query
  obtain ⟨s, hs, -, hbefore⟩ := exists_survivor he hhigh
  rw [h] at hs hpairwise
  rcases List.mem_cons.mp hs with rfl | hs
  · exact hbefore
  · exact before_trans _ _ _ ((List.pairwise_cons.mp hpairwise).1 s hs) hbefore

theorem second_route {best second : Contact} {rest : List Contact}
    (h : survivors texts query platform contacts = best :: second :: rest) :
    second.route ≠ best.route := by
  have hroutes : ((survivors texts query platform contacts).map Contact.route).Nodup :=
    firstPerGroup_nodup _
  rw [h] at hroutes
  simp only [List.map_cons, List.nodup_cons, List.mem_cons, not_or] at hroutes
  exact Ne.symm hroutes.1.1

/-- The second survivor is the best contact of the other routes. -/
theorem second_before {best second : Contact} {rest : List Contact}
    (h : survivors texts query platform contacts = best :: second :: rest)
    (he : Candidate contacts platform e) (hhigh : leastScore ≤ score texts query e)
    (hroute : e.route ≠ best.route) : Before texts query second e := by
  have hpairwise := pairwise_survivors texts contacts platform query
  obtain ⟨s, hs, hsame, hbefore⟩ := exists_survivor he hhigh
  rw [h] at hs hpairwise
  have hnext := (List.pairwise_cons.mp (List.pairwise_cons.mp hpairwise).2).1
  rcases List.mem_cons.mp hs with rfl | hs
  · exact absurd hsame.symm hroute
  · rcases List.mem_cons.mp hs with rfl | hs
    · exact hbefore
    · exact before_trans _ _ _ (hnext s hs) hbefore

/-! ## Another order, and another representation -/

theorem survivors_perm {others : List Contact} (hids : (contacts.map Contact.id).Nodup)
    (hperm : others.Perm contacts) :
    survivors texts query platform others = survivors texts query platform contacts := by
  have hscored : (scored texts query platform others).Perm
      (scored texts query platform contacts) := (hperm.filter _).filter _
  have hsub : List.Sublist (scored texts query platform contacts) contacts :=
    List.filter_sublist.trans List.filter_sublist
  unfold survivors
  rw [orderBy_before_perm (hids.sublist (hsub.map _)) hscored]

theorem Repeats.score_eq (h : Repeats c e) : score texts query e = score texts query c := by
  simp [score, h.name]

theorem isSome_route : c.route.isSome = (c.roomId.isSome || c.chatId.isSome) := by
  unfold Contact.route
  cases c.roomId <;> simp

theorem Repeats.sendable_eq (h : Repeats c e) : sendable platform e = sendable platform c := by
  unfold sendable
  rw [h.platform, ← isSome_route, ← isSome_route, h.route]

/-- A contact that repeats an earlier one is not among the survivors. -/
theorem survivors_cons (hc : c ∈ contacts) (h : Repeats c added) (hlater : c.id < added.id) :
    survivors texts query platform (added :: contacts) =
      survivors texts query platform contacts := by
  have hsorted := pairwise_orderBy (before_total texts query) before_trans
    (scored texts query platform contacts)
  unfold survivors scored
  by_cases hkept : sendable platform added = true ∧ leastScore ≤ score texts query added
  · have hin : c ∈ orderBy (Before texts query) (scored texts query platform contacts) := by
      refine mem_orderBy.mpr (mem_scored.2 ⟨⟨hc, ?_⟩, ?_⟩)
      · rw [← h.sendable_eq]
        exact hkept.1
      · rw [← h.score_eq]
        exact hkept.2
    have hafter : ¬ Before texts query added c := by
      rintro (hlt | ⟨-, hle⟩)
      · exact absurd h.score_eq hlt.ne'
      · exact absurd hle (not_le.mpr hlater)
    rw [List.filter_cons, if_pos hkept.1, List.filter_cons, if_pos (decide_eq_true hkept.2)]
    exact firstPerGroup_orderedInsert before_trans hsorted hin h.route.symm hafter
  · rw [List.filter_cons]
    split
    · rename_i hsend
      rw [List.filter_cons, if_neg]
      intro hscore
      exact hkept ⟨hsend, of_decide_eq_true hscore⟩
    · rfl

/-! ## The decision -/

/-- When the best of two contacts is taken. -/
theorem decideMatch_found {best second : Contact} {rest : List Contact} :
    decideMatch texts query searchTerm (best :: second :: rest) = .found c ↔
      c = best ∧ ¬ (exactName searchTerm best = true ∧ exactName searchTerm second = true) ∧
        (exactName searchTerm best = false →
          margin ≤ score texts query best - score texts query second) := by
  rw [decideMatch]
  split_ifs with htest
  · constructor
    · intro hfalse
      cases hfalse
    · rintro ⟨-, hboth, hmargin⟩
      rcases htest with hexact | ⟨hexact, hclose⟩
      · exact absurd hexact hboth
      · exact absurd (hmargin hexact) (not_le.mpr hclose)
  · rw [not_or] at htest
    constructor
    · intro hfound
      cases hfound
      exact ⟨rfl, htest.1, fun hexact => not_lt.mp (fun hclose => htest.2 ⟨hexact, hclose⟩)⟩
    · rintro ⟨rfl, -⟩
      rfl

theorem before_score_one {x : Contact} (h : Before texts query c x) (hx : score texts query x = 1) :
    score texts query c = 1 ∧ c.id ≤ x.id := by
  have hle := h.score_le
  rw [hx] at hle
  have hone : score texts query c = 1 := le_antisymm score_le_one hle
  rcases h with hlt | ⟨-, hid⟩
  · rw [hx, hone] at hlt
    exact absurd hlt (lt_irrefl _)
  · exact ⟨hone, hid⟩

theorem high_of_equalName (h : EqualName texts searchTerm c) :
    leastScore ≤ score texts (queryOf texts searchTerm) c := by
  rw [score_of_equalName h]
  exact leastScore_lt_one.le

theorem Clear.equalName_of_score (h : Clear texts contacts platform searchTerm added)
    (hc : Candidate contacts platform c)
    (hone : score texts (queryOf texts searchTerm) c = 1) : EqualName texts searchTerm c := by
  by_contra hname
  exact absurd hone (h.similar c hc hname).ne

/-- A lone survivor is far from every other route. -/
theorem matched_of_one (h : Clear texts contacts platform searchTerm added)
    (hsurvivors : survivors texts (queryOf texts searchTerm) platform contacts = [c]) :
    (∀ e, Candidate contacts platform e → e.route ≠ c.route → ¬ EqualName texts searchTerm e) ∧
      (¬ EqualName texts searchTerm c → ∀ e, Candidate contacts platform e → e.route ≠ c.route →
        margin ≤ score texts (queryOf texts searchTerm) c -
          score texts (queryOf texts searchTerm) e) := by
  obtain ⟨hc, hscore⟩ := candidate_of_survivor (hsurvivors ▸ List.mem_cons_self)
  have hfar : ∀ e, Candidate contacts platform e → e.route ≠ c.route →
      ¬ leastScore ≤ score texts (queryOf texts searchTerm) e := by
    intro e he hroute hhigh
    obtain ⟨s, hs, hsame, -⟩ := exists_survivor he hhigh
    rw [hsurvivors, List.mem_singleton] at hs
    rw [hs] at hsame
    exact hroute hsame.symm
  constructor
  · intro e he hroute hequal
    exact hfar e he hroute (high_of_equalName hequal)
  · intro hname e he hroute
    by_contra hclose
    have htop : ∀ x, Candidate contacts platform x →
        Before texts (queryOf texts searchTerm) c x := by
      intro x hx
      by_cases hhigh : leastScore ≤ score texts (queryOf texts searchTerm) x
      · exact best_before hsurvivors hx hhigh
      · exact .inl (lt_of_lt_of_le (not_le.mp hhigh) hscore)
    obtain ⟨x, hx, hother, hhigh⟩ := h.near c hc hname hscore htop e he hroute (not_le.mp hclose)
    exact hfar x hx hother hhigh

/-- If the best of two survivors is taken, no other route has the name. -/
theorem unequal_of_found {second : Contact} {rest : List Contact}
    (h : Clear texts contacts platform searchTerm added)
    (hsurvivors : survivors texts (queryOf texts searchTerm) platform contacts =
      c :: second :: rest)
    (hboth : ¬ (exactName searchTerm c = true ∧ exactName searchTerm second = true))
    (hmargin : exactName searchTerm c = false →
      margin ≤ score texts (queryOf texts searchTerm) c -
        score texts (queryOf texts searchTerm) second)
    (he : Candidate contacts platform e) (hroute : e.route ≠ c.route) :
    ¬ EqualName texts searchTerm e := by
  intro hequal
  have hc := (candidate_of_survivor (hsurvivors ▸ List.mem_cons_self)).1
  have hsecond := (candidate_of_survivor
    (hsurvivors ▸ List.mem_cons_of_mem c List.mem_cons_self)).1
  have hone := (before_score_one (best_before hsurvivors he (high_of_equalName hequal))
    (score_of_equalName hequal)).1
  have hone' := (before_score_one
    (second_before hsurvivors he (high_of_equalName hequal) hroute)
    (score_of_equalName hequal)).1
  cases hexact : exactName searchTerm c with
  | false =>
      have hgap := hmargin hexact
      rw [hone, hone'] at hgap
      exact absurd hgap (by norm_num [margin])
  | true =>
      have hfirst : FirstEqual texts contacts platform searchTerm c := by
        refine ⟨hc, h.equalName_of_score hc hone, ?_⟩
        intro x hx hname
        exact (before_score_one (best_before hsurvivors hx (high_of_equalName hname))
          (score_of_equalName hname)).2
      have hnext : ∀ x, Candidate contacts platform x → EqualName texts searchTerm x →
          x.route ≠ c.route → second.id ≤ x.id := by
        intro x hx hname hother
        exact (before_score_one (second_before hsurvivors hx (high_of_equalName hname) hother)
          (score_of_equalName hname)).2
      exact hboth ⟨hexact, h.shared c second hfirst hsecond
        (h.equalName_of_score hsecond hone') (second_route hsurvivors) hnext hexact⟩

theorem matched_of_found (h : Clear texts contacts platform searchTerm added)
    (hfound : selectCachedContact texts contacts platform searchTerm = .found c) :
    Candidate contacts platform c ∧
      (∀ e, Candidate contacts platform e → e.route ≠ c.route → ¬ EqualName texts searchTerm e) ∧
      (¬ EqualName texts searchTerm c → ∀ e, Candidate contacts platform e → e.route ≠ c.route →
        margin ≤ score texts (queryOf texts searchTerm) c -
          score texts (queryOf texts searchTerm) e) := by
  unfold selectCachedContact at hfound
  split at hfound
  · cases hfound
  rcases hsurvivors : survivors texts (queryOf texts searchTerm) platform contacts with
    _ | ⟨best, _ | ⟨second, rest⟩⟩
  · rw [hsurvivors] at hfound
    cases hfound
  · rw [hsurvivors] at hfound
    cases hfound
    exact ⟨(candidate_of_survivor (hsurvivors ▸ List.mem_cons_self)).1,
      matched_of_one h hsurvivors⟩
  · rw [hsurvivors] at hfound
    obtain ⟨rfl, hboth, hmargin⟩ := decideMatch_found.1 hfound
    have hc := (candidate_of_survivor (hsurvivors ▸ List.mem_cons_self)).1
    have hscore := (candidate_of_survivor
      (hsurvivors ▸ List.mem_cons_of_mem c List.mem_cons_self)).2
    refine ⟨hc, fun e he hroute => unequal_of_found h hsurvivors hboth hmargin he hroute, ?_⟩
    intro hname e he hroute
    have hexact : exactName searchTerm c = false :=
      Bool.eq_false_iff.mpr (fun hexact => hname (equalName_of_exact hexact))
    have hgap := hmargin hexact
    by_cases hhigh : leastScore ≤ score texts (queryOf texts searchTerm) e
    · have hle := (second_before hsurvivors he hhigh hroute).score_le
      linarith
    · have hlow := not_le.mp hhigh
      linarith

theorem found_of_equal (h : Clear texts contacts platform searchTerm added)
    (hc : Candidate contacts platform c) (hequal : EqualName texts searchTerm c)
    (halone : ∀ e, Candidate contacts platform e → EqualName texts searchTerm e →
      e.route = c.route) :
    ∃ c', selectCachedContact texts contacts platform searchTerm = .found c' ∧
      EqualName texts searchTerm c' ∧ c'.route = c.route := by
  unfold selectCachedContact
  rw [if_neg (h.named c hc hequal)]
  cases hsurvivors : survivors texts (queryOf texts searchTerm) platform contacts with
  | nil =>
      obtain ⟨s, hs, -⟩ := exists_survivor hc (high_of_equalName hequal)
      rw [hsurvivors] at hs
      cases hs
  | cons best rest =>
      have hbest := (candidate_of_survivor (hsurvivors ▸ List.mem_cons_self)).1
      have hbefore : ∀ e, Candidate contacts platform e → EqualName texts searchTerm e →
          score texts (queryOf texts searchTerm) best = 1 ∧ best.id ≤ e.id := fun e he hname =>
        before_score_one (best_before hsurvivors he (high_of_equalName hname))
          (score_of_equalName hname)
      have hname := h.equalName_of_score hbest (hbefore c hc hequal).1
      have hroute := halone best hbest hname
      refine ⟨best, ?_, hname, hroute⟩
      cases rest with
      | nil => rfl
      | cons second rest =>
          have hsecond := (candidate_of_survivor
            (hsurvivors ▸ List.mem_cons_of_mem best List.mem_cons_self)).1
          have hother := second_route hsurvivors
          refine decideMatch_found.2 ⟨rfl, ?_, ?_⟩
          · rintro ⟨-, hexact⟩
            have hsame := halone second hsecond (equalName_of_exact hexact)
            exact hother (hsame.trans hroute.symm)
          · intro hexact
            have hfirst : FirstEqual texts contacts platform searchTerm best :=
              ⟨hbest, hname, fun e he hname' => (hbefore e he hname').2⟩
            rw [score_of_equalName hname]
            rcases h.alone best hfirst
              (fun e he hname' => (halone e he hname').trans hroute.symm) with htrue | hfar
            · rw [hexact] at htrue
              cases htrue
            · exact hfar second hsecond hother

/-! ## The selection as a whole -/

def umlaut (c : Char) : Char := if c = 'Ä' then 'ä' else c

/-- The lower case of ASCII and of one umlaut; no two different texts are similar. -/
def germanTexts : Texts where
  toLowercase := fun s => String.ofList ((toAsciiLowercase s).toList.map umlaut)
  jaroWinkler := fun a b => if a = b then 1 else 0
  lowercase_ascii := fun a b h => by rw [h]
  similarity_comm := fun a b => by simp [eq_comm]
  similarity_self := fun a => by simp
  similarity_nonneg := fun a b => by split_ifs <;> norm_num
  similarity_le_one := fun a b => by split_ifs <;> norm_num

/-- A chat of Telegram. -/
def chatOf (number name : String) : Contact :=
  ⟨"tg_bridge:user:" ++ number, name, some "telegram", none, some number⟩

def aliceAndBob : List Contact := [chatOf "1" "Alice", chatOf "2" "Bob"]

/-- The first of these under a later id. -/
def aliceAgain : Contact := { chatOf "1" "Alice" with id := "wa" }

def oneUmlaut : List Contact := [chatOf "1" "Älice", chatOf "2" "Älice B"]

def twoUmlauts : List Contact := [chatOf "1" "älice", chatOf "2" "Älice"]

end Lightfriend.Bridge.ContactMatch
