import Lightfriend.Core.Machine
import Lightfriend.Core.Table

/-! # The messages of a digest

A digest takes the newest pending messages up to a limit, drops from these what
was seen and what is spam, and marks the rest as delivered when it is sent. Spam
is never marked, so it stays among the newest until it leaves the window.
-/

namespace Lightfriend.Proactive.DigestSelection

structure OntMessage where
  id : Int
  userId : Int
  senderName : String
  createdAt : Int
  urgency : Option String
  category : Option String
  digestDeliveredAt : Option Int
  seenAt : Option Int
deriving DecidableEq, Repr

abbrev Messages := Table OntMessage Int OntMessage.id

structure OntEvent where
  userId : Int
  description : String
  status : String
  dueAt : Option Int
  createdAt : Int
  updatedAt : Int
deriving DecidableEq, Repr

/-! ## The queries -/

/-- The newest rows; ties stand as they are stored. -/
def newest (limit : Nat) (rows : List OntMessage) : List OntMessage :=
  (orderBy (fun a b => b.createdAt ≤ a.createdAt) rows).take limit

/-- Not delivered, not seen, and not from the user. -/
def undelivered (userId : Int) (m : OntMessage) : Bool :=
  decide (m.userId = userId ∧ m.digestDeliveredAt = none ∧ m.seenAt = none ∧ m.senderName ≠ "You")

def ofUrgency (urgencies : List String) (m : OntMessage) : Bool :=
  match m.urgency with
  | some urgency => decide (urgency ∈ urgencies)
  | none => false

def nowUrgencies : List String := ["now", "high", "critical"]
def laterUrgencies : List String := ["later", "medium", "low"]

def getPendingMessagesByUrgency (t : Messages) (userId : Int) (urgencies : List String)
    (since : Int) (limit : Nat) : List OntMessage :=
  newest limit (t.rows.filter (fun m =>
    undelivered userId m && ofUrgency urgencies m && decide (since ≤ m.createdAt)))

def getPendingDigestMessages (t : Messages) (userId : Int) : List OntMessage :=
  newest 20 (t.rows.filter (fun m => undelivered userId m && ofUrgency ["later"] m))

def getPendingUnclassifiedMessages (t : Messages) (userId since : Int) (limit : Nat) :
    List OntMessage :=
  newest limit (t.rows.filter (fun m =>
    undelivered userId m && decide (m.urgency = none) && decide (since ≤ m.createdAt)))

def getMessagesByIds (rows : List OntMessage) (ids : List Int) : List OntMessage :=
  rows.filter (fun m => decide (m.id ∈ ids))

def getEventsDueOnLocalDay (events : List OntEvent) (userId dayStart dayEnd : Int) :
    List OntEvent :=
  orderBy (fun a b => a.dueAt.getD 0 ≤ b.dueAt.getD 0) (events.filter (fun e =>
    decide (e.userId = userId ∧ e.status ∈ ["active", "proposed"]) &&
      e.dueAt.any (fun due => dayStart ≤ due ∧ due < dayEnd)))

def getRecentlyCreatedEvents (events : List OntEvent) (userId since : Int) : List OntEvent :=
  orderBy (fun a b => b.createdAt ≤ a.createdAt) (events.filter (fun e =>
    e.userId = userId ∧ e.status ∈ ["active", "proposed"] ∧ since ≤ e.createdAt))

def getRecentlyCompletedEvents (events : List OntEvent) (userId since : Int) : List OntEvent :=
  orderBy (fun a b => b.updatedAt ≤ a.updatedAt) (events.filter (fun e =>
    e.userId = userId ∧ e.status = "completed" ∧ since ≤ e.updatedAt))

/-! ## The digest -/

/-- What a classification while the digest is built leaves in the row of its message. -/
structure Classification where
  urgency : Option String
  category : Option String
  digestDeliveredAt : Option Int
  seenAt : Option Int
deriving DecidableEq, Repr

def Classification.apply (c : Classification) (m : OntMessage) : OntMessage :=
  { m with urgency := c.urgency, category := c.category, digestDeliveredAt := c.digestDeliveredAt,
           seenAt := c.seenAt }

def lazyClassifyLimit : Nat := 5

structure Request where
  userId : Int
  criticalEnabled : Option String
  now : Int
  tzOffsetSecs : Int
  /-- The outcome of a classification of a message. -/
  classify : OntMessage → Classification

namespace Request

def pushesOff (r : Request) : Bool :=
  r.criticalEnabled.any (fun v => v.toList.map Char.toLower = "off".toList)

def sinceWindow (r : Request) : Int := saturatingSub r.now (7 * 86400)

def localDayStart (r : Request) : Int :=
  (r.now + r.tzOffsetSecs) / 86400 * 86400 - r.tzOffsetSecs

end Request

def categoryScore : Option String → Int
  | some "emergency" => 100
  | some "financial" => 60
  | some "health" => 60
  | some "work" => 30
  | some "relationship" => 30
  | some "logistics" => 15
  | some "social" => 5
  | some "spam" => -1000
  | _ => 10

/-- By category, then newest first. -/
def sortSection (messages : List OntMessage) : List OntMessage :=
  orderBy (fun a b => categoryScore b.category < categoryScore a.category ∨
    categoryScore b.category = categoryScore a.category ∧ b.createdAt ≤ a.createdAt) messages

/-- The filters for what was seen and for spam, and the order of a section. -/
def finishSection (messages : List OntMessage) : List OntMessage :=
  sortSection ((messages.filter (fun m => m.seenAt.isNone)).filter
    (fun m => m.category ≠ some "spam"))

section Build

variable (t : Messages) (r : Request)

def importantPending : List OntMessage :=
  if r.pushesOff then getPendingMessagesByUrgency t r.userId nowUrgencies r.sinceWindow 20 else []

/-- The query of the section, or the one of the dashboard where that is empty. -/
def laterPending : List OntMessage :=
  let found := getPendingMessagesByUrgency t r.userId laterUrgencies r.sinceWindow 30
  if found.isEmpty then getPendingDigestMessages t r.userId else found

def unclassified : List OntMessage :=
  getPendingUnclassifiedMessages t r.userId r.sinceWindow 30

/-- The first unclassified messages as they are after their classification. -/
def refreshed : List OntMessage :=
  (getMessagesByIds t.rows (((unclassified t r).take lazyClassifyLimit).map OntMessage.id)).map
    (fun m => (r.classify m).apply m)

def nowMessages : List OntMessage :=
  finishSection (importantPending t r ++ (refreshed t r).filter (ofUrgency nowUrgencies))

def laterMessages : List OntMessage :=
  let stillUnclassified := (unclassified t r).drop lazyClassifyLimit ++
    (refreshed t r).filter (fun m => !ofUrgency nowUrgencies m && !ofUrgency laterUrgencies m)
  finishSection (laterPending t r ++ (refreshed t r).filter (ofUrgency laterUrgencies) ++
    stillUnclassified)

end Build

/-- The sections of the text; how they are worded is not modelled. -/
inductive DigestPart
  | today (events : List OntEvent)
  | important (messages : List OntMessage)
  | fyi (messages : List OntMessage)
  | recent (events : List OntEvent)
  | completed (events : List OntEvent)
deriving DecidableEq, Repr

structure BuiltDigest where
  parts : List DigestPart
  messageIds : List Int
deriving DecidableEq, Repr

def part {α : Type} (make : List α → DigestPart) (items : List α) : List DigestPart :=
  if items.isEmpty then [] else [make items]

def digestParts (t : Messages) (events : List OntEvent) (r : Request) : List DigestPart :=
  let dayEnd := saturatingAdd r.localDayStart 86400
  let sixHoursAgo := r.now - 6 * 3600
  part .today (getEventsDueOnLocalDay events r.userId r.localDayStart dayEnd) ++
    part .important (nowMessages t r) ++ part .fyi (laterMessages t r) ++
    part .recent (getRecentlyCreatedEvents events r.userId sixHoursAgo) ++
    part .completed (getRecentlyCompletedEvents events r.userId sixHoursAgo)

/-- All messages of the sections are to be marked, also those beyond what is shown. -/
def buildDigestForUser (t : Messages) (events : List OntEvent) (r : Request) :
    Option BuiltDigest :=
  if (digestParts t events r).isEmpty then none
  else some ⟨digestParts t events r,
    (nowMessages t r).map OntMessage.id ++ (laterMessages t r).map OntMessage.id⟩

def markDigestDelivered (t : Messages) (ids : List Int) (now : Int) : Messages :=
  t.updateWhere (fun m => m.id ∈ ids) (fun m => { m with digestDeliveredAt := some now })
    (fun _ => rfl)

/-- The backlog of a user without a digest for a day, before it is worded and sent. -/
def recoveryMessages (t : Messages) (userId : Int) : List OntMessage :=
  (getPendingMessagesByUrgency t userId laterUrgencies 0 30).filter
    (fun m => m.category ≠ some "spam")

/-! ## What a digest owes -/

/-- Pending for the digest, in its window, and not spam. -/
def Pending (r : Request) (m : OntMessage) : Prop :=
  undelivered r.userId m = true ∧ m.urgency = some "later" ∧ r.sinceWindow ≤ m.createdAt ∧
    m.category ≠ some "spam"

instance (r : Request) (m : OntMessage) : Decidable (Pending r m) :=
  inferInstanceAs (Decidable (_ ∧ _))

/-- Where a message is pending a digest is built, and its delivery marks one that is. -/
def Served (t : Messages) (events : List OntEvent) (r : Request) : Prop :=
  (∃ m ∈ t, Pending r m) → ∃ d, buildDigestForUser t events r = some d ∧
    ∃ m ∈ t, Pending r m ∧ ∃ delivered ∈ markDigestDelivered t d.messageIds r.now,
      delivered.id = m.id ∧ delivered.digestDeliveredAt = some r.now

/-- The messages that compete for a place in the section: also spam, and the urgencies of old. -/
def competes (r : Request) (m : OntMessage) : Bool :=
  undelivered r.userId m && ofUrgency laterUrgencies m && decide (r.sinceWindow ≤ m.createdAt)

/-! ## The selection -/

variable {t : Messages} {events : List OntEvent} {r : Request} {m : OntMessage}

theorem mem_of_mem_newest {limit : Nat} {rows : List OntMessage} (h : m ∈ newest limit rows) :
    m ∈ rows :=
  mem_orderBy.mp (List.mem_of_mem_take h)

/-- What is selected with a positive limit is empty only where there is nothing to select. -/
theorem newest_eq_nil {limit : Nat} {rows : List OntMessage} (hlimit : 0 < limit)
    (h : newest limit rows = []) : rows = [] := by
  rcases List.take_eq_nil_iff.mp h with hzero | hnil
  · omega
  · apply List.eq_nil_iff_forall_not_mem.mpr
    intro m hm
    have hin : m ∈ orderBy (fun a b : OntMessage => b.createdAt ≤ a.createdAt) rows :=
      mem_orderBy.mpr hm
    rw [hnil] at hin
    cases hin

theorem Pending.competes (h : Pending r m) : competes r m = true := by
  obtain ⟨hundelivered, hurgency, hsince, -⟩ := h
  simp [DigestSelection.competes, hundelivered, ofUrgency, hurgency, hsince, laterUrgencies]

theorem mem_finishSection {messages : List OntMessage} :
    m ∈ finishSection messages ↔ m ∈ messages ∧ m.seenAt = none ∧ m.category ≠ some "spam" := by
  simp only [finishSection, sortSection, mem_orderBy, List.mem_filter, Option.isNone_iff_eq_none,
    decide_eq_true_eq, and_assoc]

/-- The query of the section is empty only where nothing competes. -/
theorem laterPending_of_competes (h : m ∈ t) (hm : competes r m = true) :
    laterPending t r = newest 30 (t.rows.filter (competes r)) := by
  have hne : newest 30 (t.rows.filter (competes r)) ≠ [] := by
    intro hnil
    have hempty := newest_eq_nil (by omega) hnil
    have hin : m ∈ t.rows.filter (competes r) := List.mem_filter.mpr ⟨h, hm⟩
    rw [hempty] at hin
    cases hin
  show (if (newest 30 (t.rows.filter (competes r))).isEmpty then _ else _) = _
  rw [if_neg (by simpa using hne)]
  rfl

/-- A row that was unclassified when the digest was begun. -/
def FromUnclassified (t : Messages) (m : OntMessage) : Prop :=
  ∃ row ∈ t, row.id = m.id ∧ row.urgency = none

theorem fromUnclassified_of_mem (h : m ∈ unclassified t r) : FromUnclassified t m := by
  have hm := List.mem_filter.mp (mem_of_mem_newest h)
  simp only [Bool.and_eq_true, decide_eq_true_eq] at hm
  exact ⟨m, hm.1, rfl, hm.2.1.2⟩

theorem fromUnclassified_of_refreshed (h : m ∈ refreshed t r) : FromUnclassified t m := by
  obtain ⟨row, hrow, rfl⟩ := List.mem_map.mp h
  have hids := of_decide_eq_true (List.mem_filter.mp hrow).2
  obtain ⟨first, hfirst, hid⟩ := List.mem_map.mp hids
  obtain ⟨old, hold, hsame, hnone⟩ := fromUnclassified_of_mem (List.mem_of_mem_take hfirst)
  exact ⟨old, hold, hsame.trans hid, hnone⟩

/-- A message of the digest is one of the section, was unclassified, or has another urgency. -/
theorem mem_digest_cases (hcompetes : ∃ m ∈ t, competes r m = true)
    (h : m ∈ nowMessages t r ++ laterMessages t r) :
    m ∈ newest 30 (t.rows.filter (competes r)) ∨ FromUnclassified t m ∨
      m ∈ t ∧ m.urgency ≠ some "later" := by
  obtain ⟨other, hother, hcompetes⟩ := hcompetes
  rcases List.mem_append.mp h with h | h
  · have hin := (mem_finishSection.1 h).1
    rcases List.mem_append.mp hin with hin | hin
    · right
      right
      unfold importantPending at hin
      split at hin
      · have hm := List.mem_filter.mp (mem_of_mem_newest hin)
        refine ⟨hm.1, fun hlater => ?_⟩
        have hurgency := hm.2
        simp [ofUrgency, hlater, nowUrgencies] at hurgency
      · cases hin
    · exact .inr (.inl (fromUnclassified_of_refreshed (List.mem_filter.mp hin).1))
  · have hin := (mem_finishSection.1 h).1
    rcases List.mem_append.mp hin with hin | hin
    · rcases List.mem_append.mp hin with hin | hin
      · rw [laterPending_of_competes hother hcompetes] at hin
        exact .inl hin
      · exact .inr (.inl (fromUnclassified_of_refreshed (List.mem_filter.mp hin).1))
    · rcases List.mem_append.mp hin with hin | hin
      · exact .inr (.inl (fromUnclassified_of_mem (List.mem_of_mem_drop hin)))
      · exact .inr (.inl (fromUnclassified_of_refreshed (List.mem_filter.mp hin).1))

/-! ## Delivery -/

/-- An undelivered row is marked where its id is among those of the digest. -/
theorem mem_markDigestDelivered {ids : List Int} {now : Int} (hm : m ∈ t)
    (hundelivered : m.digestDeliveredAt = none) :
    (∃ delivered ∈ markDigestDelivered t ids now, delivered.id = m.id ∧
      delivered.digestDeliveredAt = some now) ↔ m.id ∈ ids := by
  constructor
  · rintro ⟨delivered, hin, hid, hmarked⟩
    unfold markDigestDelivered at hin
    obtain ⟨old, hold, rfl⟩ := (Table.mem_updateWhere _).mp hin
    by_cases hids : old.id ∈ ids
    · simp only [hids, decide_true, if_true] at hid
      exact hid ▸ hids
    · simp only [hids, decide_false, Bool.false_eq_true, if_false] at hid hmarked
      have hsame : old = m := Table.eq_of_key_eq hold hm hid
      rw [hsame, hundelivered] at hmarked
      cases hmarked
  · intro hids
    refine ⟨{ m with digestDeliveredAt := some now }, ?_, rfl, rfl⟩
    unfold markDigestDelivered
    rw [Table.mem_updateWhere]
    exact ⟨m, hm, (if_pos (decide_eq_true hids)).symm⟩

theorem undelivered_spec {userId : Int} (h : undelivered userId m = true) :
    m.digestDeliveredAt = none ∧ m.seenAt = none := by
  have hall := of_decide_eq_true h
  exact ⟨hall.2.1, hall.2.2.1⟩

/-- A digest that holds a message of the later section is built. -/
theorem buildDigest_of_later (events : List OntEvent) (h : m ∈ laterMessages t r) :
    ∃ d, buildDigestForUser t events r = some d ∧ m.id ∈ d.messageIds := by
  have hpart : part .fyi (laterMessages t r) ≠ [] := by
    unfold part
    rw [if_neg (by simpa using List.ne_nil_of_mem h)]
    simp
  unfold buildDigestForUser
  rw [if_neg (by simp [digestParts, hpart])]
  exact ⟨_, rfl, List.mem_append_right _ (List.mem_map_of_mem h)⟩

/-- A digest marks a pending message exactly where one is among the thirty newest messages that
compete for the section. -/
theorem digest_served_iff (t : Messages) (events : List OntEvent) (r : Request) :
    Served t events r ↔ ((∃ m ∈ t, Pending r m) →
      ∃ m ∈ newest 30 (t.rows.filter (competes r)), Pending r m) := by
  refine imp_congr_right (fun hpending => ?_)
  obtain ⟨other, hother, hotherPending⟩ := hpending
  constructor
  · rintro ⟨d, hbuilt, m, hm, hpending, hmarked⟩
    refine ⟨m, ?_, hpending⟩
    have hids := (mem_markDigestDelivered hm (undelivered_spec hpending.1).1).mp hmarked
    unfold buildDigestForUser at hbuilt
    split at hbuilt
    · cases hbuilt
    · cases hbuilt
      rw [← List.map_append] at hids
      obtain ⟨chosen, hchosen, hid⟩ := List.mem_map.mp hids
      rcases mem_digest_cases ⟨other, hother, hotherPending.competes⟩ hchosen with
        hin | ⟨row, hrow, hsame, hnone⟩ | ⟨hrow, hurgency⟩
      · have hrow : chosen ∈ t := (List.mem_filter.mp (mem_of_mem_newest hin)).1
        rwa [Table.eq_of_key_eq hrow hm hid] at hin
      · have heq : row = m := Table.eq_of_key_eq hrow hm (hsame.trans hid)
        rw [heq, hpending.2.1] at hnone
        cases hnone
      · have heq : chosen = m := Table.eq_of_key_eq hrow hm hid
        exact absurd hpending.2.1 (heq ▸ hurgency)
  · rintro ⟨m, hin, hpending⟩
    have hm : m ∈ t := (List.mem_filter.mp (mem_of_mem_newest hin)).1
    obtain ⟨hundelivered, hseen⟩ := undelivered_spec hpending.1
    have hlater : m ∈ laterMessages t r := by
      apply mem_finishSection.2
      refine ⟨List.mem_append_left _ (List.mem_append_left _ ?_), hseen, hpending.2.2.2⟩
      rw [laterPending_of_competes hm hpending.competes]
      exact hin
    obtain ⟨d, hbuilt, hid⟩ := buildDigest_of_later events hlater
    exact ⟨d, hbuilt, m, hm, hpending, (mem_markDigestDelivered hm hundelivered).mpr hid⟩

/-- The recovery of a backlog is held up by the same thirty messages. -/
theorem recoveryMessages_eq_nil {userId : Int}
    (h : ∀ m ∈ getPendingMessagesByUrgency t userId laterUrgencies 0 30, m.category = some "spam") :
    recoveryMessages t userId = [] := by
  apply List.filter_eq_nil_iff.mpr
  intro m hm
  simp [h m hm]

/-! ## Thirty advertisements -/

def advertisement (id : Nat) : OntMessage :=
  ⟨id, 1, "Shop", 1000 + id, some "later", some "spam", none, none⟩

def annsMessage : OntMessage := ⟨0, 1, "Ann", 1000, some "later", some "social", none, none⟩

def crowdedInbox : List OntMessage := annsMessage :: (List.range 30).map (fun n => advertisement (n + 1))

theorem crowdedInbox_unique : (crowdedInbox.map OntMessage.id).Nodup := by decide

def crowded : Messages := ⟨crowdedInbox, crowdedInbox_unique⟩

def digestRequest : Request :=
  ⟨1, none, 5000, 0, fun m => ⟨m.urgency, m.category, m.digestDeliveredAt, m.seenAt⟩⟩

/-- The thirty newest messages are spam; no digest is built. -/
theorem crowded_notServed : ¬ Served crowded [] digestRequest := by
  intro h
  have hnone : buildDigestForUser crowded [] digestRequest = none := by decide +kernel
  obtain ⟨d, hbuilt, -⟩ := h ⟨annsMessage, by decide +kernel, by decide +kernel⟩
  rw [hnone] at hbuilt
  cases hbuilt

end Lightfriend.Proactive.DigestSelection
