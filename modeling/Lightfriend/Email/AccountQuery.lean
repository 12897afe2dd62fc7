import Lightfriend.Core.Like
import Lightfriend.Core.Machine
import Lightfriend.Core.Split
import Lightfriend.Core.Table
import Mathlib.Data.Bool.AllAny

/-! # The emails of one account

An email is stored under a room id that names its IMAP connection and its UID.
The emails of a connection are queried by a pattern over these ids, in which the
underscores stand for any character.
-/

namespace Lightfriend.Email.AccountQuery

open Text Like

/-! ## Numbers -/

/-- `i32` as `format!` writes it. -/
def displayI32 : Int → List Char
  | .ofNat n => Nat.toDigits 10 n
  | .negSucc n => '-' :: Nat.toDigits 10 (n + 1)

def parseDigits (digits : List Char) : Option Nat :=
  if digits ≠ [] ∧ digits.all Char.isDigit = true then some (Nat.ofDigitChars 10 digits 0) else none

/-- `str::parse::<i32>`. -/
def parseI32 : List Char → Option Int
  | '-' :: digits => do
      let n ← parseDigits digits
      if (n : Int) ≤ -i32Min then some (-n) else none
  | '+' :: digits => do
      let n ← parseDigits digits
      if (n : Int) ≤ i32Max then some n else none
  | digits => do
      let n ← parseDigits digits
      if (n : Int) ≤ i32Max then some n else none

/-! ## Room ids -/

structure EmailRoomIdentity where
  imapConnectionId : Option Int
  uid : List Char
deriving DecidableEq

def email : List Char := ['e', 'm', 'a', 'i', 'l']

def emailRoomId (uid : List Char) : Option Int → List Char
  | some connectionId => email ++ '_' :: (displayI32 connectionId ++ '_' :: uid)
  | none => email ++ '_' :: uid

/-- The UID of a mailbox, as it is written. -/
def IsUid (uid : List Char) : Prop := uid ≠ [] ∧ uid.all Char.isDigit = true

instance (uid : List Char) : Decidable (IsUid uid) := inferInstanceAs (Decidable (_ ∧ _))

/-- The account-scoped form, where the connection is a positive number. -/
def scopedIdentity (rest : List Char) : Option EmailRoomIdentity := do
  let (connection, uid) ← splitOnce '_' rest
  let connectionId ← parseI32 connection
  if 0 < connectionId ∧ IsUid uid then some ⟨some connectionId, uid⟩ else none

def legacyIdentity (rest : List Char) : Option EmailRoomIdentity :=
  if IsUid rest then some ⟨none, rest⟩ else none

def parseEmailRoomId (roomId : List Char) : Option EmailRoomIdentity := do
  let rest ← roomId.dropPrefix? (email ++ ['_'])
  (scopedIdentity rest).or (legacyIdentity rest)

/-! ## The query -/

structure OntMessage where
  id : Int
  userId : Int
  senderName : String
  platform : String
  roomId : List Char
  createdAt : Int
deriving DecidableEq

abbrev Messages := Table OntMessage Int OntMessage.id

/-- `format!("email_{}_%", imap_connection_id)`. -/
def roomPrefix (connectionId : Int) : List Char :=
  email ++ '_' :: (displayI32 connectionId ++ ['_', '%'])

/-- What a query says beside the account. -/
structure Query where
  userId : Int
  since : Int
  incomingOnly : Bool

def Query.asks (q : Query) (m : OntMessage) : Prop :=
  m.userId = q.userId ∧ m.platform = "email" ∧ q.since < m.createdAt ∧
    (q.incomingOnly = true → m.senderName ≠ "You")

instance (q : Query) (m : OntMessage) : Decidable (q.asks m) :=
  inferInstanceAs (Decidable (_ ∧ _ ∧ _ ∧ (_ → _)))

/-- The newest rows; ties stand as they are stored. -/
def newest (limit : Nat) (rows : List OntMessage) : List OntMessage :=
  (orderBy (fun a b => b.createdAt ≤ a.createdAt) rows).take limit

def getRecentEmailMessagesForAccount (t : Messages) (q : Query) (connectionId : Int)
    (limit : Nat) : List OntMessage :=
  newest limit (t.rows.filter (fun m =>
    decide (q.asks m) && like (roomPrefix connectionId) m.roomId))

/-! ## What is promised -/

/-- The room id was made for the connection. -/
def IsRoomOf (connectionId : Int) (roomId : List Char) : Prop :=
  ∃ uid, IsUid uid ∧ roomId = emailRoomId uid (some connectionId)

/-- The room id, where it is one of the connection. -/
def uidIn (connectionId : Int) (roomId : List Char) : Bool :=
  match roomId.dropPrefix? (emailRoomId [] (some connectionId)) with
  | some uid => decide (IsUid uid)
  | none => false

theorem emailRoomId_some (uid : List Char) (connectionId : Int) :
    emailRoomId uid (some connectionId) = emailRoomId [] (some connectionId) ++ uid := by
  simp [emailRoomId]

theorem uidIn_iff {connectionId : Int} {roomId : List Char} :
    uidIn connectionId roomId = true ↔ IsRoomOf connectionId roomId := by
  unfold uidIn
  constructor
  · intro h
    split at h
    next uid hdrop =>
      refine ⟨uid, of_decide_eq_true h, ?_⟩
      rw [emailRoomId_some]
      exact dropPrefix_eq_some.mp hdrop
    next => cases h
  · rintro ⟨uid, huid, rfl⟩
    rw [emailRoomId_some, dropPrefix_eq_some.mpr rfl]
    exact decide_eq_true huid

instance (connectionId : Int) (roomId : List Char) : Decidable (IsRoomOf connectionId roomId) :=
  decidable_of_iff _ uidIn_iff

/-- Whatever the limit, the newest emails of the account are returned. -/
def ExactlyAccount (t : Messages) (q : Query) (connectionId : Int) : Prop :=
  ∀ limit, getRecentEmailMessagesForAccount t q connectionId limit =
    newest limit (t.rows.filter (fun m => decide (q.asks m ∧ IsRoomOf connectionId m.roomId)))

/-- The room id goes on behind the digits of the connection, and is none of its ids. -/
def GoesOn (connectionId : Int) (roomId : List Char) : Prop :=
  (∃ x y tail, roomId = email ++ x :: (displayI32 connectionId ++ y :: tail)) ∧
    ¬ IsRoomOf connectionId roomId

/-! ## Digits -/

section Digits

variable {connectionId : Int}

theorem displayI32_of_pos (h : 0 < connectionId) :
    displayI32 connectionId = Nat.toDigits 10 connectionId.toNat := by
  cases connectionId with
  | ofNat n => rfl
  | negSucc n => exact absurd h (by omega)

theorem isDigit_displayI32 (h : 0 < connectionId) :
    ∀ c ∈ displayI32 connectionId, c.isDigit = true := by
  intro c hc
  rw [displayI32_of_pos h] at hc
  exact Nat.isDigit_of_mem_toDigits (by decide) (by decide) hc

theorem isUid_displayI32 (h : 0 < connectionId) : IsUid (displayI32 connectionId) := by
  refine ⟨?_, List.all_eq_true.mpr (isDigit_displayI32 h)⟩
  rw [displayI32_of_pos h]
  exact Nat.toDigits_ne_nil

theorem plain_of_isDigit {c : Char} (h : c.isDigit = true) : Plain c := by
  have hwild : ∀ d ∈ ['\\', '%', '_'], d.isDigit = false := List.all_iff_forall_prop.mp (by decide)
  have hne : ∀ d ∈ ['\\', '%', '_'], c ≠ d := by
    rintro d hd rfl
    rw [hwild c hd] at h
    cases h
  exact ⟨hne _ (by simp), hne _ (by simp), hne _ (by simp)⟩

theorem underscore_not_mem {digits : List Char} (h : digits.all Char.isDigit = true) :
    '_' ∉ digits :=
  fun hmem => (plain_of_isDigit (List.all_eq_true.mp h _ hmem)).2.2 rfl

theorem parseI32_displayI32 (hpos : 0 < connectionId) (hmax : connectionId ≤ i32Max) :
    parseI32 (displayI32 connectionId) = some connectionId := by
  obtain ⟨hne, hdigits⟩ := isUid_displayI32 hpos
  have hvalue : parseDigits (displayI32 connectionId) = some connectionId.toNat := by
    rw [parseDigits, if_pos ⟨hne, hdigits⟩, displayI32_of_pos hpos, Nat.ofDigitChars_ten_toDigits]
  have hsign : ∀ c rest, displayI32 connectionId = c :: rest → c ≠ '-' ∧ c ≠ '+' := by
    intro c rest htext
    have hdigit := isDigit_displayI32 hpos c (by rw [htext]; exact List.mem_cons_self)
    constructor
    · rintro rfl
      revert hdigit
      decide
    · rintro rfl
      revert hdigit
      decide
  have hcast : ((connectionId.toNat : Nat) : Int) = connectionId := Int.toNat_of_nonneg hpos.le
  unfold parseI32
  split
  next digits htext => exact absurd rfl (hsign _ _ htext).1
  next digits htext => exact absurd rfl (hsign _ _ htext).2
  next =>
    rw [hvalue, Option.bind_eq_bind, Option.bind_some, hcast, if_pos hmax]

end Digits

/-! ## Ids are read back -/

theorem parseEmailRoomId_emailRoomId {connectionId : Int} {uid : List Char}
    (hpos : 0 < connectionId) (hmax : connectionId ≤ i32Max) (huid : IsUid uid) :
    parseEmailRoomId (emailRoomId uid (some connectionId)) = some ⟨some connectionId, uid⟩ := by
  have hdrop : (emailRoomId uid (some connectionId)).dropPrefix? (email ++ ['_']) =
      some (displayI32 connectionId ++ '_' :: uid) := dropPrefix_eq_some.mpr (by simp [emailRoomId])
  have hsplit : splitOnce '_' (displayI32 connectionId ++ '_' :: uid) =
      some (displayI32 connectionId, uid) :=
    splitOnce_eq_some.mpr ⟨rfl, underscore_not_mem (isUid_displayI32 hpos).2⟩
  have hscoped : scopedIdentity (displayI32 connectionId ++ '_' :: uid) =
      some ⟨some connectionId, uid⟩ := by
    unfold scopedIdentity
    rw [hsplit]
    simp only [Option.bind_eq_bind, Option.bind_some, parseI32_displayI32 hpos hmax]
    exact if_pos ⟨hpos, huid⟩
  unfold parseEmailRoomId
  rw [hdrop, Option.bind_eq_bind, Option.bind_some, hscoped, Option.some_or]

/-! ## What the pattern matches -/

section Matches

variable {connectionId : Int} {roomId : List Char}

theorem like_roomPrefix (hpos : 0 < connectionId) : like (roomPrefix connectionId) roomId = true ↔
    ∃ x y tail, roomId = email ++ x :: (displayI32 connectionId ++ y :: tail) := by
  have hemail : ∀ c ∈ email, Plain c := by
    unfold Plain
    exact List.all_iff_forall_prop.mp (by decide)
  have hdigits : ∀ c ∈ displayI32 connectionId, Plain c :=
    fun c hc => plain_of_isDigit (isDigit_displayI32 hpos c hc)
  have hitems : items (roomPrefix connectionId) = email.map .literal ++
      .one :: ((displayI32 connectionId).map .literal ++ [.one, .many]) := by
    rw [roomPrefix, items_plain hemail]
    change _ ++ Item.one :: items (displayI32 connectionId ++ ['_', '%']) = _
    rw [items_plain hdigits]
    rfl
  unfold like
  rw [hitems, matchItems_literals]
  constructor
  · rintro ⟨rest, rfl, hrest⟩
    obtain ⟨x, behind, rfl, hbehind⟩ := matchItems_one.mp hrest
    obtain ⟨last, rfl, hlast⟩ := matchItems_literals.mp hbehind
    obtain ⟨y, tail, rfl, -⟩ := matchItems_one.mp hlast
    exact ⟨x, y, tail, rfl⟩
  · rintro ⟨x, y, tail, rfl⟩
    exact ⟨_, rfl, matchItems_one.mpr ⟨x, _, rfl, matchItems_literals.mpr
      ⟨_, rfl, matchItems_one.mpr ⟨y, tail, rfl, matchItems_many tail⟩⟩⟩⟩

theorem like_of_isRoomOf (hpos : 0 < connectionId) (h : IsRoomOf connectionId roomId) :
    like (roomPrefix connectionId) roomId = true := by
  obtain ⟨uid, -, rfl⟩ := h
  exact (like_roomPrefix hpos).mpr ⟨'_', '_', uid, rfl⟩

/-- What stands behind the first underscore of an id, up to the second one. -/
def nextNumber (uid : List Char) : Option Int → List Char
  | some connectionId => displayI32 connectionId
  | none => uid

theorem displayI32_inj {a b : Int} (ha : 0 < a) (hb : 0 < b) (h : displayI32 a = displayI32 b) :
    a = b := by
  rw [displayI32_of_pos ha, displayI32_of_pos hb] at h
  have hvalue := congrArg (fun digits => Nat.ofDigitChars 10 digits 0) h
  simp only [Nat.ofDigitChars_ten_toDigits] at hvalue
  omega

/-- The digits up to an underscore are told apart from what follows. -/
theorem digits_append_inj {a b back back' : List Char} (ha : '_' ∉ a) (hb : '_' ∉ b)
    (h : a ++ '_' :: back = b ++ '_' :: back') : a = b ∧ back = back' := by
  have hsplit : splitOnce '_' (a ++ '_' :: back) = some (a, back) :=
    splitOnce_eq_some.mpr ⟨rfl, ha⟩
  have hsplit' : splitOnce '_' (a ++ '_' :: back) = some (b, back') :=
    splitOnce_eq_some.mpr ⟨h, hb⟩
  rw [hsplit] at hsplit'
  cases hsplit'
  exact ⟨rfl, rfl⟩

theorem isRoomOf_emailRoomId {uid : List Char} {other : Option Int} (hpos : 0 < connectionId)
    (huid : IsUid uid) (hother : ∀ id ∈ other, 0 < id) :
    IsRoomOf connectionId (emailRoomId uid other) ↔ other = some connectionId := by
  constructor
  · rintro ⟨uid', huid', hroom⟩
    have hdigits := underscore_not_mem (isUid_displayI32 hpos).2
    cases other with
    | none =>
        have hrest := (List.cons.inj (List.append_cancel_left hroom)).2
        have hmem : '_' ∈ uid := by
          rw [hrest]
          simp
        exact absurd hmem (underscore_not_mem huid.2)
    | some id =>
        have hid := hother id rfl
        have hrest := (List.cons.inj (List.append_cancel_left hroom)).2
        obtain ⟨hsame, -⟩ := digits_append_inj (underscore_not_mem (isUid_displayI32 hid).2)
          hdigits hrest
        rw [displayI32_inj hid hpos hsame]
  · rintro rfl
    exact ⟨uid, huid, rfl⟩

/-- The pattern reads on where the digits of the connection start a longer number. -/
theorem goesOn_emailRoomId {uid : List Char} {other : Option Int} (hpos : 0 < connectionId)
    (huid : IsUid uid) (hother : ∀ id ∈ other, 0 < id) :
    GoesOn connectionId (emailRoomId uid other) ↔
      displayI32 connectionId <+: nextNumber uid other ∧
        displayI32 connectionId ≠ nextNumber uid other := by
  have hdigits := underscore_not_mem (isUid_displayI32 hpos).2
  unfold GoesOn
  rw [isRoomOf_emailRoomId hpos huid hother]
  cases other with
  | none =>
      simp only [emailRoomId, nextNumber, reduceCtorEq, not_false_eq_true, and_true]
      constructor
      · rintro ⟨x, y, tail, hroom⟩
        have hrest := (List.cons.inj (List.append_cancel_left hroom)).2
        refine ⟨⟨y :: tail, hrest.symm⟩, fun hsame => ?_⟩
        rw [← hsame] at hrest
        exact absurd (List.self_eq_append_right.mp hrest) (List.cons_ne_nil _ _)
      · rintro ⟨⟨rest, rfl⟩, hne⟩
        cases rest with
        | nil => exact absurd (List.append_nil _).symm hne
        | cons y tail => exact ⟨'_', y, tail, rfl⟩
  | some id =>
      have hid := hother id rfl
      simp only [emailRoomId, nextNumber, Option.some.injEq]
      constructor
      · rintro ⟨⟨x, y, tail, hroom⟩, hne⟩
        have hrest := (List.cons.inj (List.append_cancel_left hroom)).2
        refine ⟨?_, fun hsame => hne (displayI32_inj hid hpos hsame.symm)⟩
        obtain ⟨more, hmore, hback⟩ | ⟨more, hmore, -⟩ := List.append_eq_append_iff.mp hrest
        · cases more with
          | nil =>
              rw [List.append_nil] at hmore
              rw [hmore]
          | cons c more =>
              have hc : '_' = c := (List.cons.inj hback).1
              exact absurd (by rw [hmore, ← hc]; simp) hdigits
        · exact ⟨more, hmore.symm⟩
      · rintro ⟨⟨rest, hmore⟩, hne⟩
        refine ⟨?_, fun hsame => hne (by rw [hsame])⟩
        rw [← hmore, List.append_assoc]
        cases rest with
        | nil => exact ⟨'_', '_', uid, rfl⟩
        | cons y tail => exact ⟨'_', y, tail ++ '_' :: uid, rfl⟩

end Matches

/-! ## The emails of one account -/

section Exact

variable {connectionId : Int}

theorem exactlyAccount_iff (t : Messages) (q : Query) (hpos : 0 < connectionId) :
    ExactlyAccount t q connectionId ↔
      ∀ m ∈ t.rows, q.asks m → ¬ GoesOn connectionId m.roomId := by
  constructor
  · rintro hexact m hm hasks ⟨hmatch, hnot⟩
    have hlike := (like_roomPrefix hpos).mpr hmatch
    -- A limit that cuts nothing off.
    have hall := hexact t.rows.length
    unfold getRecentEmailMessagesForAccount newest at hall
    have hlength : ∀ p : OntMessage → Bool,
        (orderBy (fun a b : OntMessage => b.createdAt ≤ a.createdAt) (t.rows.filter p)).length ≤
          t.rows.length := by
      intro p
      unfold orderBy
      rw [List.length_insertionSort]
      exact List.length_filter_le _ _
    rw [List.take_of_length_le (hlength _), List.take_of_length_le (hlength _)] at hall
    have hmem : m ∈ orderBy (fun a b : OntMessage => b.createdAt ≤ a.createdAt)
        (t.rows.filter (fun m =>
          decide (q.asks m) && like (roomPrefix connectionId) m.roomId)) := by
      rw [mem_orderBy, List.mem_filter]
      exact ⟨hm, by simp [hasks, hlike]⟩
    rw [hall, mem_orderBy, List.mem_filter] at hmem
    exact hnot (of_decide_eq_true hmem.2).2
  · intro hnone limit
    unfold getRecentEmailMessagesForAccount
    congr 1
    refine List.filter_congr (fun m hm => ?_)
    by_cases hasks : q.asks m
    · have hiff : like (roomPrefix connectionId) m.roomId = true ↔
          IsRoomOf connectionId m.roomId := by
        refine ⟨fun hlike => ?_, like_of_isRoomOf hpos⟩
        by_contra hnot
        exact hnone m hm hasks ⟨(like_roomPrefix hpos).mp hlike, hnot⟩
      rw [Bool.eq_iff_iff, Bool.and_eq_true, decide_eq_true_iff, decide_eq_true_iff, hiff]
    · simp [hasks]

/-- Ids are read back; the query is exact where no email that it asks for has an id that goes on
behind the digits of the connection; and such ids are those of a number that these digits start. -/
theorem accountQuery_exact_iff {uid : List Char} (hpos : 0 < connectionId)
    (hmax : connectionId ≤ i32Max) (huid : IsUid uid) :
    parseEmailRoomId (emailRoomId uid (some connectionId)) = some ⟨some connectionId, uid⟩ ∧
    (∀ t q, ExactlyAccount t q connectionId ↔
      ∀ m ∈ t.rows, q.asks m → ¬ GoesOn connectionId m.roomId) ∧
    ∀ uid' other, IsUid uid' → (∀ id ∈ other, 0 < id) →
      (GoesOn connectionId (emailRoomId uid' other) ↔
        displayI32 connectionId <+: nextNumber uid' other ∧
          displayI32 connectionId ≠ nextNumber uid' other) :=
  ⟨parseEmailRoomId_emailRoomId hpos hmax huid, fun t q => exactlyAccount_iff t q hpos,
    fun _ _ huid' hother => goesOn_emailRoomId hpos huid' hother⟩

end Exact

def annsEmail : OntMessage := ⟨1, 7, "Ann", "email", "email_1_7".toList, 100⟩

def bobsEmail : OntMessage := ⟨2, 7, "Bob", "email", "email_12_7".toList, 200⟩

/-- Every incoming email of the user. -/
def incomingEmails : Query := ⟨7, 0, true⟩

theorem oneInbox_unique : ([annsEmail].map OntMessage.id).Nodup := by decide

def oneInbox : Messages := ⟨[annsEmail], oneInbox_unique⟩

theorem accountQuery_oneInbox :
    parseEmailRoomId (emailRoomId "7".toList (some 1)) = some ⟨some 1, "7".toList⟩ ∧
    ExactlyAccount oneInbox incomingEmails 1 ∧
    ¬ GoesOn 1 (emailRoomId "7".toList (some 2)) := by
  obtain ⟨hparse, hexact, hgoesOn⟩ :=
    @accountQuery_exact_iff 1 "7".toList (by decide) (by decide) (by decide)
  refine ⟨hparse, (hexact _ _).mpr ?_, ?_⟩
  · intro m hm _ hon
    obtain rfl := List.mem_singleton.mp hm
    exact hon.2 (by decide +kernel)
  · rw [hgoesOn _ _ (by decide) (by simp)]
    decide +kernel

theorem twoInboxes_unique : ([annsEmail, bobsEmail].map OntMessage.id).Nodup := by decide

def twoInboxes : Messages := ⟨[annsEmail, bobsEmail], twoInboxes_unique⟩

/-- The emails of connection 12 are told for those of connection 1. -/
theorem accountQuery_twoInboxes :
    getRecentEmailMessagesForAccount twoInboxes incomingEmails 1 1 = [bobsEmail] ∧
    bobsEmail.roomId = emailRoomId "7".toList (some 12) ∧
    ¬ ExactlyAccount twoInboxes incomingEmails 1 := by
  have hbob : getRecentEmailMessagesForAccount twoInboxes incomingEmails 1 1 = [bobsEmail] := by
    decide +kernel
  refine ⟨hbob, by decide +kernel, fun hexact => ?_⟩
  have hann : newest 1 (twoInboxes.rows.filter (fun m =>
      decide (incomingEmails.asks m ∧ IsRoomOf 1 m.roomId))) = [annsEmail] := by decide +kernel
  have hsame := hexact 1
  rw [hbob, hann] at hsame
  revert hsame
  decide +kernel

end Lightfriend.Email.AccountQuery
