import Lightfriend.Core.Fault
import Lightfriend.Core.Trim

/-! # Digest lines

A line of the digest names the sender and then repeats what the message says. A
summary that starts with the sender's name again is cut: the name is looked for
in lower-cased copies, and its length in bytes is cut from the original.
-/

namespace Lightfriend.Proactive.DigestLines

open Text

/-! ## The summary without its sender -/

/-- `c == ':' || c == ',' || c == '-' || c.is_whitespace()`. -/
def isSeparator (c : Char) : Bool := c = ':' ∨ c = ',' ∨ c = '-' ∨ isWhitespace c = true

def possessive : List Char := "'s".toList

def connectors : List (List Char) := ["is ", "was ", "has "].map String.toList

/-- The text behind the name: no possessive, and no separators before the rest. -/
def afterName (rest : List Char) : List Char :=
  ((rest.dropPrefix? possessive).getD rest).dropWhile isSeparator

section Strip

variable (lower : List Char → List Char)

/-- What the lower-cased copy says behind a connector. -/
def afterConnector (rest : List Char) : Option (List Char) :=
  connectors.findSome? (fun connector => (lower rest).dropPrefix? connector)

/-- The copy tells how many bytes of the original to keep. A length below zero aborts at once, or
wraps around to an offset behind the text. -/
def dropConnector (rest : List Char) : Checked (List Char) :=
  match afterConnector lower rest with
  | some stripped =>
      if byteLen stripped ≤ byteLen rest then
        sliceFrom rest (byteLen rest - byteLen stripped)
      else .error .overflow
  | none => .ok rest

/-- The summary as it was, when nothing is left of it. -/
def orWhole (trimmed cleaned : List Char) : List Char := if cleaned = [] then trimmed else cleaned

/-- The lower-cased summary starts with the lower-cased name. -/
def nameMatches (summary sender : List Char) : Prop :=
  trimText sender ≠ [] ∧ lower (trimText sender) <+: lower (trimText summary)

instance (summary sender : List Char) : Decidable (nameMatches lower summary sender) :=
  inferInstanceAs (Decidable (_ ∧ _))

def stripSenderPrefix (summary sender : List Char) : Checked (List Char) :=
  if nameMatches lower summary sender then do
    let rest ← sliceFrom (trimText summary) (byteLen (trimText sender))
    let rest ← dropConnector lower (afterName rest)
    .ok (orWhole (trimText summary) (trimText rest))
  else .ok (trimText summary)

/-! ## What is promised -/

/-- The summary begins, ignoring case, with the name and a separator. -/
def BeginsWithSender (summary sender : List Char) : Prop :=
  ∃ front rest, trimText summary = front ++ rest ∧ lower front = lower (trimText sender) ∧
    (possessive <+: rest ∨ ∃ c ∈ rest.head?, isSeparator c = true)

/-- The call returns an end of the summary, and the whole of it where no name is cut. -/
def StripsSafely (summary sender : List Char) : Prop :=
  ∃ stripped, stripSenderPrefix lower summary sender = .ok stripped ∧
    stripped <:+ trimText summary ∧
    (stripped = trimText summary ∨ BeginsWithSender lower summary sender)

/-- The cut behind a connector falls between two characters. -/
def ConnectorCut (rest : List Char) : Prop :=
  ∀ stripped, afterConnector lower rest = some stripped →
    byteLen stripped ≤ byteLen rest ∧ IsCharBoundary rest (byteLen rest - byteLen stripped)

/-- Where the name matches, its bytes and those of a connector end between two characters. -/
def CutsBetween (summary sender : List Char) : Prop :=
  nameMatches lower summary sender →
    ∃ front rest, trimText summary = front ++ rest ∧ byteLen front = byteLen (trimText sender) ∧
      ConnectorCut lower (afterName rest)

/-- Nothing but separators and a connector follows the bytes of the name. -/
def NothingFollows (summary sender : List Char) : Prop :=
  ∃ front rest, trimText summary = front ++ rest ∧ byteLen front = byteLen (trimText sender) ∧
    (afterName rest = [] ∨ afterConnector lower (afterName rest) = some [])

/-- Where the name matches, a separator follows it, or nothing does. -/
structure NameSeparated (summary sender : List Char) : Prop where
  cuts : CutsBetween lower summary sender
  separated : nameMatches lower summary sender →
    BeginsWithSender lower summary sender ∨ NothingFollows lower summary sender

variable {lower : List Char → List Char} {summary sender : List Char}

/-! ## The cut -/

theorem afterName_isSuffix (rest : List Char) : afterName rest <:+ rest := by
  have hdrop : afterName rest <:+ (rest.dropPrefix? possessive).getD rest :=
    List.dropWhile_suffix _
  refine hdrop.trans ?_
  cases hpossessive : rest.dropPrefix? possessive with
  | none => exact List.suffix_rfl
  | some back =>
      obtain ⟨front, rfl, -⟩ := List.dropPrefix?_eq_some_iff.mp hpossessive
      exact List.suffix_append front back

/-- A connector is cut off where the copy and the original agree. -/
theorem dropConnector_spec (rest : List Char) :
    (¬ ConnectorCut lower rest ∧ ∃ fault, dropConnector lower rest = .error fault) ∨
    ConnectorCut lower rest ∧ ∃ back, dropConnector lower rest = .ok back ∧ back <:+ rest ∧
      (back = [] ↔ rest = [] ∨ afterConnector lower rest = some []) := by
  unfold dropConnector ConnectorCut
  cases hconnector : afterConnector lower rest with
  | none =>
      exact .inr ⟨by simp, rest, rfl, List.suffix_rfl, by simp⟩
  | some stripped =>
      simp only [Option.some.injEq, forall_eq']
      split
      next hle =>
        by_cases hboundary : IsCharBoundary rest (byteLen rest - byteLen stripped)
        · obtain ⟨front, ⟨back, rfl⟩, hlength⟩ := hboundary
          have hslice : sliceFrom (front ++ back) (byteLen (front ++ back) - byteLen stripped) =
              .ok back := by
            rw [← hlength]
            exact sliceFrom_append front back
          have hcut : IsCharBoundary (front ++ back)
              (byteLen (front ++ back) - byteLen stripped) :=
            ⟨front, List.prefix_append front back, hlength⟩
          refine .inr ⟨⟨hle, hcut⟩, back, hslice, List.suffix_append front back, ?_⟩
          rw [byteLen_append] at hle hlength
          have hsame : byteLen back = byteLen stripped := by omega
          constructor
          · rintro rfl
            exact .inr (byteLen_eq_zero hsame.symm)
          · rintro (hnil | rfl)
            · exact (List.append_eq_nil_iff.mp hnil).2
            · exact byteLen_eq_zero hsame
        · exact .inl ⟨fun h => hboundary h.2, .slice, sliceFrom_of_not_boundary hboundary⟩
      next hle => exact .inl ⟨fun h => hle h.1, .overflow, rfl⟩

theorem stripSenderPrefix_of_not (h : ¬ nameMatches lower summary sender) :
    stripSenderPrefix lower summary sender = .ok (trimText summary) := if_neg h

/-- The parts of a summary that the bytes of the name give are the only ones. -/
theorem nothingFollows_iff {front rest : List Char} (hsplit : trimText summary = front ++ rest)
    (hlength : byteLen front = byteLen (trimText sender)) : NothingFollows lower summary sender ↔
      afterName rest = [] ∨ afterConnector lower (afterName rest) = some [] := by
  constructor
  · rintro ⟨front', rest', hsplit', hlength', hnothing⟩
    obtain ⟨-, rfl⟩ := append_inj_of_byteLen (hsplit'.symm.trans hsplit)
      (hlength'.trans hlength.symm)
    exact hnothing
  · exact fun hnothing => ⟨front, rest, hsplit, hlength, hnothing⟩

theorem cutsBetween_iff {front rest : List Char} (hmatch : nameMatches lower summary sender)
    (hsplit : trimText summary = front ++ rest)
    (hlength : byteLen front = byteLen (trimText sender)) :
    CutsBetween lower summary sender ↔ ConnectorCut lower (afterName rest) := by
  constructor
  · intro hcuts
    obtain ⟨front', rest', hsplit', hlength', hconnector⟩ := hcuts hmatch
    obtain ⟨-, rfl⟩ := append_inj_of_byteLen (hsplit'.symm.trans hsplit)
      (hlength'.trans hlength.symm)
    exact hconnector
  · exact fun hconnector _ => ⟨front, rest, hsplit, hlength, hconnector⟩

/-- What is left of an end of the summary, and when the whole of it is put back. -/
theorem orWhole_spec {front rest back : List Char} (hsplit : trimText summary = front ++ rest)
    (hfront : front ≠ []) (hback : back <:+ rest) :
    orWhole (trimText summary) (trimText back) <:+ trimText summary ∧
      (orWhole (trimText summary) (trimText back) = trimText summary ↔ back = []) := by
  have hends : back <:+ trimText summary := by
    rw [hsplit]
    exact hback.trans (List.suffix_append front rest)
  have hblank := getLast_of_isSuffix hends (@getLast_trimText summary)
  have htrim : trimText back = trimStart back := trimText_of_getLast hblank
  have hstart : trimStart back <:+ back := List.dropWhile_suffix _
  unfold orWhole
  rw [htrim]
  split
  next hnil => exact ⟨List.suffix_rfl, by simp [trimStart_eq_nil hblank hnil]⟩
  next hne =>
    refine ⟨hstart.trans hends, fun hwhole => ?_, fun hnil => ?_⟩
    · have hle := (hstart.trans hback).length_le
      rw [hwhole, hsplit, List.length_append] at hle
      exact absurd (List.length_eq_zero_iff.mp (by omega)) hfront
    · subst hnil
      exact absurd rfl hne

/-- A matching name is cut off, or the call aborts. -/
theorem stripSenderPrefix_matched (hmatch : nameMatches lower summary sender) :
    (¬ CutsBetween lower summary sender ∧
      ∃ fault, stripSenderPrefix lower summary sender = .error fault) ∨
    CutsBetween lower summary sender ∧
      ∃ stripped, stripSenderPrefix lower summary sender = .ok stripped ∧
        stripped <:+ trimText summary ∧
        (stripped = trimText summary ↔ NothingFollows lower summary sender) := by
  unfold stripSenderPrefix
  rw [if_pos hmatch]
  by_cases hboundary : IsCharBoundary (trimText summary) (byteLen (trimText sender))
  · obtain ⟨front, ⟨rest, hsplit⟩, hlength⟩ := hboundary
    have hfront : front ≠ [] := by
      rintro rfl
      exact hmatch.1 (byteLen_eq_zero hlength.symm)
    have hslice : sliceFrom (trimText summary) (byteLen (trimText sender)) = .ok rest := by
      rw [← hsplit, ← hlength]
      exact sliceFrom_append front rest
    rw [hslice, cutsBetween_iff hmatch hsplit.symm hlength,
      nothingFollows_iff hsplit.symm hlength]
    obtain ⟨hcut, fault, hdrop⟩ | ⟨hcut, back, hdrop, hends, hnil⟩ :=
      @dropConnector_spec lower (afterName rest)
    · refine .inl ⟨hcut, fault, ?_⟩
      change (dropConnector lower (afterName rest)).bind _ = _
      rw [hdrop]
      rfl
    · obtain ⟨hkept, hwhole⟩ := orWhole_spec hsplit.symm hfront
        (hends.trans (afterName_isSuffix rest))
      refine .inr ⟨hcut, orWhole (trimText summary) (trimText back), ?_, hkept,
        hwhole.trans hnil⟩
      change (dropConnector lower (afterName rest)).bind _ = _
      rw [hdrop]
      rfl
  · refine .inl ⟨fun hcuts => ?_, .slice, ?_⟩
    · obtain ⟨front, rest, hsplit, hlength, -⟩ := hcuts hmatch
      exact hboundary ⟨front, ⟨rest, hsplit.symm⟩, hlength⟩
    · rw [sliceFrom_of_not_boundary hboundary]
      rfl

theorem returns_stripSenderPrefix_iff :
    Returns (stripSenderPrefix lower summary sender) ↔ CutsBetween lower summary sender := by
  by_cases hmatch : nameMatches lower summary sender
  · obtain ⟨hcuts, fault, hstrip⟩ | ⟨hcuts, stripped, hstrip, -⟩ := stripSenderPrefix_matched hmatch
    · rw [hstrip]
      exact ⟨fun h => absurd h (not_returns_error _), fun h => absurd h hcuts⟩
    · rw [hstrip]
      exact ⟨fun _ => hcuts, fun _ => returns_ok _⟩
  · rw [stripSenderPrefix_of_not hmatch]
    exact ⟨fun _ h => absurd h hmatch, fun _ => returns_ok _⟩

theorem stripsSafely_iff :
    StripsSafely lower summary sender ↔ NameSeparated lower summary sender := by
  unfold StripsSafely
  by_cases hmatch : nameMatches lower summary sender
  · obtain ⟨hcuts, fault, hstrip⟩ | ⟨hcuts, stripped, hstrip, hends, hwhole⟩ :=
      stripSenderPrefix_matched hmatch
    · rw [hstrip]
      constructor
      · rintro ⟨stripped, h, -⟩
        cases h
      · exact fun h => absurd h.cuts hcuts
    · rw [hstrip]
      constructor
      · rintro ⟨stripped', h, -, hsame⟩
        cases h
        rw [hwhole] at hsame
        exact ⟨hcuts, fun _ => hsame.symm⟩
      · intro h
        refine ⟨stripped, rfl, hends, ?_⟩
        rw [hwhole]
        exact (h.separated hmatch).symm
  · rw [stripSenderPrefix_of_not hmatch]
    exact ⟨fun _ => ⟨fun h => absurd h hmatch, fun h => absurd h hmatch⟩,
      fun _ => ⟨_, rfl, List.suffix_rfl, .inl rfl⟩⟩

end Strip

/-! ## The lines of the digest -/

def digestTeaserCap : Nat := 100

def digestHighSignalTeaserCap : Nat := 160

def highSignalCap : Nat := 3

def fyiGroupMessageCap : Nat := 3

def digestUnclassifiedFallbackCap : Nat := 60

def fyiCap : Nat := 8

/-- The fields of a stored message that the digest reads. -/
structure OntMessage where
  platform : List Char
  senderName : List Char
  senderKey : Option (List Char)
  roomId : List Char
  content : List Char
  summary : Option (List Char)
  createdAt : Int

namespace OntMessage

/-- The summary, or the content of a message without one. -/
def rawSummary (m : OntMessage) : List Char := m.summary.getD m.content

def effectiveCap (m : OntMessage) (cap : Nat) : Nat :=
  if m.summary.isSome then cap else digestUnclassifiedFallbackCap

/-- The key of the sender, where it says something. -/
def usefulKey (m : OntMessage) : Option (List Char) :=
  (m.senderKey.map trimText).filter (fun key => !key.isEmpty)

def platformSender (m : OntMessage) : List Char :=
  match String.ofList (m.platform.map Char.toLower) with
  | "whatsapp" => "WhatsApp sender".toList
  | "signal" => "Signal sender".toList
  | "telegram" => "Telegram sender".toList
  | "email" => "Email sender".toList
  | _ => "Message sender".toList

def unknownNames : List (List Char) := ["unknown", "unknown sender"].map String.toList

def digestSenderLabel (m : OntMessage) : List Char :=
  if trimText m.senderName ≠ [] ∧ (trimText m.senderName).map Char.toLower ∉ unknownNames then
    trimText m.senderName
  else m.usefulKey.getD m.platformSender

end OntMessage

/-- `format!("{}\n+ {} more", ..)`, where more than the cap are there. -/
def withMore (separator block : List Char) (total cap : Nat) : List Char :=
  if cap < total then block ++ separator ++ "+ ".toList ++ (toString (total - cap)).toList ++
    " more".toList
  else block

section Lines

variable (lower : List Char → List Char)

def digestTeaser (sender : List Char) (cap : Nat) (m : OntMessage) : Checked (List Char) := do
  let cleaned ← stripSenderPrefix lower m.rawSummary sender
  .ok (trimText (cleaned.take (m.effectiveCap cap)))

def formatDigestMessageWithCap (m : OntMessage) (cap : Nat) : Checked (List Char) := do
  let short ← digestTeaser lower m.senderName cap m
  .ok ("- ".toList ++ m.digestSenderLabel ++ if short = [] then [] else ": ".toList ++ short)

def formatDigestMessage (m : OntMessage) : Checked (List Char) :=
  formatDigestMessageWithCap lower m digestTeaserCap

def renderHighSignalSection (title : List Char) (messages : List OntMessage) :
    Checked (Option (List Char)) :=
  if messages = [] then .ok none
  else do
    let shown ← (messages.take highSignalCap).mapM
      (fun m => formatDigestMessageWithCap lower m digestHighSignalTeaserCap)
    .ok (some (withMore "\n".toList (title ++ ":\n".toList ++ ['\n'].intercalate shown)
      messages.length highSignalCap))

/-- Messages one after another from one sender in one room. -/
structure DigestGroup where
  first : OntMessage
  more : List OntMessage

def DigestGroup.messages (group : DigestGroup) : List OntMessage := group.first :: group.more

/-- The messages from the oldest on. -/
def DigestGroup.sorted (group : DigestGroup) : List OntMessage :=
  group.messages.mergeSort (fun a b => a.createdAt ≤ b.createdAt)

def formatDigestGroup (group : DigestGroup) : Checked (List Char) :=
  if group.more = [] then formatDigestMessage lower group.first
  else do
    let oldest := group.sorted.headD group.first
    let teasers ← (group.sorted.take fyiGroupMessageCap).mapM
      (digestTeaser lower oldest.senderName digestTeaserCap)
    let told := teasers.filter (fun teaser => !teaser.isEmpty)
    .ok (if told = [] then "- ".toList ++ oldest.digestSenderLabel
      else withMore "; ".toList ("- ".toList ++ oldest.digestSenderLabel ++ ": ".toList ++
        "; ".toList.intercalate told) group.sorted.length fyiGroupMessageCap)

/-- A message extends the last group, or starts one. -/
def pushMessage (groups : List DigestGroup) (m : OntMessage) : List DigestGroup :=
  match groups.getLast? with
  | some group =>
      if group.first.senderName = m.senderName ∧ group.first.roomId = m.roomId then
        groups.dropLast ++ [⟨group.first, group.more ++ [m]⟩]
      else groups ++ [⟨m, []⟩]
  | none => groups ++ [⟨m, []⟩]

def digestGroups (messages : List OntMessage) : List DigestGroup :=
  messages.foldl pushMessage []

def renderFyiInline (messages : List OntMessage) : Checked (Option (List Char)) :=
  if messages = [] then .ok none
  else do
    let shown ← ((digestGroups messages).take fyiCap).mapM (formatDigestGroup lower)
    .ok (some (withMore "\n".toList ("FYI:\n".toList ++ ['\n'].intercalate shown)
      (digestGroups messages).length fyiCap))

/-- The blocks of the digest that tell of messages. -/
def messageBlocks (nowMsgs laterMsgs : List OntMessage) : Checked (List (List Char)) := do
  let important ← renderHighSignalSection lower "Important".toList nowMsgs
  let fyi ← renderFyiInline lower laterMsgs
  .ok (important.toList ++ fyi.toList)

/-- The messages that get a line or a part of one. -/
def shownMessages (nowMsgs laterMsgs : List OntMessage) : List OntMessage :=
  nowMsgs.take highSignalCap ++
    ((digestGroups laterMsgs).take fyiCap).flatMap
      (fun group => group.sorted.take fyiGroupMessageCap)

variable {lower : List Char → List Char}

/-! ## When the digest is told -/

section Told

theorem returns_digestTeaser {sender : List Char} {cap : Nat} {m : OntMessage} :
    Returns (digestTeaser lower sender cap m) ↔ CutsBetween lower m.rawSummary sender :=
  (returns_bind_ok _ _).trans returns_stripSenderPrefix_iff

theorem returns_formatDigestMessageWithCap {m : OntMessage} {cap : Nat} :
    Returns (formatDigestMessageWithCap lower m cap) ↔
      CutsBetween lower m.rawSummary m.senderName :=
  (returns_bind_ok _ _).trans returns_digestTeaser

theorem returns_renderHighSignalSection (title : List Char) (messages : List OntMessage) :
    Returns (renderHighSignalSection lower title messages) ↔
      ∀ m ∈ messages.take highSignalCap, CutsBetween lower m.rawSummary m.senderName := by
  unfold renderHighSignalSection
  split
  next hnil =>
    subst hnil
    simp [returns_ok]
  next =>
    rw [returns_bind_ok, returns_mapM]
    exact forall₂_congr (fun m _ => returns_formatDigestMessageWithCap)

/-- The messages of a group have one sender. -/
def DigestGroup.OneSender (group : DigestGroup) : Prop :=
  ∀ m ∈ group.messages, m.senderName = group.first.senderName

theorem DigestGroup.mem_sorted {group : DigestGroup} {m : OntMessage} :
    m ∈ group.sorted ↔ m ∈ group.messages := List.mem_mergeSort

theorem DigestGroup.OneSender.oldest {group : DigestGroup} (h : group.OneSender) :
    (group.sorted.headD group.first).senderName = group.first.senderName := by
  cases hsorted : group.sorted with
  | nil => rfl
  | cons m rest =>
      refine h m (DigestGroup.mem_sorted.1 ?_)
      rw [hsorted]
      exact List.mem_cons_self

theorem pushMessage_oneSender {groups : List DigestGroup} (m : OntMessage)
    (h : ∀ group ∈ groups, group.OneSender) :
    ∀ group ∈ pushMessage groups m, group.OneSender := by
  have hsingle : DigestGroup.OneSender ⟨m, []⟩ := by
    intro m' hm'
    obtain rfl := List.mem_singleton.mp hm'
    rfl
  have hnew : ∀ group ∈ groups ++ [⟨m, []⟩], group.OneSender := by
    intro group hgroup
    obtain hold | hlast := List.mem_append.mp hgroup
    · exact h group hold
    · rw [List.mem_singleton.mp hlast]
      exact hsingle
  unfold pushMessage
  cases hgroups : groups.getLast? with
  | none => exact hnew
  | some last =>
      simp only
      split
      next hsame =>
        intro group hgroup
        obtain hold | hlast := List.mem_append.mp hgroup
        · exact h group (List.mem_of_mem_dropLast hold)
        · rw [List.mem_singleton.mp hlast]
          intro m' hm'
          have hmem : m' ∈ last.messages ∨ m' = m := by
            simpa [DigestGroup.messages, or_assoc] using hm'
          obtain hm' | rfl := hmem
          · exact h last (List.mem_of_getLast? hgroups) m' hm'
          · exact hsame.1.symm
      next => exact hnew

theorem digestGroups_oneSender (messages : List OntMessage) :
    ∀ group ∈ digestGroups messages, group.OneSender := by
  have hall : ∀ groups : List DigestGroup, (∀ group ∈ groups, group.OneSender) →
      ∀ group ∈ messages.foldl pushMessage groups, group.OneSender := by
    induction messages with
    | nil => exact fun _ h => h
    | cons m rest ih => exact fun groups h => ih _ (pushMessage_oneSender m h)
  exact hall [] (by simp)

theorem returns_formatDigestGroup {group : DigestGroup} (h : group.OneSender) :
    Returns (formatDigestGroup lower group) ↔
      ∀ m ∈ group.sorted.take fyiGroupMessageCap, CutsBetween lower m.rawSummary m.senderName := by
  unfold formatDigestGroup
  split
  next hsingle =>
    have hsorted : group.sorted = [group.first] := by
      unfold DigestGroup.sorted DigestGroup.messages
      rw [hsingle]
      exact List.mergeSort_singleton _
    rw [hsorted]
    exact returns_formatDigestMessageWithCap.trans (by simp [fyiGroupMessageCap])
  next =>
    rw [returns_bind_ok, returns_mapM]
    refine forall₂_congr (fun m hm => ?_)
    have hmem := DigestGroup.mem_sorted.1 (List.mem_of_mem_take hm)
    rw [returns_digestTeaser, h.oldest, h m hmem]

theorem returns_renderFyiInline (messages : List OntMessage) :
    Returns (renderFyiInline lower messages) ↔
      ∀ m ∈ ((digestGroups messages).take fyiCap).flatMap
        (fun group => group.sorted.take fyiGroupMessageCap),
        CutsBetween lower m.rawSummary m.senderName := by
  unfold renderFyiInline
  split
  next hnil =>
    subst hnil
    simp [returns_ok, digestGroups]
  next =>
    rw [returns_bind_ok, returns_mapM, List.forall_mem_flatMap]
    refine forall₂_congr (fun group hgroup => ?_)
    exact returns_formatDigestGroup
      (digestGroups_oneSender messages group (List.mem_of_mem_take hgroup))

/-- The digest is told where every message that it shows is cut between two characters. -/
theorem returns_messageBlocks (nowMsgs laterMsgs : List OntMessage) :
    Returns (messageBlocks lower nowMsgs laterMsgs) ↔
      ∀ m ∈ shownMessages nowMsgs laterMsgs, CutsBetween lower m.rawSummary m.senderName := by
  unfold messageBlocks shownMessages
  rw [returns_bind_bind, returns_renderHighSignalSection, returns_renderFyiInline,
    List.forall_mem_append]

end Told

end Lines

/-! ## Safe lines -/

/-- A summary is cut safely exactly where a separator follows the name and its bytes end between
two characters, and the digest is told exactly where this is so of the bytes. -/
theorem digestLines_safe_iff (lower : List Char → List Char) :
    (∀ summary sender,
      StripsSafely lower summary sender ↔ NameSeparated lower summary sender) ∧
    ∀ nowMsgs laterMsgs, Returns (messageBlocks lower nowMsgs laterMsgs) ↔
      ∀ m ∈ shownMessages nowMsgs laterMsgs, CutsBetween lower m.rawSummary m.senderName :=
  ⟨fun _ _ => stripsSafely_iff, returns_messageBlocks⟩

/-- Lower case of ASCII and of the Kelvin sign. -/
def sampleLower (text : List Char) : List Char :=
  text.map (fun c => if c = Char.ofNat 0x212A then 'k' else c.toLower)

/-- A name that is part of a longer word is cut off, and a summary with a Kelvin sign aborts. -/
theorem stripSenderPrefix_unsafe :
    stripSenderPrefix sampleLower "Momentum stocks fell".toList "Mom".toList =
      .ok "entum stocks fell".toList ∧
    ¬ StripsSafely sampleLower "Momentum stocks fell".toList "Mom".toList ∧
    stripSenderPrefix sampleLower ("Mom is ".toList ++ [Char.ofNat 0x212A]) "Mom".toList =
      .error .slice ∧
    ¬ StripsSafely sampleLower ("Mom is ".toList ++ [Char.ofNat 0x212A]) "Mom".toList := by
  have hmomentum : stripSenderPrefix sampleLower "Momentum stocks fell".toList "Mom".toList =
      .ok "entum stocks fell".toList := by decide +kernel
  have hkelvin : stripSenderPrefix sampleLower ("Mom is ".toList ++ [Char.ofNat 0x212A])
      "Mom".toList = .error .slice := by decide +kernel
  refine ⟨hmomentum, ?_, hkelvin, ?_⟩
  · rintro ⟨stripped, hstrip, -, hwhole | ⟨front, rest, hsplit, hlower, hseparator⟩⟩
    · rw [hmomentum] at hstrip
      cases hstrip
      revert hwhole
      decide +kernel
    · have hlength : front.length = 3 := by
        have hsame := congrArg List.length hlower
        rw [sampleLower, List.length_map] at hsame
        rw [hsame]
        decide +kernel
      have hrest : rest = "entum stocks fell".toList := by
        have hdrop : (trimText "Momentum stocks fell".toList).drop 3 =
            "entum stocks fell".toList := by decide +kernel
        rw [hsplit, ← hlength, List.drop_left] at hdrop
        exact hdrop
      subst hrest
      obtain hpossessive | ⟨c, hc, hc'⟩ := hseparator
      · revert hpossessive
        decide +kernel
      · cases hc
        revert hc'
        decide +kernel
  · rintro ⟨stripped, hstrip, -⟩
    rw [hkelvin] at hstrip
    cases hstrip

end Lightfriend.Proactive.DigestLines
