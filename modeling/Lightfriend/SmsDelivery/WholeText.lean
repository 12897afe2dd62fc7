import Lightfriend.SmsDelivery.FilterSafe
import Lightfriend.SmsDelivery.TelnyxFallback
import Lightfriend.Core.Trim

/-! # Webhook texts are delivered whole

A webhook message is accepted up to a length that leaves room for its label and
for the prefix of a backup provider. The link filter runs after that check, and
a placeholder can be longer than the link it stands for.
-/

namespace Lightfriend.SmsDelivery

open Text

/-! ## The message -/

def maxBodyLen : Nat := 1500

def maxLabelLen : Nat := 64

/-- `req.message.trim()`, where the endpoint accepts it. -/
def acceptBody (message : List Char) : Option (List Char) :=
  if trimText message = [] then none
  else if maxBodyLen < (trimText message).length then none
  else some (trimText message)

/-- `req.label.trim()`, where a token can be made with it. -/
def acceptLabel (label : List Char) : Option (List Char) :=
  if trimText label = [] ∨ maxLabelLen < (trimText label).length then none
  else some (trimText label)

def sanitizeLabel (label : List Char) : List Char :=
  match trimText (label.filter (fun c => !isControl c && c ≠ '[' && c ≠ ']')) with
  | [] => "webhook".toList
  | cleaned => cleaned

/-- `format!("[{}] {}", safe_label, body)`. -/
def outbound (label body : List Char) : List Char :=
  '[' :: sanitizeLabel label ++ [']', ' '] ++ body

/-! ## The attempts -/

def smsBodyCharacterLimit : Nat := 1600

def smsTruncationNotice : List Char := "\n\n[truncated]".toList

def clampSmsBody (body : List Char) : List Char :=
  if body.length ≤ smsBodyCharacterLimit then body
  else body.take (smsBodyCharacterLimit - smsTruncationNotice.length) ++ smsTruncationNotice

/-- The providers of a user in order, and what they answer to a text. -/
structure ChannelRouter where
  development : Bool
  order : List String
  registered : String → Bool
  accepts : String → List Char → Bool

/-- What a provider is handed, and the text that it should be. -/
structure Attempt where
  channel : String
  body : List Char
  handed : List Char

def attemptBody (body : List Char) (idx : Nat) : List Char :=
  if idx = 0 then body else fallbackPrefix.toList ++ body

/-- The provider's own limit on what it sends. -/
def handedBody (body : List Char) (idx : Nat) : List Char := clampSmsBody (attemptBody body idx)

namespace ChannelRouter

variable (router : ChannelRouter)

/-- Provider after provider, until one accepts the text. -/
def attempts (body : List Char) : Nat → List String → List Attempt
  | _, [] => []
  | idx, channel :: rest =>
      if router.registered channel then
        if router.accepts channel (handedBody body idx) then
          [⟨channel, attemptBody body idx, handedBody body idx⟩]
        else
          ⟨channel, attemptBody body idx, handedBody body idx⟩ :: attempts body (idx + 1) rest
      else attempts body (idx + 1) rest

/-- `send_to_user` without media. -/
def sendToUser (words : WordChars) (text : List Char) : List Attempt :=
  if trimText (applySmsUrlFilter words text) = [] ∨ router.development = true then []
  else router.attempts (applySmsUrlFilter words text) 0 router.order

end ChannelRouter

/-- Whatever the providers answer, each of them is handed the text whole. -/
def DeliveredWhole (words : WordChars) (text : List Char) : Prop :=
  ∀ router : ChannelRouter, ∀ attempt ∈ router.sendToUser words text,
    attempt.handed = attempt.body ∧ attempt.body.length ≤ smsBodyCharacterLimit

/-- The characters of the links of a text, and of what they become. -/
def linkChars (links : List (List Char)) : Nat := (links.map List.length).sum

def replacedChars (links : List (List Char)) : Nat :=
  (links.map (fun link => (replaceLink link).length)).sum

/-- With its links counted as what they become, the text leaves room for the prefix. -/
def LeavesRoom (words : WordChars) (text : List Char) : Prop :=
  (unfangText words text).length + replacedChars (urlPattern.matchesIn (unfangText words text)) +
      fallbackPrefix.toList.length ≤
    smsBodyCharacterLimit + linkChars (urlPattern.matchesIn (unfangText words text))

/-! ## Lengths -/

section Lengths

variable {words : WordChars} {text : List Char}

theorem length_applyUrlFilterOnly (text : List Char) :
    (applyUrlFilterOnly text).length + linkChars (urlPattern.matchesIn text) =
      text.length + replacedChars (urlPattern.matchesIn text) := by
  unfold applyUrlFilterOnly linkChars replacedChars
  induction text using urlPattern.scan_induction with
  | nil => simp [Pattern.matchesIn_nil]
  | plain c rest hfind ih =>
      rw [Pattern.replaceAll_plain _ _ hfind, urlPattern.matchesIn_plain hfind]
      simp only [List.length_cons]
      omega
  | found text hfind ih =>
      obtain ⟨m, rest, rfl, -, -, -, htake, hdrop⟩ := found_spec hfind
      have hfound : urlPattern.find (m ++ rest) = findUrl (m ++ rest) := rfl
      rw [hfound, hdrop] at ih
      rw [Pattern.replaceAll_found _ _ hfind, urlPattern.matchesIn_found hfind, hfound, htake,
        hdrop]
      simp only [List.length_append, List.map_cons, List.sum_cons]
      omega

theorem leavesRoom_iff : LeavesRoom words text ↔
    (applySmsUrlFilter words text).length + fallbackPrefix.toList.length ≤
      smsBodyCharacterLimit := by
  have hlength := length_applyUrlFilterOnly (unfangText words text)
  unfold LeavesRoom applySmsUrlFilter
  omega

theorem Fang.length_untilStable_le (fang : Fang) (text : List Char) :
    (fang.untilStable words text).length ≤ text.length := by
  induction text using Fang.untilStable.induct words fang with
  | case1 text hsame =>
      rw [Fang.untilStable, if_pos hsame]
  | case2 text hne ih =>
      rw [Fang.untilStable, if_neg hne]
      have hless := (@Fang.pass_shrinks words fang text).resolve_left hne
      omega

theorem length_unfangText_le (text : List Char) : (unfangText words text).length ≤ text.length :=
  ((atFang.length_untilStable_le _).trans (wordDotFang.length_untilStable_le _)).trans
    (dotFang.length_untilStable_le _)

theorem clampSmsBody_eq_iff (body : List Char) :
    clampSmsBody body = body ∧ body.length ≤ smsBodyCharacterLimit ↔
      body.length ≤ smsBodyCharacterLimit := by
  refine ⟨fun h => h.2, fun h => ⟨?_, h⟩⟩
  unfold clampSmsBody
  rw [if_pos h]

end Lengths

/-! ## The bracket of the label -/

section Head

variable {words : WordChars}

theorem Fang.pass_bracket (fang : Fang) (rest : List Char) :
    fang.pass words ('[' :: rest) = '[' :: fang.pass words rest := by
  have hword : words.isWord '[' = false := words.punctuation _ (by decide)
  have hfind : (fang.pattern words).find ('[' :: rest) = 0 := by
    change fang.find words ('[' :: rest) = 0
    cases rest with
    | nil => rfl
    | cons c rest => simp [Fang.find, hword]
  exact Pattern.replaceAll_plain _ _ hfind

theorem Fang.untilStable_bracket (fang : Fang) (rest : List Char) :
    ∃ rest', fang.untilStable words ('[' :: rest) = '[' :: rest' := by
  have hall : ∀ text rest, text = '[' :: rest →
      ∃ rest', fang.untilStable words text = '[' :: rest' := by
    intro text
    induction text using Fang.untilStable.induct words fang with
    | case1 text hsame =>
        rintro rest rfl
        exact ⟨rest, by rw [Fang.untilStable, if_pos hsame]⟩
    | case2 text hne ih =>
        rintro rest rfl
        rw [Fang.untilStable, if_neg hne]
        exact ih _ (fang.pass_bracket rest)
  exact hall _ rest rfl

/-- The text keeps the bracket of its label, so it is never empty. -/
theorem trimText_applySmsUrlFilter (rest : List Char) :
    trimText (applySmsUrlFilter words ('[' :: rest)) ≠ [] := by
  obtain ⟨first, hfirst⟩ := @Fang.untilStable_bracket words dotFang rest
  obtain ⟨second, hsecond⟩ := @Fang.untilStable_bracket words wordDotFang first
  obtain ⟨third, hthird⟩ := @Fang.untilStable_bracket words atFang second
  have hfind : urlPattern.find ('[' :: third) = 0 := by
    by_contra hpos
    have hstart : findUrl ('[' :: third) ≠ 0 := hpos
    obtain ⟨scheme, c, tail, hkind, htext, -⟩ := findUrl_iff.mp (Nat.pos_of_ne_zero hstart)
    obtain ⟨⟨after, hhead⟩, -⟩ := scheme_facts hkind
    rw [hhead] at htext
    have hsame : '[' = 'h' := (List.cons.inj htext).1
    exact absurd hsame (by decide)
  have hblank : isWhitespace '[' = false := by decide
  rw [applySmsUrlFilter, unfangText, hfirst, hsecond, hthird, applyUrlFilterOnly,
    Pattern.replaceAll_plain _ _ hfind, trimText, trimStart, List.dropWhile_cons, hblank]
  simp only [Bool.false_eq_true, if_false]
  rw [trimEndMatches_cons, if_neg (by simp [hblank])]
  exact List.cons_ne_nil _ _

end Head

/-! ## Whole texts -/

section Whole

variable {words : WordChars}

/-- What a provider is handed is the text or the text with the prefix. -/
theorem ChannelRouter.mem_attempts (router : ChannelRouter) {body : List Char} {order : List String}
    {idx : Nat} {attempt : Attempt} (h : attempt ∈ router.attempts body idx order) :
    ∃ idx', attempt.body = attemptBody body idx' ∧ attempt.handed = clampSmsBody attempt.body := by
  induction order generalizing idx with
  | nil => cases h
  | cons channel rest ih =>
      rw [attempts] at h
      split at h
      · split at h
        · obtain rfl := List.mem_singleton.mp h
          exact ⟨idx, rfl, rfl⟩
        · obtain rfl | h := List.mem_cons.mp h
          · exact ⟨idx, rfl, rfl⟩
          · exact ih h
      · exact ih h

theorem length_attemptBody_le (body : List Char) (idx : Nat) :
    (attemptBody body idx).length ≤ body.length + fallbackPrefix.toList.length := by
  unfold attemptBody
  split
  · omega
  · rw [List.length_append]
    omega

/-- Two providers, of which the first refuses. -/
def busyRouter : ChannelRouter where
  development := false
  order := ["twilio", "telnyx"]
  registered _ := true
  accepts _ _ := false

theorem deliveredWhole_iff (rest : List Char) :
    DeliveredWhole words ('[' :: rest) ↔ LeavesRoom words ('[' :: rest) := by
  rw [leavesRoom_iff]
  constructor
  · intro hwhole
    have hsent : busyRouter.sendToUser words ('[' :: rest) =
        busyRouter.attempts (applySmsUrlFilter words ('[' :: rest)) 0 busyRouter.order := by
      rw [ChannelRouter.sendToUser, if_neg]
      rintro (hempty | hdevelopment)
      · exact trimText_applySmsUrlFilter rest hempty
      · cases hdevelopment
    have hbackup := hwhole busyRouter ⟨"telnyx",
      attemptBody (applySmsUrlFilter words ('[' :: rest)) 1,
      clampSmsBody (attemptBody (applySmsUrlFilter words ('[' :: rest)) 1)⟩
      (by rw [hsent]; exact List.mem_cons_of_mem _ List.mem_cons_self)
    have hlength := hbackup.2
    simp only [attemptBody, Nat.one_ne_zero, if_false, List.length_append] at hlength
    omega
  · intro hroom router attempt hattempt
    rw [ChannelRouter.sendToUser] at hattempt
    split at hattempt
    · cases hattempt
    · obtain ⟨idx, hbody, hhanded⟩ := router.mem_attempts hattempt
      have hle := length_attemptBody_le (applySmsUrlFilter words ('[' :: rest)) idx
      rw [hhanded]
      refine (clampSmsBody_eq_iff _).mpr ?_
      rw [hbody]
      omega

theorem length_sanitizeLabel_le {stored : List Char} (h : stored.length ≤ maxLabelLen) :
    (sanitizeLabel stored).length ≤ maxLabelLen := by
  have hcleaned := (length_trimText_le
    (stored.filter (fun c => !isControl c && c ≠ '[' && c ≠ ']'))).trans
      (List.length_filter_le _ _)
  unfold sanitizeLabel
  split
  · decide
  · exact hcleaned.trans h

theorem length_of_acceptBody {message body : List Char} (h : acceptBody message = some body) :
    body.length ≤ maxBodyLen := by
  unfold acceptBody at h
  split at h
  · cases h
  · split at h
    · cases h
    next hle =>
      cases h
      omega

theorem length_of_acceptLabel {label stored : List Char} (h : acceptLabel label = some stored) :
    stored.length ≤ maxLabelLen := by
  unfold acceptLabel at h
  split at h
  · cases h
  next hnot =>
    cases h
    omega

/-- Where no link becomes longer, the accepted lengths leave room. -/
theorem leavesRoom_of_shorter {message body label stored : List Char}
    (hbody : acceptBody message = some body) (hlabel : acceptLabel label = some stored)
    (hlinks : ∀ link ∈ urlPattern.matchesIn (unfangText words (outbound stored body)),
      (replaceLink link).length ≤ link.length) : LeavesRoom words (outbound stored body) := by
  have hreplaced : replacedChars (urlPattern.matchesIn (unfangText words (outbound stored body))) ≤
      linkChars (urlPattern.matchesIn (unfangText words (outbound stored body))) :=
    List.sum_le_sum hlinks
  have hunfang := @length_unfangText_le words (outbound stored body)
  have hsafe := length_sanitizeLabel_le (length_of_acceptLabel hlabel)
  have hfits := length_of_acceptBody hbody
  have hstarts : fallbackPrefix.toList.length = 21 := by decide
  have houtbound : (outbound stored body).length =
      (sanitizeLabel stored).length + 3 + body.length := by
    simp [outbound]
    omega
  unfold LeavesRoom
  unfold maxLabelLen at hsafe
  unfold maxBodyLen at hfits
  unfold smsBodyCharacterLimit
  omega

/-- An accepted message is handed whole to every provider exactly where its links, as what they
become, leave room for the prefix; they do when none of them becomes longer. -/
theorem webhookSms_whole_iff {message body label stored : List Char}
    (hbody : acceptBody message = some body) (hlabel : acceptLabel label = some stored) :
    (DeliveredWhole words (outbound stored body) ↔ LeavesRoom words (outbound stored body)) ∧
    ((∀ link ∈ urlPattern.matchesIn (unfangText words (outbound stored body)),
      (replaceLink link).length ≤ link.length) → DeliveredWhole words (outbound stored body)) := by
  have hiff : DeliveredWhole words (outbound stored body) ↔
      LeavesRoom words (outbound stored body) := deliveredWhole_iff _
  exact ⟨hiff, fun hlinks => hiff.mpr (leavesRoom_of_shorter hbody hlabel hlinks)⟩

end Whole

/-- A message without links. -/
theorem webhookSms_plain :
    (DeliveredWhole asciiWords (outbound "gate".toList "The gate is open.".toList) ↔
      LeavesRoom asciiWords (outbound "gate".toList "The gate is open.".toList)) ∧
    DeliveredWhole asciiWords (outbound "gate".toList "The gate is open.".toList) := by
  have haccept : acceptBody "The gate is open. ".toList = some "The gate is open.".toList ∧
      acceptLabel "gate".toList = some "gate".toList := by decide +kernel
  have hwhole := @webhookSms_whole_iff asciiWords _ _ _ _ haccept.1 haccept.2
  have hunfang : unfangText asciiWords (outbound "gate".toList "The gate is open.".toList) =
      outbound "gate".toList "The gate is open.".toList :=
    unfangText_of_pass (by decide +kernel)
  refine ⟨hwhole.1, hwhole.2 ?_⟩
  rw [hunfang]
  decide +kernel

/-- Sixteen short links and a line of dashes. -/
def manyLinks : List Char :=
  (List.replicate 16 "http://a ".toList).flatten ++ List.replicate 1356 '-'

def longLabel : List Char := List.replicate 64 'n'

/-- The placeholders are longer than the links, and the backup text is cut. -/
theorem webhookSms_tooLong : acceptBody manyLinks = some manyLinks ∧
    acceptLabel longLabel = some longLabel ∧
    ¬ DeliveredWhole asciiWords (outbound longLabel manyLinks) := by
  have haccept : acceptBody manyLinks = some manyLinks ∧
      acceptLabel longLabel = some longLabel := by decide +kernel
  have hunfang : unfangText asciiWords (outbound longLabel manyLinks) =
      outbound longLabel manyLinks := unfangText_of_pass (by decide +kernel)
  refine ⟨haccept.1, haccept.2, fun hwhole => ?_⟩
  have hroom : LeavesRoom asciiWords (outbound longLabel manyLinks) :=
    (deliveredWhole_iff _).mp hwhole
  revert hroom
  rw [LeavesRoom, hunfang]
  decide +kernel

end Lightfriend.SmsDelivery
