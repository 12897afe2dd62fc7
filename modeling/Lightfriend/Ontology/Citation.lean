import Lightfriend.Core.Text

/-! # Citations

A response cites the items of the user by tags `[id=N]`. The verifier drops the
lines that cite an id no tool returned; the user gets the lines without their
tags, and the conversation history keeps them.
-/

namespace Lightfriend.Citation

open Text

/-! ## Tags -/

/-- `\d` of the regex library: the decimal digits of all scripts. -/
structure DigitClass where
  isDigit : Char → Bool
  opening : isDigit '[' = false
  closing : isDigit ']' = false
  blank : ∀ c, isWhitespace c = true → isDigit c = false

def tag (digits : List Char) : List Char := ['[', 'i', 'd', '='] ++ digits ++ [']']

/-- The digits of a tag at the start of the text. -/
def matchTag (d : DigitClass) : List Char → Option (List Char)
  | '[' :: 'i' :: 'd' :: '=' :: rest =>
      let digits := rest.takeWhile d.isDigit
      if digits.isEmpty then none
      else if (rest.dropWhile d.isDigit).head? = some ']' then some digits
      else none
  | _ => none

/-- The matches behind the characters that are still to be skipped. -/
def capturesFrom (d : DigitClass) : Nat → List Char → List (List Char)
  | _, [] => []
  | skip + 1, _ :: rest => capturesFrom d skip rest
  | 0, c :: rest =>
      match matchTag d (c :: rest) with
      | some digits => digits :: capturesFrom d (digits.length + 4) rest
      | none => capturesFrom d 0 rest

/-- `captures_iter`: the digits of every match. -/
def captures (d : DigitClass) (text : List Char) : List (List Char) := capturesFrom d 0 text

def removeTagsFrom (d : DigitClass) : Nat → List Char → List Char
  | _, [] => []
  | skip + 1, _ :: rest => removeTagsFrom d skip rest
  | 0, c :: rest =>
      match matchTag d (c :: rest) with
      | some digits => removeTagsFrom d (digits.length + 4) rest
      | none => c :: removeTagsFrom d 0 rest

/-- `replace_all(line, "")`. -/
def removeTags (d : DigitClass) (text : List Char) : List Char := removeTagsFrom d 0 text

/-- `parse::<i64>` of digits: those of ASCII, as far as they fit. -/
def parseI64 (digits : List Char) : Option Int :=
  if digits.isEmpty || digits.any (fun c => !('0' ≤ c && c ≤ '9')) then none
  else
    let n := digits.foldl (fun (acc : Nat) c => acc * 10 + (c.toNat - 48)) 0
    if n ≤ 9223372036854775807 then some (n : Int) else none

inductive MessageRole
  | user
  | system
  | assistant
  | function
  | tool
deriving DecidableEq

/-- The role of a message and its text, where it is one. -/
structure ChatMessage where
  role : MessageRole
  text : Option (List Char)

/-- The ids in the texts of the tools. -/
def collectToolResultIds (d : DigitClass) (messages : List ChatMessage) : List Int :=
  messages.flatMap fun message =>
    if message.role ≠ .tool then []
    else (message.text.map (fun text => (captures d text).filterMap parseI64)).getD []

/-! ## The verifier -/

def strippedFooter : List Char := "(Stripped unverified items — ask to retry)".toList

structure VerifiedResponse where
  userFacing : List Char
  history : List Char
  droppedLine : Bool
  missingCitations : Bool
deriving DecidableEq

def idsOnLine (d : DigitClass) (line : List Char) : List Int :=
  (captures d line).filterMap parseI64

/-- No id on the line is outside the set. -/
def allOk (d : DigitClass) (validIds : Finset Int) (line : List Char) : Bool :=
  (idsOnLine d line).all (fun id => decide (id ∈ validIds))

def isDangling (c : Char) : Bool := isWhitespace c || c = '-' || c = '—' || c = '–' || c = ':'

/-- The user's version of a line that is kept. -/
def userLine (d : DigitClass) (line : List Char) : List Char :=
  if (idsOnLine d line).isEmpty then line
  else trimEndMatches isDangling (joinWith ' ' (splitWhitespace (removeTags d line)))

def collapse (lines : List (List Char)) : List Char :=
  let s := joinWith '\n' lines
  trimEndMatches isWhitespace (squeeze s.length s)

def keptLines (d : DigitClass) (validIds : Finset Int) (response : List Char) :
    List (List Char) :=
  (lines response).filter (allOk d validIds)

def verify (d : DigitClass) (response : List Char) (validIds : Finset Int) : VerifiedResponse :=
  let kept := keptLines d validIds response
  let droppedLine := (lines response).any (fun line => !allOk d validIds line)
  let userFacing := collapse (kept.map (userLine d))
  { userFacing :=
      if droppedLine then
        (if userFacing.isEmpty then [] else userFacing ++ ['\n', '\n']) ++ strippedFooter
      else userFacing
    history := collapse kept
    droppedLine
    missingCitations := decide (2 ≤ validIds.card) &&
      !(lines response).any (fun line => !(idsOnLine d line).isEmpty) }

/-! ## What is promised -/

section Promise

variable (d : DigitClass) (validIds : Finset Int)

/-- The text contains a tag with these digits. -/
def Cites (digits text : List Char) : Prop :=
  (digits ≠ [] ∧ ∀ c ∈ digits, d.isDigit c = true) ∧ tag digits <:+: text

/-- Every citation of the line is a valid id. -/
def citesValid (line : List Char) : Bool :=
  (captures d line).all (fun digits => (parseI64 digits).any (fun id => decide (id ∈ validIds)))

/-- No fabricated citation reaches the user or the history. -/
structure NoFabrication (response : List Char) : Prop where
  history : ∀ digits, Cites d digits (verify d response validIds).history →
    ∃ id ∈ validIds, parseI64 digits = some id
  userFacing : ∀ digits, ¬ Cites d digits (verify d response validIds).userFacing
  exact : (verify d response validIds).history =
    collapse ((lines response).filter (citesValid d validIds))
  stable : (verify d (verify d response validIds).history validIds).history =
    (verify d response validIds).history

/-- A line with a citation that is no number cites an id outside the set as well; no line that is
kept has a tag when its tags are taken out; and no kept line ends in a carriage return where a kept
line follows that is not blank. -/
structure CitesPlainly (response : List Char) : Prop where
  parsed : ∀ line ∈ lines response, (∃ digits ∈ captures d line, parseI64 digits = none) →
    ∃ id ∈ idsOnLine d line, id ∉ validIds
  unjoined : ∀ line ∈ keptLines d validIds response, idsOnLine d line ≠ [] →
    captures d (removeTags d line) = []
  uncarried : (keptLines d validIds response).Pairwise (fun earlier later =>
    earlier.getLast? = some '\r' → later.all isWhitespace)

end Promise

/-! ## Matches are citations -/

section Matches

variable {d : DigitClass} {digits text : List Char}

theorem takeWhile_append_closing (hdigits : ∀ c ∈ digits, d.isDigit c = true) (rest : List Char) :
    (digits ++ ']' :: rest).takeWhile d.isDigit = digits := by
  rw [List.takeWhile_append_of_pos hdigits, List.takeWhile_cons_of_neg (by simp [d.closing]),
    List.append_nil]

theorem matchTag_eq_some :
    matchTag d text = some digits ↔
      (digits ≠ [] ∧ ∀ c ∈ digits, d.isDigit c = true) ∧ tag digits <+: text := by
  constructor
  · intro h
    unfold matchTag at h
    split at h
    next rest =>
      simp only at h
      split at h
      · cases h
      next hnonempty =>
        rw [Option.ite_none_right_eq_some] at h
        obtain ⟨hclosing, h⟩ := h
        cases h
        obtain ⟨after, hafter⟩ := List.head?_eq_some_iff.mp hclosing
        refine ⟨⟨by simpa using hnonempty, fun c hc => List.mem_takeWhile_imp hc⟩, after, ?_⟩
        have hsplit : rest.takeWhile d.isDigit ++ rest.dropWhile d.isDigit = rest :=
          List.takeWhile_append_dropWhile
        rw [hafter] at hsplit
        simp only [tag, List.cons_append, List.nil_append, List.append_assoc]
        rw [hsplit]
    next => cases h
  · rintro ⟨⟨hne, hdigits⟩, rest, rfl⟩
    have htake := takeWhile_append_closing hdigits rest
    have hdrop : (digits ++ ']' :: rest).dropWhile d.isDigit = ']' :: rest := by
      rw [List.dropWhile_append_of_pos hdigits, List.dropWhile_cons_of_neg (by simp [d.closing])]
    have hempty : digits.isEmpty = false := List.isEmpty_eq_false_iff.mpr hne
    simp [tag, matchTag, htake, hdrop, hempty]

theorem capturesFrom_drop (skip : Nat) (text : List Char) :
    capturesFrom d skip text = captures d (text.drop skip) := by
  induction skip generalizing text with
  | zero => rfl
  | succ skip ih =>
      cases text with
      | nil => rfl
      | cons c rest => exact ih rest

theorem captures_none {c : Char} {rest : List Char} (h : matchTag d (c :: rest) = none) :
    captures d (c :: rest) = captures d rest := by
  rw [captures, capturesFrom, h]
  rfl

theorem tag_ne_nil : tag digits ≠ [] := by simp [tag]

theorem captures_tag (hdigits : digits ≠ [] ∧ ∀ c ∈ digits, d.isDigit c = true)
    (rest : List Char) : captures d (tag digits ++ rest) = digits :: captures d rest := by
  have hmatch : matchTag d (tag digits ++ rest) = some digits :=
    matchTag_eq_some.2 ⟨hdigits, rest, rfl⟩
  have hcons : tag digits ++ rest = '[' :: (['i', 'd', '='] ++ digits ++ [']'] ++ rest) := by
    simp [tag]
  rw [hcons] at hmatch ⊢
  rw [captures, capturesFrom, hmatch]
  simp only
  rw [capturesFrom_drop, List.drop_left' (by simp)]

/-- A tag reaches over no other: it has one opening bracket, at its start. -/
theorem cites_tag_append {other : List Char}
    (hdigits : digits ≠ [] ∧ ∀ c ∈ digits, d.isDigit c = true) (rest : List Char) :
    Cites d other (tag digits ++ rest) ↔ other = digits ∨ Cites d other rest := by
  constructor
  · rintro ⟨hother, hinfix⟩
    have hcons : tag digits ++ rest = '[' :: ((['i', 'd', '='] ++ digits ++ [']']) ++ rest) := by
      simp [tag]
    have hskip : ∀ front : List Char, '[' ∉ front → tag other <:+: front ++ rest →
        tag other <:+: rest := by
      intro front
      induction front with
      | nil => exact fun _ h => h
      | cons c front ih =>
          intro hfront h
          rw [List.cons_append, List.infix_cons_iff] at h
          rcases h with h | h
          · obtain ⟨rfl, _⟩ := List.cons_prefix_cons.mp h
            exact absurd List.mem_cons_self hfront
          · exact ih (fun h => hfront (List.mem_cons_of_mem _ h)) h
    rw [hcons, List.infix_cons_iff, ← hcons] at hinfix
    rcases hinfix with hprefix | hinfix
    · have hsome := matchTag_eq_some.2 ⟨hother, hprefix⟩
      rw [matchTag_eq_some.2 ⟨hdigits, rest, rfl⟩] at hsome
      exact Or.inl (Option.some.inj hsome).symm
    · refine Or.inr ⟨hother, hskip _ ?_ hinfix⟩
      have hnot : '[' ∉ digits := by
        intro h
        exact absurd (hdigits.2 _ h) (by rw [d.opening]; exact Bool.false_ne_true)
      simp [hnot]
  · rintro (rfl | ⟨hother, hinfix⟩)
    · exact ⟨hdigits, List.infix_append_left⟩
    · exact ⟨hother, List.infix_append_of_infix_right hinfix⟩

theorem cites_cons_of_none {c : Char} {rest : List Char} (h : matchTag d (c :: rest) = none) :
    Cites d digits (c :: rest) ↔ Cites d digits rest := by
  unfold Cites
  rw [List.infix_cons_iff]
  constructor
  · rintro ⟨hdigits, hprefix | hinfix⟩
    · rw [matchTag_eq_some.2 ⟨hdigits, hprefix⟩] at h
      cases h
    · exact ⟨hdigits, hinfix⟩
  · rintro ⟨hdigits, hinfix⟩
    exact ⟨hdigits, Or.inr hinfix⟩

theorem mem_captures : digits ∈ captures d text ↔ Cites d digits text := by
  induction hlength : text.length using Nat.strong_induction_on generalizing text with
  | _ n ih =>
      cases text with
      | nil => simp [captures, capturesFrom, Cites, tag_ne_nil]
      | cons c rest =>
          cases hmatch : matchTag d (c :: rest) with
          | none =>
              rw [captures_none hmatch, cites_cons_of_none hmatch]
              exact ih rest.length (by rw [← hlength]; simp) rfl
          | some found =>
              obtain ⟨hfound, after, hafter⟩ := matchTag_eq_some.1 hmatch
              rw [← hafter, captures_tag hfound, cites_tag_append hfound, List.mem_cons]
              refine or_congr Iff.rfl (ih after.length ?_ rfl)
              rw [← hlength, ← hafter, List.length_append]
              simp [tag]

theorem captures_eq_nil_iff : captures d text = [] ↔ ∀ digits, ¬ Cites d digits text := by
  rw [List.eq_nil_iff_forall_not_mem]
  exact forall_congr' (fun _ => not_congr mem_captures)

end Matches

/-! ## Citations in the two outputs -/

section Outputs

variable {d : DigitClass} {validIds : Finset Int} {digits : List Char}

theorem tag_not_blank (hdigits : ∀ c ∈ digits, d.isDigit c = true) :
    ∀ c ∈ tag digits, isWhitespace c = false := by
  intro c hc
  simp only [tag, List.mem_append, List.mem_cons, List.not_mem_nil, or_false] at hc
  rcases hc with ((rfl | rfl | rfl | rfl) | hc) | rfl
  · decide
  · decide
  · decide
  · decide
  · by_contra hblank
    rw [Bool.not_eq_false] at hblank
    have hnot := d.blank c hblank
    rw [hdigits c hc] at hnot
    cases hnot
  · decide

theorem blank_not_mem_tag {c : Char} (hblank : isWhitespace c = true)
    (hdigits : ∀ c ∈ digits, d.isDigit c = true) : c ∉ tag digits := by
  intro h
  rw [tag_not_blank hdigits c h] at hblank
  cases hblank

/-- Trimming, joining and collapsing neither make nor break a tag. -/
theorem cites_collapse {ls : List (List Char)} :
    Cites d digits (collapse ls) ↔ ∃ line ∈ ls, Cites d digits line := by
  have hall : (∀ c ∈ digits, d.isDigit c = true) →
      (tag digits <:+: collapse ls ↔ ∃ line ∈ ls, tag digits <:+: line) := by
    intro hdigits
    have hfeed := blank_not_mem_tag (c := '\n') (by decide) hdigits
    unfold collapse
    rw [tag, infix_trimEndMatches (by decide), ← tag, infix_squeeze tag_ne_nil hfeed,
      infix_joinWith tag_ne_nil hfeed]
  unfold Cites
  constructor
  · rintro ⟨hdigits, h⟩
    obtain ⟨line, hline, h⟩ := (hall hdigits.2).mp h
    exact ⟨line, hline, hdigits, h⟩
  · rintro ⟨line, hline, hdigits, h⟩
    exact ⟨hdigits, (hall hdigits.2).mpr ⟨line, hline, h⟩⟩

theorem cites_userLine {line : List Char} :
    Cites d digits (userLine d line) ↔
      Cites d digits (if (idsOnLine d line).isEmpty then line else removeTags d line) := by
  unfold userLine
  split
  · rfl
  · refine and_congr_right (fun hdigits => ?_)
    rw [tag, infix_trimEndMatches (by decide), ← tag,
      infix_joinWith tag_ne_nil (blank_not_mem_tag (by decide) hdigits.2),
      infix_splitWhitespace tag_ne_nil (tag_not_blank hdigits.2)]

theorem cites_userFacing {response : List Char} :
    Cites d digits (verify d response validIds).userFacing ↔
      ∃ line ∈ keptLines d validIds response, Cites d digits (userLine d line) := by
  have hlines : Cites d digits (collapse ((keptLines d validIds response).map (userLine d))) ↔
      ∃ line ∈ keptLines d validIds response, Cites d digits (userLine d line) := by
    rw [cites_collapse]
    simp
  rw [← hlines]
  unfold verify
  simp only
  generalize collapse ((keptLines d validIds response).map (userLine d)) = userFacing
  have hfooter : ¬ tag digits <:+: strippedFooter := by
    intro h
    exact absurd (h.subset (show '[' ∈ tag digits by simp [tag])) (by decide)
  split
  · refine and_congr_right (fun hdigits => ?_)
    split
    next hempty => simp [List.isEmpty_iff.mp hempty, hfooter, tag_ne_nil]
    next =>
      have hfeed := blank_not_mem_tag (c := '\n') (by decide) hdigits.2
      rw [List.append_assoc, List.cons_append, infix_append_cons_iff tag_ne_nil hfeed,
        ← List.nil_append (['\n'] ++ strippedFooter), List.cons_append,
        infix_append_cons_iff tag_ne_nil hfeed]
      simp [tag_ne_nil, hfooter]
  · rfl

theorem mem_keptLines {response line : List Char} :
    line ∈ keptLines d validIds response ↔
      line ∈ lines response ∧ ∀ id ∈ idsOnLine d line, id ∈ validIds := by
  simp [keptLines, allOk]

theorem mem_idsOnLine {line : List Char} {id : Int} :
    id ∈ idsOnLine d line ↔ ∃ digits, Cites d digits line ∧ parseI64 digits = some id := by
  simp only [idsOnLine, List.mem_filterMap, mem_captures]

end Outputs

/-! ## What is promised, and when -/

section Exact

variable {d : DigitClass} {validIds : Finset Int} {response : List Char}

/-- All numbers on the kept lines are numbers that parse. -/
theorem history_iff :
    (∀ digits, Cites d digits (verify d response validIds).history →
        ∃ id ∈ validIds, parseI64 digits = some id) ↔
      ∀ line ∈ lines response, (∃ digits ∈ captures d line, parseI64 digits = none) →
        ∃ id ∈ idsOnLine d line, id ∉ validIds := by
  constructor
  · rintro h line hline ⟨digits, hdigits, hnone⟩
    by_contra hall
    push Not at hall
    have hkept : line ∈ keptLines d validIds response := mem_keptLines.2 ⟨hline, hall⟩
    obtain ⟨id, _, hsome⟩ := h digits
      (cites_collapse.2 ⟨line, hkept, mem_captures.1 hdigits⟩)
    rw [hnone] at hsome
    cases hsome
  · intro h digits hcites
    obtain ⟨line, hkept, hcites⟩ := cites_collapse.1 hcites
    obtain ⟨hline, hvalid⟩ := mem_keptLines.1 hkept
    cases hparse : parseI64 digits with
    | none =>
        obtain ⟨id, hid, hout⟩ := h line hline ⟨digits, mem_captures.2 hcites, hparse⟩
        exact absurd (hvalid id hid) hout
    | some id => exact ⟨id, hvalid id (mem_idsOnLine.2 ⟨digits, hcites, hparse⟩), rfl⟩

/-- Then the lines that are kept are the lines with valid citations only. -/
theorem keptLines_eq
    (h : ∀ line ∈ lines response, (∃ digits ∈ captures d line, parseI64 digits = none) →
      ∃ id ∈ idsOnLine d line, id ∉ validIds) :
    keptLines d validIds response = (lines response).filter (citesValid d validIds) := by
  apply List.filter_congr
  intro line hline
  rw [Bool.eq_iff_iff, allOk, citesValid, List.all_eq_true, List.all_eq_true]
  constructor
  · intro hall digits hdigits
    cases hparse : parseI64 digits with
    | none =>
        obtain ⟨id, hid, hout⟩ := h line hline ⟨digits, hdigits, hparse⟩
        exact absurd (by simpa using hall id hid) hout
    | some id =>
        exact hall id (mem_idsOnLine.2 ⟨digits, mem_captures.1 hdigits, hparse⟩)
  · intro hall id hid
    obtain ⟨digits, hcites, hparse⟩ := mem_idsOnLine.1 hid
    have := hall digits (mem_captures.2 hcites)
    rwa [hparse] at this

/-- And the user sees no tag when none is left on a kept line. -/
theorem userFacing_iff
    (h : ∀ line ∈ lines response, (∃ digits ∈ captures d line, parseI64 digits = none) →
      ∃ id ∈ idsOnLine d line, id ∉ validIds) :
    (∀ digits, ¬ Cites d digits (verify d response validIds).userFacing) ↔
      ∀ line ∈ keptLines d validIds response, idsOnLine d line ≠ [] →
        captures d (removeTags d line) = [] := by
  constructor
  · intro hnone line hkept hids
    rw [captures_eq_nil_iff]
    intro digits hcites
    refine hnone digits (cites_userFacing.2 ⟨line, hkept, cites_userLine.2 ?_⟩)
    rwa [if_neg (by simpa using hids)]
  · intro hunjoined digits hcites
    obtain ⟨line, hkept, hcites⟩ := cites_userFacing.1 hcites
    rw [cites_userLine] at hcites
    obtain ⟨hline, hvalid⟩ := mem_keptLines.1 hkept
    split at hcites
    next hempty =>
      -- a line without ids has no number that parses, nor any other
      have hids : idsOnLine d line = [] := List.isEmpty_iff.mp hempty
      cases hparse : parseI64 digits with
      | none =>
          obtain ⟨id, hid, _⟩ := h line hline ⟨digits, mem_captures.2 hcites, hparse⟩
          rw [hids] at hid
          cases hid
      | some id =>
          have hid := mem_idsOnLine.2 ⟨digits, hcites, hparse⟩
          rw [hids] at hid
          cases hid
    next hids =>
      exact captures_eq_nil_iff.1 (hunjoined line hkept (by simpa using hids)) digits hcites

/-- Lines of the history are kept again. -/
theorem keptLines_history :
    keptLines d validIds (verify d response validIds).history =
      lines (verify d response validIds).history := by
  apply List.filter_eq_self.mpr
  intro line hline
  rw [allOk, List.all_eq_true]
  intro id hid
  obtain ⟨digits, hcites, hparse⟩ := mem_idsOnLine.1 hid
  have hhistory : Cites d digits (verify d response validIds).history :=
    ⟨hcites.1, hcites.2.trans (lines_isInfix hline)⟩
  obtain ⟨other, hkept, hcites⟩ := cites_collapse.1 hhistory
  exact decide_eq_true ((mem_keptLines.1 hkept).2 id
    (mem_idsOnLine.2 ⟨digits, hcites, hparse⟩))

theorem collapse_of_trimmed {text : List Char} (hcr : ¬ crLf <:+: text)
    (htriple : ¬ tripleNewline <:+: text)
    (htrim : trimEndMatches isWhitespace text = text) : collapse (lines text) = text := by
  have hend : text.getLast? ≠ some '\n' := by
    intro hlast
    obtain ⟨front, rfl⟩ := List.getLast?_eq_some_iff.mp hlast
    have hlast := List.rdropWhile_eq_self_iff.mp htrim (by simp)
    rw [List.getLast_append_singleton] at hlast
    exact hlast (by decide)
  have hjoin : joinWith '\n' (lines text) = text :=
    @joinWith_linesFrom [] text (by simpa using hcr) hend
  unfold collapse
  simp only [hjoin]
  rw [squeeze_of_no_triple _ htriple, htrim]

/-- Verifying again changes the history just when a line feed follows a carriage return there. -/
theorem stable_iff :
    (verify d (verify d response validIds).history validIds).history =
        (verify d response validIds).history ↔
      (keptLines d validIds response).Pairwise (fun earlier later =>
        earlier.getLast? = some '\r' → later.all isWhitespace) := by
  have hagain : (verify d (verify d response validIds).history validIds).history =
      collapse (lines (verify d response validIds).history) := by
    rw [← keptLines_history]
    rfl
  have hcr : crLf <:+: (verify d response validIds).history ↔
      ¬ (keptLines d validIds response).Pairwise (fun earlier later =>
        earlier.getLast? = some '\r' → later.all isWhitespace) := by
    change crLf <:+: trimEndMatches isWhitespace (squeeze _ _) ↔ _
    rw [crLf_trimEndMatches, crIn_squeeze, crIn_joinWith (by decide)]
    intro line hline
    exact newline_not_mem_lines (mem_keptLines.1 hline).1
  rw [hagain]
  constructor
  · intro hsame
    by_contra hnot
    have hcr' := hcr.mpr hnot
    generalize (verify d response validIds).history = history at hsame hcr'
    have hlt := (@count_joinWith_linesFrom [] List.not_mem_nil history).2 hcr'
    have hle : (collapse (lines history)).count '\r' ≤
        (joinWith '\n' (lines history)).count '\r' := by
      unfold collapse
      exact (count_trimEndMatches _ _).trans (count_squeeze _ _).le
    rw [hsame] at hle
    rw [List.nil_append] at hlt
    exact absurd hlt (not_lt.mpr hle)
  · intro hpairwise
    apply collapse_of_trimmed (fun h => hcr.mp h hpairwise)
    · intro h
      exact squeeze_no_triple (Nat.le_refl _)
        (h.trans (trimEndMatches_isPrefix isWhitespace _).isInfix)
    · exact List.rdropWhile_idempotent isWhitespace _

/-- For every response and every set of ids. -/
theorem no_fabrication_iff (d : DigitClass) (validIds : Finset Int) (response : List Char) :
    NoFabrication d validIds response ↔ CitesPlainly d validIds response := by
  constructor
  · intro h
    have hparsed := history_iff.1 h.history
    exact ⟨hparsed, (userFacing_iff hparsed).mp h.userFacing, stable_iff.1 h.stable⟩
  · intro h
    refine ⟨history_iff.2 h.parsed, (userFacing_iff h.parsed).mpr h.unjoined, ?_,
      stable_iff.2 h.uncarried⟩
    exact congrArg collapse (keptLines_eq h.parsed)

end Exact

/-- The ids that a response may cite are those that a tool returned. -/
theorem mem_collectToolResultIds {d : DigitClass} {messages : List ChatMessage} {id : Int} :
    id ∈ collectToolResultIds d messages ↔ ∃ message ∈ messages, message.role = .tool ∧
      ∃ text, message.text = some text ∧ ∃ digits, Cites d digits text ∧
        parseI64 digits = some id := by
  simp only [collectToolResultIds, List.mem_flatMap]
  apply exists_congr
  intro message
  apply and_congr_right
  intro _
  by_cases hrole : message.role = .tool
  · cases message.text with
    | none => simp [hrole]
    | some text => simp [hrole, mem_captures]
  · simp [hrole]

/-! ## Citations that pass -/

def asciiDigits : DigitClass where
  isDigit := fun c => decide ('0' ≤ c) && decide (c ≤ '9')
  opening := by decide
  closing := by decide
  blank := by
    intro c hblank
    by_contra hdigit
    rw [Bool.not_eq_false, Bool.and_eq_true, decide_eq_true_eq, decide_eq_true_eq] at hdigit
    have hlow : (48 : UInt32) ≤ c.val := hdigit.1
    have hhigh : c.val ≤ (57 : UInt32) := hdigit.2
    simp only [isWhitespace, Bool.or_eq_true, Bool.and_eq_true, decide_eq_true_eq,
      UInt32.le_iff_toNat_le, ← UInt32.toNat_inj] at hblank hlow hhigh
    simp only [UInt32.reduceToNat] at hblank hlow hhigh
    omega

/-- An id beyond 64 bits is no number to the verifier, and reaches user and history. -/
theorem overflowing_citation_passes :
    ¬ NoFabrication asciiDigits {1} "Pay Bob [id=99999999999999999999]".toList := by
  intro h
  have hline : "Pay Bob [id=99999999999999999999]".toList ∈
      keptLines asciiDigits {1} "Pay Bob [id=99999999999999999999]".toList := by decide
  have hcites : Cites asciiDigits "99999999999999999999".toList
      "Pay Bob [id=99999999999999999999]".toList := by
    refine mem_captures.1 ?_
    decide
  obtain ⟨id, _, hparse⟩ := h.history _ (cites_collapse.2 ⟨_, hline, hcites⟩)
  have hnone : parseI64 "99999999999999999999".toList = none := by decide
  rw [hnone] at hparse
  cases hparse

-- A tag within a tag: what is left of the outer one is a tag again.
example : removeTags asciiDigits "[id=[id=1]5]".toList = "[id=5]".toList := by decide

-- The second carriage return is read as part of the line end when the history is read again.
example : lines "a\r\r\nb".toList = ["a\r".toList, "b".toList] := by decide

end Lightfriend.Citation
