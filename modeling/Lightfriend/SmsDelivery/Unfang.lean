import Lightfriend.Core.Pattern

/-! # Defanged addresses

Before a message is sent, the brackets in defanged addresses are taken out
again. Each of three replacements is repeated until it changes nothing, and none
of them brings back what another took out.
-/

namespace Lightfriend.SmsDelivery

/-! ## Defanged text -/

/-- The word characters of the regex library, with what its tables say of punctuation and
blanks. -/
structure WordChars where
  isWord : Char → Bool
  punctuation : ∀ c ∈ "[]().@,;!?:<>\"'\x7d".toList, isWord c = false
  blank : ∀ c, isWhitespace c = true → isWord c = false

def isOpening (c : Char) : Bool := c = '[' ∨ c = '('

def isClosing (c : Char) : Bool := c = ']' ∨ c = ')'

/-- What stands between the brackets, and what is written for it. -/
structure Fang where
  tokens : List (List Char)
  mark : Char

/-- `(\w)[\[\(]\.[\]\)](\w)`. -/
def dotFang : Fang := ⟨["."].map String.toList, '.'⟩

/-- `(?i)(\w)[\[\(]dot[\]\)](\w)`. -/
def wordDotFang : Fang := ⟨["dot"].map String.toList, '.'⟩

/-- `(?i)(\w)[\[\(](?:at|@)[\]\)](\w)`. -/
def atFang : Fang := ⟨["at", "@"].map String.toList, '@'⟩

section Fangs

variable (words : WordChars)

/-- The text starts with the token, its closing bracket and a word character. -/
def closesWith (token rest : List Char) : Bool :=
  (rest.take token.length).map Char.toLower == token &&
    match rest.drop token.length with
    | close :: last :: _ => isClosing close && words.isWord last
    | _ => false

def Fang.find (fang : Fang) : List Char → Nat
  | first :: opening :: rest =>
      if words.isWord first && isOpening opening then
        match fang.tokens.find? (fun token => closesWith words token rest) with
        | some token => token.length + 4
        | none => 0
      else 0
  | _ => 0

/-- A word character, a bracketed token and a word character. -/
structure IsFanged (fang : Fang) (w : List Char) : Prop where
  parts : ∃ first opening token close last, w = first :: opening :: (token ++ [close, last]) ∧
    words.isWord first = true ∧ isOpening opening = true ∧ token.map Char.toLower ∈ fang.tokens ∧
      isClosing close = true ∧ words.isWord last = true

theorem closesWith_iff {token rest : List Char} : closesWith words token rest = true ↔
    ∃ body close last tail, rest = body ++ close :: last :: tail ∧ body.map Char.toLower = token ∧
      isClosing close = true ∧ words.isWord last = true := by
  constructor
  · intro h
    simp only [closesWith, Bool.and_eq_true, beq_iff_eq] at h
    obtain ⟨htoken, hclose⟩ := h
    split at hclose
    next close last tail hdrop =>
      simp only [Bool.and_eq_true] at hclose
      refine ⟨rest.take token.length, close, last, tail, ?_, htoken, hclose⟩
      rw [← hdrop, List.take_append_drop]
    next => cases hclose
  · rintro ⟨body, close, last, tail, rfl, rfl, hclose, hlast⟩
    have hlength : (body.map Char.toLower).length = body.length := List.length_map _
    simp [closesWith, hclose, hlast]

theorem Fang.find_pos {fang : Fang} {text : List Char} (h : 0 < fang.find words text) :
    ∃ w rest, text = w ++ rest ∧ IsFanged words fang w ∧ fang.find words text = w.length := by
  unfold Fang.find at h ⊢
  split at h
  next first opening rest =>
    split at h
    next hopen =>
      split at h
      next token htoken =>
        have hcloses : closesWith words token rest = true := by
          simpa using List.find?_some htoken
        obtain ⟨body, close, last, tail, rfl, hbody, hclose, hlast⟩ :=
          (closesWith_iff words).mp hcloses
        rw [Bool.and_eq_true] at hopen
        refine ⟨first :: opening :: (body ++ [close, last]), tail, by simp,
          ⟨first, opening, body, close, last, rfl, hopen.1, hopen.2, ?_, hclose, hlast⟩, ?_⟩
        · rw [hbody]
          exact List.mem_of_find?_eq_some htoken
        · have hlength := congrArg List.length hbody
          rw [List.length_map] at hlength
          simp only [hopen, Bool.and_self, if_true, ← hlength, List.length_cons,
            List.length_append, List.length_nil]
      next => exact absurd h (by omega)
    next => exact absurd h (by omega)
  next => exact absurd h (by omega)

theorem Fang.find_of_isFanged {fang : Fang} {w rest : List Char} (h : IsFanged words fang w) :
    0 < fang.find words (w ++ rest) := by
  obtain ⟨first, opening, token, close, last, rfl, hfirst, hopening, htoken, hclose, hlast⟩ :=
    h.parts
  have hcloses : closesWith words (token.map Char.toLower)
      (token ++ [close, last] ++ rest) = true :=
    (closesWith_iff words).mpr ⟨token, close, last, rest, by simp, rfl, hclose, hlast⟩
  simp only [List.cons_append, Fang.find, hfirst, hopening, Bool.and_self, if_true]
  cases hfind : fang.tokens.find?
      (fun t => closesWith words t (token ++ [close, last] ++ rest)) with
  | some found => simp
  | none =>
      rw [List.find?_eq_none] at hfind
      exact absurd hcloses (hfind _ htoken)

def Fang.pattern (fang : Fang) : Pattern where
  find := fang.find words
  find_le text := by
    by_cases h : 0 < fang.find words text
    · obtain ⟨w, rest, rfl, -, hlength⟩ := fang.find_pos words h
      rw [hlength, List.length_append]
      omega
    · omega

/-- `"$1.$2"`: the characters at the ends, and the mark between them. -/
def Fang.refang (fang : Fang) (m : List Char) : List Char :=
  m.take 1 ++ fang.mark :: m.drop (m.length - 1)

/-- One pass over the text. -/
def Fang.pass (fang : Fang) (text : List Char) : List Char :=
  (fang.pattern words).replaceAll fang.refang text

variable {words}

/-- The replacement of a match. -/
theorem Fang.refang_eq {fang : Fang} {text : List Char} (h : 0 < fang.find words text) :
    ∃ first opening token close last rest,
      text = first :: opening :: (token ++ [close, last]) ++ rest ∧
      words.isWord first = true ∧ isOpening opening = true ∧
      token.map Char.toLower ∈ fang.tokens ∧ isClosing close = true ∧
      words.isWord last = true ∧ text.drop (fang.find words text) = rest ∧
      fang.refang (text.take (fang.find words text)) = [first, fang.mark, last] := by
  obtain ⟨w, rest, rfl, hfanged, hlength⟩ := fang.find_pos words h
  obtain ⟨first, opening, token, close, last, rfl, hfirst, hopening, htoken, hclose, hlast⟩ :=
    hfanged.parts
  refine ⟨first, opening, token, close, last, rest, rfl, hfirst, hopening, htoken, hclose, hlast,
    ?_, ?_⟩
  · rw [hlength, List.drop_left]
  · rw [hlength, List.take_left]
    have hdrop : (first :: opening :: (token ++ [close, last])).drop
        ((first :: opening :: (token ++ [close, last])).length - 1) = [last] := by
      have hsplit : first :: opening :: (token ++ [close, last]) =
          (first :: opening :: (token ++ [close])) ++ [last] := by simp
      rw [hsplit, List.length_append]
      exact List.drop_left' (by simp)
    rw [refang, hdrop]
    rfl

/-- A pass leaves the text, or makes it shorter. -/
theorem Fang.pass_shrinks (fang : Fang) (text : List Char) :
    fang.pass words text = text ∨ (fang.pass words text).length < text.length := by
  unfold pass
  induction text using (fang.pattern words).scan_induction with
  | nil => exact .inl (Pattern.replaceAll_nil _ _)
  | plain c rest hfind ih =>
      rw [Pattern.replaceAll_plain _ _ hfind]
      obtain hsame | hless := ih
      · exact .inl (by rw [hsame])
      · exact .inr (by simpa using hless)
  | found text hfind ih =>
      obtain ⟨first, opening, token, close, last, rest, htext, -, -, -, -, -, hdrop, hrefang⟩ :=
        fang.refang_eq hfind
      have hrest : (fang.pattern words).find text = fang.find words text := rfl
      rw [hrest, hdrop] at ih
      rw [Pattern.replaceAll_found _ _ hfind, hrest, hdrop, hrefang]
      have hle : ((fang.pattern words).replaceAll fang.refang rest).length ≤ rest.length := by
        obtain hsame | hless := ih
        · exact (congrArg List.length hsame).le
        · exact hless.le
      right
      rw [htext]
      simp only [List.length_append, List.length_cons, List.length_nil]
      omega

/-- Pass after pass, until nothing changes. -/
def Fang.untilStable (words : WordChars) (fang : Fang) (text : List Char) : List Char :=
  if fang.pass words text = text then text else fang.untilStable words (fang.pass words text)
termination_by text.length
decreasing_by exact (fang.pass_shrinks text).resolve_left ‹_›

def unfangText (words : WordChars) (text : List Char) : List Char :=
  atFang.untilStable words (wordDotFang.untilStable words (dotFang.untilStable words text))

/-! ## Nothing is left to write out -/

def FangFree (words : WordChars) (fang : Fang) (text : List Char) : Prop :=
  ∀ w, IsFanged words fang w → ¬ w <:+: text

theorem Fang.pass_eq_iff (fang : Fang) (text : List Char) :
    fang.pass words text = text ↔ FangFree words fang text := by
  constructor
  · unfold pass
    induction text using (fang.pattern words).scan_induction with
    | nil =>
        intro _ w hfanged hwithin
        obtain ⟨first, opening, token, close, last, rfl, -⟩ := hfanged.parts
        simp at hwithin
    | plain c rest hfind ih =>
        intro hsame w hfanged hwithin
        rw [Pattern.replaceAll_plain _ _ hfind, List.cons.injEq] at hsame
        obtain hstarts | hrest := List.infix_cons_iff.mp hwithin
        · obtain ⟨tail, htail⟩ := hstarts
          have hpos := @Fang.find_of_isFanged words fang w tail hfanged
          rw [htail] at hpos
          exact absurd hfind (Nat.ne_of_gt hpos)
        · exact ih hsame.2 w hfanged hrest
    | found text hfind ih =>
        intro hsame
        obtain ⟨first, opening, token, close, last, rest, htext, -, -, -, -, -, hdrop, hrefang⟩ :=
          fang.refang_eq hfind
        have hrest : (fang.pattern words).find text = fang.find words text := rfl
        rw [Pattern.replaceAll_found _ _ hfind, hrest, hdrop, hrefang] at hsame
        have hle : (fang.pass words rest).length ≤ rest.length := by
          obtain heq | hless := @Fang.pass_shrinks words fang rest
          · exact (congrArg List.length heq).le
          · exact hless.le
        have hlength := congrArg List.length hsame
        rw [htext] at hlength
        simp only [List.length_append, List.length_cons, List.length_nil] at hlength
        unfold pass at hle
        omega
  · intro hfree
    unfold pass
    induction text using (fang.pattern words).scan_induction with
    | nil => exact Pattern.replaceAll_nil _ _
    | plain c rest hfind ih =>
        rw [Pattern.replaceAll_plain _ _ hfind,
          ih (fun w hfanged hwithin => hfree w hfanged (List.infix_cons hwithin))]
    | found text hfind ih =>
        obtain ⟨w, rest, rfl, hfanged, -⟩ := fang.find_pos words hfind
        exact absurd (List.prefix_append w rest).isInfix (hfree w hfanged)

theorem Fang.untilStable_free (fang : Fang) (text : List Char) :
    FangFree words fang (fang.untilStable words text) := by
  induction text using Fang.untilStable.induct words fang with
  | case1 text hsame =>
      rw [Fang.untilStable, if_pos hsame]
      exact (fang.pass_eq_iff text).mp hsame
  | case2 text hne ih =>
      rw [Fang.untilStable, if_neg hne]
      exact ih

theorem Fang.untilStable_of_free {fang : Fang} {text : List Char}
    (h : FangFree words fang text) : fang.untilStable words text = text := by
  rw [Fang.untilStable, if_pos ((fang.pass_eq_iff text).mpr h)]

theorem Fang.steps_untilStable (fang : Fang) (text : List Char) :
    (fang.pattern words).Steps fang.refang text (fang.untilStable words text) := by
  induction text using Fang.untilStable.induct words fang with
  | case1 text hsame =>
      rw [Fang.untilStable, if_pos hsame]
      exact .refl _
  | case2 text hne ih =>
      rw [Fang.untilStable, if_neg hne]
      exact (Pattern.steps_replaceAll [] text).trans ih

/-- A mark is no character of a word and no bracket, and a token that has it is nothing else. -/
structure Fang.Marks (words : WordChars) (fang other : Fang) : Prop where
  not_word : words.isWord fang.mark = false
  not_opening : isOpening fang.mark = false
  not_closing : isClosing fang.mark = false
  lower : fang.mark.toLower = fang.mark
  alone : ∀ token ∈ other.tokens, fang.mark ∈ token → token.length = 1

theorem isWord_of_isOpening {c : Char} (h : isOpening c = true) : words.isWord c = false := by
  simp only [isOpening, decide_eq_true_eq] at h
  obtain rfl | rfl := h
  · exact words.punctuation _ (by decide)
  · exact words.punctuation _ (by decide)

/-- A mark in a fanged word is its token, so an opening bracket stands before it. -/
theorem IsFanged.before_mark {fang other : Fang} (hmarks : fang.Marks words other)
    {w w₁ w₂ : List Char} (hfanged : IsFanged words other w) (hw : w = w₁ ++ fang.mark :: w₂) :
    ∃ first opening, w₁ = [first, opening] ∧ isOpening opening = true := by
  obtain ⟨first, opening, token, close, last, rfl, hfirst, hopening, htoken, hclose, hlast⟩ :=
    hfanged.parts
  have hne_first : fang.mark ≠ first := by
    rintro rfl
    rw [hmarks.not_word] at hfirst
    cases hfirst
  have hne_opening : fang.mark ≠ opening := by
    rintro rfl
    rw [hmarks.not_opening] at hopening
    cases hopening
  have hne_close : fang.mark ≠ close := by
    rintro rfl
    rw [hmarks.not_closing] at hclose
    cases hclose
  have hne_last : fang.mark ≠ last := by
    rintro rfl
    rw [hmarks.not_word] at hlast
    cases hlast
  have hmem : fang.mark ∈ token := by
    have hall : fang.mark ∈ first :: opening :: (token ++ [close, last]) := by
      rw [hw]
      simp
    simpa [hne_first, hne_opening, hne_close, hne_last] using hall
  have hlength : token.length = 1 := by
    have hlower := @List.mem_map_of_mem _ _ _ _ Char.toLower hmem
    rw [hmarks.lower] at hlower
    simpa using hmarks.alone _ htoken hlower
  obtain ⟨x, rfl⟩ := List.length_eq_one_iff.mp hlength
  obtain rfl := List.mem_singleton.mp hmem
  refine ⟨first, opening, ?_, hopening⟩
  have hcut : first :: opening :: ([fang.mark] ++ [close, last]) =
      [first, opening] ++ fang.mark :: [close, last] := rfl
  rw [hcut] at hw
  have hbefore : fang.mark ∉ [first, opening] := by simp [hne_first, hne_opening]
  have hbehind : fang.mark ∉ [close, last] := by simp [hne_close, hne_last]
  exact ((List.append_cons_inj_of_notMem hbefore hbehind).mp hw).1.symm

/-- A mark between two word characters makes no fanged word. -/
theorem FangFree.step {fang other : Fang} (hmarks : fang.Marks words other) {a b : List Char}
    (hstep : (fang.pattern words).Step fang.refang a b) (hfree : FangFree words other a) :
    FangFree words other b := by
  obtain @⟨before, text, hfind⟩ := hstep
  obtain ⟨first, opening, token, close, last, rest, htext, hfirst, -, -, -, -, hdrop, hrefang⟩ :=
    fang.refang_eq hfind
  intro w hfanged hwithin
  have hfound : (fang.pattern words).find text = fang.find words text := rfl
  rw [hfound, hdrop, hrefang] at hwithin
  have hsplit : before ++ ([first, fang.mark, last] ++ rest) =
      (before ++ [first]) ++ fang.mark :: (last :: rest) := by simp
  rw [hsplit] at hwithin
  obtain hleft | hright | ⟨w₁, w₂, hw, hends, -⟩ := infix_append_cons hwithin
  · refine hfree w hfanged (hleft.trans ?_)
    rw [htext]
    exact ⟨[], opening :: (token ++ [close, last]) ++ rest, by simp⟩
  · refine hfree w hfanged (hright.trans ?_)
    rw [htext]
    exact ⟨before ++ first :: opening :: (token ++ [close]), [], by simp⟩
  · -- The opening bracket before the mark would be the word character.
    obtain ⟨first', opening', rfl, hopening⟩ := hfanged.before_mark hmarks hw
    obtain ⟨front, hfront⟩ := hends
    have hlast := congrArg List.getLast? hfront
    simp only [List.getLast?_append, List.getLast?_cons_cons, List.getLast?_singleton,
      Option.some_or, Option.some.injEq] at hlast
    rw [hlast] at hopening
    rw [isWord_of_isOpening hopening] at hfirst
    cases hfirst

theorem dotMark (other : Fang) (h : ∀ token ∈ other.tokens, '.' ∈ token → token.length = 1)
    {fang : Fang} (hfang : fang.mark = '.') : fang.Marks words other where
  not_word := by
    rw [hfang]
    exact words.punctuation _ (by decide)
  not_opening := by
    rw [hfang]
    rfl
  not_closing := by
    rw [hfang]
    rfl
  lower := by
    rw [hfang]
    decide
  alone := by
    rw [hfang]
    exact h

theorem atMark (other : Fang) (h : ∀ token ∈ other.tokens, '@' ∈ token → token.length = 1) :
    atFang.Marks words other where
  not_word := words.punctuation _ (by decide)
  not_opening := rfl
  not_closing := rfl
  lower := by decide
  alone := h

theorem FangFree.untilStable {fang other : Fang} (hmarks : fang.Marks words other)
    {text : List Char} (hfree : FangFree words other text) :
    FangFree words other (fang.untilStable words text) :=
  (fang.steps_untilStable text).keeps (fun _ _ => FangFree.step hmarks) hfree

/-- The three replacements leave nothing for one another. -/
theorem unfangText_free (text : List Char) :
    FangFree words dotFang (unfangText words text) ∧
      FangFree words wordDotFang (unfangText words text) ∧
        FangFree words atFang (unfangText words text) := by
  unfold unfangText
  have hdot := @Fang.untilStable_free words dotFang text
  have hword := @Fang.untilStable_free words wordDotFang (dotFang.untilStable words text)
  refine ⟨FangFree.untilStable (atMark _ (by decide))
    (FangFree.untilStable (dotMark _ (by decide) rfl) hdot),
    FangFree.untilStable (atMark _ (by decide)) hword, atFang.untilStable_free _⟩

theorem unfangText_of_free {text : List Char} (hdot : FangFree words dotFang text)
    (hword : FangFree words wordDotFang text) (hat : FangFree words atFang text) :
    unfangText words text = text := by
  rw [unfangText, Fang.untilStable_of_free hdot, Fang.untilStable_of_free hword,
    Fang.untilStable_of_free hat]

end Fangs

end Lightfriend.SmsDelivery
