import Lightfriend.Core.Machine
import Mathlib.Data.List.DropRight
import Mathlib.Data.List.TakeWhile

/-! # Lines and blanks

The text operations of the source language on lists of characters: lines, words,
trimming and the collapsing of blank lines. A word without the characters that
such an operation touches is in its result just when it is in the text.
-/

namespace Lightfriend.Text

/-! ## Operations -/

/-- One carriage return at the end of a line belongs to its line feed. -/
def stripCr (line : List Char) : List Char :=
  if line.getLast? = some '\r' then line.dropLast else line

/-- The lines of the text that is left, when `line` has been read of the first. -/
def linesFrom (line : List Char) : List Char → List (List Char)
  | [] => if line.isEmpty then [] else [line]
  | c :: rest =>
      if c = '\n' then stripCr line :: linesFrom [] rest else linesFrom (line ++ [c]) rest

theorem linesFrom_nil (line : List Char) :
    linesFrom line [] = if line.isEmpty then [] else [line] := rfl

theorem linesFrom_cons (line : List Char) (c : Char) (rest : List Char) :
    linesFrom line (c :: rest) =
      if c = '\n' then stripCr line :: linesFrom [] rest else linesFrom (line ++ [c]) rest := rfl

/-- `str::lines`. -/
def lines (text : List Char) : List (List Char) := linesFrom [] text

/-- `join` with a separator of one character. -/
def joinWith (separator : Char) : List (List Char) → List Char
  | [] => []
  | [line] => line
  | line :: rest => line ++ separator :: joinWith separator rest

theorem joinWith_singleton (separator : Char) (line : List Char) :
    joinWith separator [line] = line := rfl

theorem joinWith_cons_cons (separator : Char) (line next : List Char) (rest : List (List Char)) :
    joinWith separator (line :: next :: rest) =
      line ++ separator :: joinWith separator (next :: rest) := rfl

/-- The words that are left, when `word` has been read of the first. -/
def wordsFrom (word : List Char) : List Char → List (List Char)
  | [] => if word.isEmpty then [] else [word]
  | c :: rest =>
      if isWhitespace c then
        if word.isEmpty then wordsFrom [] rest else word :: wordsFrom [] rest
      else wordsFrom (word ++ [c]) rest

/-- `str::split_whitespace`. -/
def splitWhitespace (text : List Char) : List (List Char) := wordsFrom [] text

/-- `str::trim_end_matches`. -/
def trimEndMatches (p : Char → Bool) (text : List Char) : List Char :=
  text.rdropWhile p

/-- `replace("\n\n\n", "\n\n")`. -/
def replaceTriple : List Char → List Char
  | '\n' :: '\n' :: '\n' :: rest => '\n' :: '\n' :: replaceTriple rest
  | c :: rest => c :: replaceTriple rest
  | [] => []

def tripleNewline : List Char := ['\n', '\n', '\n']

/-- `while s.contains("\n\n\n")`; a round shortens the text. -/
def squeeze : Nat → List Char → List Char
  | 0, text => text
  | fuel + 1, text =>
      if hasInfix tripleNewline text then squeeze fuel (replaceTriple text) else text

theorem squeeze_succ (fuel : Nat) (text : List Char) :
    squeeze (fuel + 1) text =
      if hasInfix tripleNewline text then squeeze fuel (replaceTriple text) else text := rfl

/-! ## Words in a text -/

theorem hasInfix_iff {needle text : List Char} : hasInfix needle text ↔ needle <:+: text := by
  induction text with
  | nil => simp [hasInfix]
  | cons c rest ih => simp [hasInfix, List.infix_cons_iff, ih]

section Infix

variable {α : Type} {w : List α} {x : α}

theorem prefix_append_cons (hx : x ∉ w) {a b : List α} (h : w <+: a ++ x :: b) : w <+: a := by
  induction a generalizing w with
  | nil =>
      cases w with
      | nil => exact List.nil_prefix
      | cons y w =>
          obtain ⟨rfl, _⟩ := List.cons_prefix_cons.mp h
          exact absurd List.mem_cons_self hx
  | cons c a ih =>
      cases w with
      | nil => exact List.nil_prefix
      | cons y w =>
          obtain ⟨rfl, hrest⟩ := List.cons_prefix_cons.mp h
          exact List.cons_prefix_cons.mpr
            ⟨rfl, ih (fun hmem => hx (List.mem_cons_of_mem _ hmem)) hrest⟩

/-- A word does not reach over a character that it does not have. -/
theorem infix_append_cons_iff (hw : w ≠ []) (hx : x ∉ w) {a b : List α} :
    w <:+: a ++ x :: b ↔ w <:+: a ∨ w <:+: b := by
  constructor
  · intro h
    induction a with
    | nil =>
        rw [List.nil_append, List.infix_cons_iff] at h
        rcases h with h | h
        · have hnil := prefix_append_cons (a := []) hx h
          exact absurd (List.prefix_nil.mp hnil) hw
        · exact Or.inr h
    | cons c a ih =>
        rw [List.cons_append, List.infix_cons_iff, ← List.cons_append] at h
        rcases h with h | h
        · exact Or.inl (prefix_append_cons hx h).isInfix
        · exact (ih h).imp_left (fun h => List.infix_cons_iff.mpr (Or.inr h))
  · rintro (h | h)
    · exact List.infix_append_of_infix_left h
    · exact List.infix_append_of_infix_right (List.infix_cons_iff.mpr (Or.inr h))

end Infix

section Words

variable {w : List Char} {separator : Char}

theorem infix_joinWith (hw : w ≠ []) (hx : separator ∉ w) (ls : List (List Char)) :
    w <:+: joinWith separator ls ↔ ∃ line ∈ ls, w <:+: line := by
  induction ls with
  | nil => simpa [joinWith] using hw
  | cons line rest ih =>
      cases rest with
      | nil => simp [joinWith]
      | cons next rest =>
          rw [joinWith, infix_append_cons_iff hw hx, ih]
          · simp
          · simp

theorem infix_wordsFrom (hw : w ≠ []) (hblank : ∀ c ∈ w, isWhitespace c = false)
    (word text : List Char) : (∃ v ∈ wordsFrom word text, w <:+: v) ↔ w <:+: word ++ text := by
  induction text generalizing word with
  | nil =>
      rw [wordsFrom, List.append_nil]
      split
      next hempty =>
        rw [List.isEmpty_iff.mp hempty]
        simpa using hw
      next => simp
  | cons c rest ih =>
      rw [wordsFrom]
      split
      next hc =>
        have hx : c ∉ w := by
          intro hmem
          rw [hblank c hmem] at hc
          cases hc
        rw [infix_append_cons_iff hw hx]
        split
        next hempty =>
          rw [ih, List.isEmpty_iff.mp hempty]
          simp [hw]
        next =>
          rw [List.exists_mem_cons_iff, ih]
          simp
      next => rw [ih, List.append_assoc, List.singleton_append]

theorem infix_splitWhitespace (hw : w ≠ []) (hblank : ∀ c ∈ w, isWhitespace c = false)
    (text : List Char) : (∃ v ∈ splitWhitespace text, w <:+: v) ↔ w <:+: text :=
  infix_wordsFrom hw hblank [] text

/-! ## Trimming -/

theorem trimEndMatches_isPrefix (p : Char → Bool) (text : List Char) :
    trimEndMatches p text <+: text :=
  List.rdropWhile_prefix p text

theorem trimEndMatches_cons (p : Char → Bool) (c : Char) (rest : List Char) :
    trimEndMatches p (c :: rest) =
      if (c :: rest).all p then [] else c :: trimEndMatches p rest := by
  unfold trimEndMatches List.rdropWhile
  rw [List.reverse_cons, List.dropWhile_append]
  have hnil : (rest.reverse.dropWhile p).isEmpty = rest.all p := by
    rw [Bool.eq_iff_iff, List.isEmpty_iff, List.dropWhile_eq_nil_iff, List.all_eq_true]
    simp
  rw [hnil, List.all_cons]
  cases hrest : rest.all p with
  | false => simp
  | true => cases hc : p c <;> simp [hc, List.isEmpty_iff.mp (hnil.trans hrest)]

/-- A word stays when its last character does. -/
theorem infix_trimEndMatches {p : Char → Bool} {last : Char} (hlast : p last = false)
    (text : List Char) :
    w ++ [last] <:+: trimEndMatches p text ↔ w ++ [last] <:+: text := by
  constructor
  · exact fun h => h.trans (trimEndMatches_isPrefix p text).isInfix
  · intro h
    have hall : ∀ reversed : List Char, last :: w.reverse <:+: reversed →
        last :: w.reverse <:+: reversed.dropWhile p := by
      intro reversed
      induction reversed with
      | nil => exact id
      | cons c rest ih =>
          intro h
          rw [List.dropWhile_cons]
          split
          next hc =>
            rcases List.infix_cons_iff.mp h with h | h
            · obtain ⟨rfl, _⟩ := List.cons_prefix_cons.mp h
              rw [hlast] at hc
              cases hc
            · exact ih h
          next => exact h
    have hreversed := hall text.reverse (by
      have := List.reverse_infix.mpr h
      rwa [List.reverse_append, List.reverse_singleton, List.singleton_append] at this)
    have hback := List.reverse_infix.mpr hreversed
    rwa [List.reverse_cons, List.reverse_reverse] at hback

end Words

/-! ## Blank lines -/

/-- Induction along a text and what is made of it. -/
theorem replaceTriple_induction {P : List Char → List Char → Prop}
    (triple : ∀ rest, P rest (replaceTriple rest) →
      P ('\n' :: '\n' :: '\n' :: rest) ('\n' :: '\n' :: replaceTriple rest))
    (other : ∀ c rest, (∀ tail, c = '\n' → rest = '\n' :: '\n' :: tail → False) →
      P rest (replaceTriple rest) → P (c :: rest) (c :: replaceTriple rest))
    (nil : P [] []) (text : List Char) : P text (replaceTriple text) := by
  fun_induction replaceTriple text with
  | case1 rest ih => exact triple rest ih
  | case2 c rest hnot ih => exact other c rest hnot ih
  | case3 => exact nil

theorem replaceTriple_length (text : List Char) :
    (replaceTriple text).length ≤ text.length ∧
      (tripleNewline <:+: text → (replaceTriple text).length < text.length) := by
  refine replaceTriple_induction (P := fun text out => out.length ≤ text.length ∧
    (tripleNewline <:+: text → out.length < text.length)) ?triple ?other ?nil text
  case triple =>
      intro rest ih
      simp only [List.length_cons]
      omega
  case other =>
      intro c rest hnot ih
      simp only [List.length_cons]
      refine ⟨by omega, ?_⟩
      intro h
      rcases List.infix_cons_iff.mp h with h | h
      · obtain ⟨tail, htail⟩ := h
        simp only [tripleNewline, List.cons_append, List.nil_append, List.cons.injEq] at htail
        exact absurd htail.2.symm (hnot tail htail.1.symm)
      · have := ih.2 h
        omega
  case nil => exact ⟨Nat.le_refl _, fun h => by simp [tripleNewline] at h⟩

/-- The loop ends on a text without three line feeds in a row. -/
theorem squeeze_no_triple {fuel : Nat} {text : List Char} (hfuel : text.length ≤ fuel) :
    ¬ tripleNewline <:+: squeeze fuel text := by
  induction fuel generalizing text with
  | zero =>
      have hempty := List.length_eq_zero_iff.mp (Nat.le_zero.mp hfuel)
      have hsqueeze : squeeze 0 text = text := rfl
      rw [hsqueeze, hempty]
      simp [tripleNewline]
  | succ fuel ih =>
      rw [squeeze_succ]
      split
      next h =>
        apply ih
        have := (replaceTriple_length text).2 (hasInfix_iff.1 h)
        omega
      next h => exact fun hinfix => h (hasInfix_iff.2 hinfix)

theorem squeeze_of_no_triple (fuel : Nat) {text : List Char} (h : ¬ tripleNewline <:+: text) :
    squeeze fuel text = text := by
  cases fuel with
  | zero => rfl
  | succ fuel => rw [squeeze_succ, if_neg (fun hinfix => h (hasInfix_iff.1 hinfix))]

/-- What every replacement keeps, the loop keeps. -/
theorem squeeze_induction {P : List Char → Prop} (hstep : ∀ text, P text → P (replaceTriple text))
    (fuel : Nat) {text : List Char} (h : P text) : P (squeeze fuel text) := by
  induction fuel generalizing text with
  | zero => exact h
  | succ fuel ih =>
      rw [squeeze_succ]
      split
      · exact ih (hstep text h)
      · exact h

/-- A word without line feeds at the start of a text. -/
theorem prefix_replaceTriple {w : List Char} (hx : '\n' ∉ w) (text : List Char) :
    w <+: replaceTriple text ↔ w <+: text := by
  refine replaceTriple_induction (P := fun text out =>
    ∀ w : List Char, '\n' ∉ w → (w <+: out ↔ w <+: text)) ?triple ?other ?nil text w hx
  case triple =>
      intro rest ih w hx
      cases w with
      | nil => simp
      | cons y w =>
          have hy : y ≠ '\n' := fun h => hx (h ▸ List.mem_cons_self)
          simp [List.cons_prefix_cons, hy]
  case other =>
      intro c rest hnot ih w hx
      cases w with
      | nil => simp
      | cons y w =>
          rw [List.cons_prefix_cons, List.cons_prefix_cons,
            ih w (fun h => hx (List.mem_cons_of_mem _ h))]
  case nil => exact fun _ _ => Iff.rfl

theorem infix_replaceTriple {w : List Char} (hw : w ≠ []) (hx : '\n' ∉ w) (text : List Char) :
    w <:+: replaceTriple text ↔ w <:+: text := by
  have hfeed : ∀ rest : List Char, w <:+: '\n' :: rest ↔ w <:+: rest := by
    intro rest
    have h := infix_append_cons_iff hw hx (a := []) (b := rest)
    rwa [List.nil_append, List.infix_nil, or_iff_right hw] at h
  refine replaceTriple_induction (P := fun text out => w <:+: out ↔ w <:+: text)
    ?triple ?other ?nil text
  case triple =>
      intro rest ih
      rw [hfeed, hfeed, hfeed, hfeed, hfeed]
      exact ih
  case other =>
      intro c rest hnot ih
      have hprefix : w <+: c :: replaceTriple rest ↔ w <+: c :: rest := by
        cases w with
        | nil => simp
        | cons y w =>
            rw [List.cons_prefix_cons, List.cons_prefix_cons,
              prefix_replaceTriple (fun h => hx (List.mem_cons_of_mem _ h))]
      rw [List.infix_cons_iff, List.infix_cons_iff]
      exact or_congr hprefix ih
  case nil => rfl

theorem infix_squeeze {w : List Char} (hw : w ≠ []) (hx : '\n' ∉ w) (fuel : Nat)
    (text : List Char) : w <:+: squeeze fuel text ↔ w <:+: text :=
  squeeze_induction (P := fun other => w <:+: other ↔ w <:+: text)
    (fun other h => (infix_replaceTriple hw hx other).trans h) fuel Iff.rfl

/-! ## Lines that end in a carriage return -/

/-- A carriage return right before a line feed, with more than blanks behind them. -/
def CrIn (p : Char → Bool) : List Char → Prop
  | [] => False
  | c :: rest => (c = '\r' ∧ rest.head? = some '\n' ∧ rest.any (fun x => !p x)) ∨ CrIn p rest

theorem crIn_cons (p : Char → Bool) (c : Char) (rest : List Char) :
    CrIn p (c :: rest) ↔
      (c = '\r' ∧ rest.head? = some '\n' ∧ rest.any (fun x => !p x)) ∨ CrIn p rest := Iff.rfl

def crLf : List Char := ['\r', '\n']

theorem prefix_crLf {c : Char} {rest : List Char} :
    crLf <+: c :: rest ↔ c = '\r' ∧ rest.head? = some '\n' := by
  rw [crLf, List.cons_prefix_cons, eq_comm (a := '\r')]
  cases rest with
  | nil => simp
  | cons d rest => simp [List.cons_prefix_cons, eq_comm]

section Cr

variable {p : Char → Bool}

/-- They are in the trimmed text just when something stands behind them. -/
theorem crLf_trimEndMatches (text : List Char) :
    crLf <:+: trimEndMatches p text ↔ CrIn p text := by
  induction text with
  | nil => simp [trimEndMatches, crLf, CrIn]
  | cons c rest ih =>
      rw [crIn_cons, ← ih, trimEndMatches_cons]
      split
      next hall =>
        have hrest : rest.all p := by
          rw [List.all_cons, Bool.and_eq_true] at hall
          exact hall.2
        have htrim : trimEndMatches p rest = [] := by
          cases rest with
          | nil => rfl
          | cons d rest => rw [trimEndMatches_cons, if_pos hrest]
        have hnone : rest.any (fun x => !p x) = false := by
          rw [List.any_eq_false]
          intro x hx
          simp [List.all_eq_true.mp hrest x hx]
        simp [htrim, hnone, crLf]
      next hall =>
        rw [List.infix_cons_iff, prefix_crLf]
        have hhead : (trimEndMatches p rest).head? = some '\n' ↔
            rest.head? = some '\n' ∧ rest.any (fun x => !p x) := by
          cases rest with
          | nil => simp [trimEndMatches]
          | cons d rest =>
              rw [trimEndMatches_cons]
              have hany : (d :: rest).any (fun x => !p x) = !(d :: rest).all p := by
                rw [List.any_eq_not_all_not]
                simp
              rw [hany]
              cases (d :: rest).all p <;> simp
        rw [hhead]

theorem head?_replaceTriple (text : List Char) : (replaceTriple text).head? = text.head? :=
  replaceTriple_induction (P := fun text out => out.head? = text.head?) (fun _ _ => rfl)
    (fun _ _ _ _ => rfl) rfl text

theorem any_replaceTriple (q : Char → Bool) (text : List Char) :
    (replaceTriple text).any q = text.any q := by
  refine replaceTriple_induction (P := fun text out => out.any q = text.any q)
    ?triple ?other rfl text
  case triple =>
      intro rest ih
      simp only [List.any_cons, ih]
      cases q '\n' <;> simp
  case other =>
      intro c rest hnot ih
      rw [List.any_cons, List.any_cons, ih]

theorem crIn_replaceTriple (text : List Char) : CrIn p (replaceTriple text) ↔ CrIn p text := by
  refine replaceTriple_induction (P := fun text out => CrIn p out ↔ CrIn p text)
    ?triple ?other Iff.rfl text
  case triple =>
      intro rest ih
      simpa [CrIn] using ih
  case other =>
      intro c rest hnot ih
      rw [crIn_cons, crIn_cons, head?_replaceTriple, any_replaceTriple]
      exact or_congr Iff.rfl ih

theorem crIn_squeeze (fuel : Nat) (text : List Char) : CrIn p (squeeze fuel text) ↔ CrIn p text :=
  squeeze_induction (P := fun other => CrIn p other ↔ CrIn p text)
    (fun other h => (crIn_replaceTriple other).trans h) fuel Iff.rfl

theorem crIn_append_newline {line : List Char} (hline : '\n' ∉ line) (rest : List Char) :
    CrIn p (line ++ '\n' :: rest) ↔
      (line.getLast? = some '\r' ∧ ('\n' :: rest).any (fun x => !p x)) ∨ CrIn p rest := by
  induction line with
  | nil => simp [CrIn]
  | cons c line ih =>
      rw [List.cons_append, crIn_cons, ih (fun h => hline (List.mem_cons_of_mem _ h))]
      cases line with
      | nil => simp
      | cons d line =>
          have hd : d ≠ '\n' := fun h => hline (h ▸ List.mem_cons_of_mem _ List.mem_cons_self)
          simp [hd]

theorem not_crIn {line : List Char} (hline : '\n' ∉ line) : ¬ CrIn p line := by
  induction line with
  | nil => exact id
  | cons c line ih =>
      rintro (⟨_, hhead, _⟩ | h)
      · exact hline (List.mem_cons_of_mem _ (List.mem_of_head? hhead))
      · exact ih (fun h => hline (List.mem_cons_of_mem _ h)) h

theorem any_joinWith (q : Char → Bool) (separator : Char) (hseparator : q separator = false)
    (ls : List (List Char)) :
    (joinWith separator ls).any q = ls.any (fun line => line.any q) := by
  induction ls with
  | nil => rfl
  | cons line rest ih =>
      cases rest with
      | nil => simp [joinWith]
      | cons next rest =>
          have hjoin : joinWith separator (line :: next :: rest) =
              line ++ separator :: joinWith separator (next :: rest) := rfl
          rw [hjoin, List.any_append, List.any_cons, ih, hseparator, Bool.false_or]
          rfl

/-- The text of lines: a line ends in a carriage return, and a later one is not blank. -/
theorem crIn_joinWith (hfeed : p '\n' = true) {ls : List (List Char)}
    (hlines : ∀ line ∈ ls, '\n' ∉ line) :
    CrIn p (joinWith '\n' ls) ↔ ¬ ls.Pairwise (fun earlier later =>
      earlier.getLast? = some '\r' → later.all p) := by
  induction ls with
  | nil => simp [joinWith, CrIn]
  | cons line rest ih =>
      cases rest with
      | nil =>
          have hnot : ¬ CrIn p line := not_crIn (hlines line List.mem_cons_self)
          simpa [joinWith] using hnot
      | cons next rest =>
          have hany : (next :: rest).any (fun l => l.any (fun x => !p x)) = true ↔
              ¬ ∀ l ∈ next :: rest, l.all p := by
            constructor
            · intro h hall
              obtain ⟨l, hl, h⟩ := List.any_eq_true.mp h
              obtain ⟨x, hx, hpx⟩ := List.any_eq_true.mp h
              rw [List.all_eq_true.mp (hall l hl) x hx] at hpx
              cases hpx
            · intro h
              push Not at h
              obtain ⟨l, hl, hnot⟩ := h
              refine List.any_eq_true.mpr ⟨l, hl, ?_⟩
              rw [List.any_eq_not_all_not]
              simpa using hnot
          have hjoin : joinWith '\n' (line :: next :: rest) =
              line ++ '\n' :: joinWith '\n' (next :: rest) := rfl
          rw [hjoin, crIn_append_newline (hlines line List.mem_cons_self),
            ih (fun l hl => hlines l (List.mem_cons_of_mem _ hl)), List.any_cons, hfeed,
            any_joinWith _ _ (by rw [hfeed]; rfl), List.pairwise_cons (l := next :: rest),
            Bool.not_true, Bool.false_or, hany, not_and_or]
          by_cases hcr : line.getLast? = some '\r'
          · simp only [hcr, true_and, true_imp_iff]
          · simp [hcr]

end Cr

/-! ## Lines and texts -/

theorem newline_not_mem_stripCr {line : List Char} (h : '\n' ∉ line) : '\n' ∉ stripCr line := by
  unfold stripCr
  split
  · exact fun hmem => h (List.mem_of_mem_dropLast hmem)
  · exact h

theorem newline_not_mem_linesFrom {line : List Char} (hline : '\n' ∉ line) (text : List Char) :
    ∀ l ∈ linesFrom line text, '\n' ∉ l := by
  induction text generalizing line with
  | nil =>
      intro l hl
      rw [linesFrom_nil] at hl
      split at hl
      · cases hl
      · rwa [List.mem_singleton.mp hl]
  | cons c rest ih =>
      intro l hl
      rw [linesFrom_cons] at hl
      split at hl
      · rcases List.mem_cons.mp hl with rfl | hl
        · exact newline_not_mem_stripCr hline
        · exact ih List.not_mem_nil l hl
      next hc =>
        apply ih _ l hl
        rw [List.mem_append, List.mem_singleton]
        rintro (h | h)
        · exact hline h
        · exact hc h.symm

theorem newline_not_mem_lines {text line : List Char} (h : line ∈ lines text) : '\n' ∉ line :=
  newline_not_mem_linesFrom List.not_mem_nil text line h

theorem stripCr_isPrefix (line : List Char) : stripCr line <+: line := by
  unfold stripCr
  split
  · exact List.dropLast_prefix line
  · exact List.prefix_rfl

theorem linesFrom_infix (line text : List Char) : ∀ l ∈ linesFrom line text, l <:+: line ++ text := by
  induction text generalizing line with
  | nil =>
      intro l hl
      rw [linesFrom_nil] at hl
      split at hl
      · cases hl
      · rw [List.mem_singleton.mp hl, List.append_nil]
  | cons c rest ih =>
      intro l hl
      rw [linesFrom_cons] at hl
      split at hl
      · rcases List.mem_cons.mp hl with rfl | hl
        · exact (stripCr_isPrefix line).isInfix.trans List.infix_append_left
        · have hrest := ih [] l hl
          rw [List.nil_append] at hrest
          exact List.infix_append_of_infix_right (List.infix_cons_iff.mpr (Or.inr hrest))
      · have hrest := ih (line ++ [c]) l hl
        rwa [List.append_assoc, List.singleton_append] at hrest

theorem lines_isInfix {text line : List Char} (h : line ∈ lines text) : line <:+: text :=
  linesFrom_infix [] text line h

theorem linesFrom_ne_nil {line text : List Char} (h : line ++ text ≠ []) :
    linesFrom line text ≠ [] := by
  induction text generalizing line with
  | nil =>
      rw [List.append_nil] at h
      rw [linesFrom_nil, if_neg (by simpa using h)]
      exact List.cons_ne_nil _ _
  | cons c rest ih =>
      rw [linesFrom_cons]
      split
      · exact List.cons_ne_nil _ _
      · exact ih (by simp)

/-- The lines of a text make up the text when no line feed ends it or follows a carriage
return. -/
theorem joinWith_linesFrom {line text : List Char} (hcr : ¬ crLf <:+: line ++ text)
    (hend : text.getLast? ≠ some '\n') : joinWith '\n' (linesFrom line text) = line ++ text := by
  induction text generalizing line with
  | nil =>
      rw [linesFrom_nil]
      split
      next hempty => simp [List.isEmpty_iff.mp hempty, joinWith]
      next => simp [joinWith]
  | cons c rest ih =>
      rw [linesFrom_cons]
      split
      next hc =>
        subst hc
        have hstrip : stripCr line = line := by
          unfold stripCr
          refine if_neg (fun hlast => hcr ?_)
          obtain ⟨front, rfl⟩ := List.getLast?_eq_some_iff.mp hlast
          exact ⟨front, rest, by simp [crLf]⟩
        have hrest : rest ≠ [] := by
          rintro rfl
          exact hend rfl
        have hne : linesFrom [] rest ≠ [] := linesFrom_ne_nil (by simpa using hrest)
        have hjoin : joinWith '\n' (linesFrom [] rest) = rest := by
          apply ih
          · intro h
            exact hcr (List.infix_append_of_infix_right (List.infix_cons_iff.mpr (Or.inr h)))
          · rwa [List.getLast?_cons_of_ne_nil hrest] at hend
        rw [hstrip]
        cases hlines : linesFrom [] rest with
        | nil => exact absurd hlines hne
        | cons first others => rw [joinWith, ← hlines, hjoin]; simp
      next hc =>
        rw [ih]
        · simp
        · rwa [List.append_assoc, List.singleton_append]
        · cases rest with
          | nil => simp
          | cons d rest => rwa [List.getLast?_cons_of_ne_nil (List.cons_ne_nil _ _)] at hend

theorem crLf_append_newline {line : List Char} (hline : '\n' ∉ line) {rest : List Char}
    (h : crLf <:+: line ++ '\n' :: rest) : line.getLast? = some '\r' ∨ crLf <:+: rest := by
  induction line with
  | nil =>
      rcases List.infix_cons_iff.mp h with h | h
      · cases (prefix_crLf.1 h).1
      · exact Or.inr h
  | cons c line ih =>
      rw [List.cons_append, List.infix_cons_iff, prefix_crLf] at h
      cases line with
      | nil =>
          rcases h with ⟨rfl, _⟩ | h
          · exact Or.inl rfl
          · exact (ih List.not_mem_nil h).imp_left (fun h => nomatch h)
      | cons d line =>
          have hd : d ≠ '\n' := fun h => hline (h ▸ List.mem_cons_of_mem _ List.mem_cons_self)
          rcases h with ⟨_, hhead⟩ | h
          · exact absurd (Option.some.inj hhead) hd
          · exact ih (fun h => hline (List.mem_cons_of_mem _ h)) h

theorem count_stripCr (line : List Char) :
    (stripCr line).count '\r' ≤ line.count '\r' ∧
      (line.getLast? = some '\r' → (stripCr line).count '\r' < line.count '\r') := by
  unfold stripCr
  split
  next hlast =>
    obtain ⟨front, rfl⟩ := List.getLast?_eq_some_iff.mp hlast
    simp
  next hlast => exact ⟨Nat.le_refl _, fun h => absurd h hlast⟩

theorem count_joinWith_cons (line : List Char) (rest : List (List Char)) :
    (joinWith '\n' (line :: rest)).count '\r' =
      line.count '\r' + (joinWith '\n' rest).count '\r' := by
  cases rest with
  | nil => simp [joinWith]
  | cons next rest => simp [joinWith]

/-- Reading the lines takes a carriage return away wherever one stands before a line feed. -/
theorem count_joinWith_linesFrom {line : List Char} (hline : '\n' ∉ line) (text : List Char) :
    (joinWith '\n' (linesFrom line text)).count '\r' ≤ (line ++ text).count '\r' ∧
      (crLf <:+: line ++ text →
        (joinWith '\n' (linesFrom line text)).count '\r' < (line ++ text).count '\r') := by
  induction text generalizing line with
  | nil =>
      have hnot : ¬ crLf <:+: line := by
        intro h
        exact hline (h.subset (by simp [crLf]))
      rw [linesFrom_nil, List.append_nil]
      refine ⟨?_, fun h => absurd h hnot⟩
      split
      · simp [joinWith]
      · exact Nat.le_refl _
  | cons c rest ih =>
      rw [linesFrom_cons]
      split
      next hc =>
        subst hc
        obtain ⟨hle, hlt⟩ := @ih [] List.not_mem_nil
        obtain ⟨hstrip, hstrip'⟩ := count_stripCr line
        rw [List.nil_append] at hle hlt
        have hcount : (line ++ '\n' :: rest).count '\r' = line.count '\r' + rest.count '\r' := by
          simp [List.count_append]
        rw [count_joinWith_cons, hcount]
        refine ⟨by omega, ?_⟩
        intro h
        rcases crLf_append_newline hline h with h | h
        · have := hstrip' h
          omega
        · have := hlt h
          omega
      next hc =>
        have hnext : '\n' ∉ line ++ [c] := by
          rw [List.mem_append, List.mem_singleton]
          rintro (h | h)
          · exact hline h
          · exact hc h.symm
        have hrest := ih hnext
        rwa [List.append_assoc, List.singleton_append] at hrest

theorem count_replaceTriple (text : List Char) :
    (replaceTriple text).count '\r' = text.count '\r' := by
  refine replaceTriple_induction (P := fun text out => out.count '\r' = text.count '\r')
    ?triple ?other rfl text
  case triple =>
      intro rest ih
      simpa [List.count_cons] using ih
  case other =>
      intro c rest hnot ih
      rw [List.count_cons, List.count_cons, ih]

theorem count_squeeze (fuel : Nat) (text : List Char) :
    (squeeze fuel text).count '\r' = text.count '\r' :=
  squeeze_induction (P := fun other => other.count '\r' = text.count '\r')
    (fun other h => (count_replaceTriple other).trans h) fuel rfl

theorem count_trimEndMatches (p : Char → Bool) (text : List Char) :
    (trimEndMatches p text).count '\r' ≤ text.count '\r' :=
  (trimEndMatches_isPrefix p text).sublist.count_le '\r'

end Lightfriend.Text
