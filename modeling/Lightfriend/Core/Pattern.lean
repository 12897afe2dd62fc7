import Lightfriend.Core.Text

/-! # Patterns in a text

A pattern is looked for from left to right, and its matches do not overlap.
A text is then cut into the characters outside of the matches and the matches,
and every match can be replaced.
-/

namespace Lightfriend

/-- Over a character, a word lies before it, after it, or across it. -/
theorem infix_append_cons {α : Type} {w a b : List α} {x : α} (h : w <:+: a ++ x :: b) :
    w <:+: a ∨ w <:+: b ∨ ∃ w₁ w₂, w = w₁ ++ x :: w₂ ∧ w₁ <:+ a ∧ w₂ <+: b := by
  obtain ⟨front, back, h⟩ := h
  rw [List.append_assoc] at h
  obtain ⟨mid, hfront, hrest⟩ | ⟨mid, ha, hrest⟩ := List.append_eq_append_iff.mp h
  · -- The word starts in `a`, or at the character.
    obtain ⟨last, hw, hback⟩ | ⟨last, hmid, hback⟩ := List.append_eq_append_iff.mp hrest
    · exact .inl ⟨front, last, by rw [hfront, hw, List.append_assoc]⟩
    · cases last with
      | nil =>
          rw [List.append_nil] at hmid
          exact .inl ⟨front, [], by rw [hfront, ← hmid, List.append_nil]⟩
      | cons y last =>
          obtain ⟨rfl, hb⟩ := List.cons.inj hback
          exact .inr (.inr ⟨mid, last, hmid, ⟨front, hfront.symm⟩, ⟨back, hb.symm⟩⟩)
  · cases mid with
    | nil =>
        cases w with
        | nil => exact .inl (List.nil_infix)
        | cons y w =>
            obtain ⟨rfl, hb⟩ := List.cons.inj hrest
            exact .inr (.inr ⟨[], w, rfl, List.nil_suffix, ⟨back, hb.symm⟩⟩)
    | cons y mid =>
        obtain ⟨rfl, hb⟩ := List.cons.inj hrest
        exact .inr (.inl ⟨mid, back, by rw [List.append_assoc]; exact hb.symm⟩)

/-- The length of the match at the start of a text, 0 where there is none. -/
structure Pattern where
  find : List Char → Nat
  find_le : ∀ text, find text ≤ text.length

inductive Piece
  | plain (c : Char)
  | found (text : List Char)
deriving DecidableEq

namespace Piece

def text : Piece → List Char
  | plain c => [c]
  | found m => m

def render (f : List Char → List Char) : Piece → List Char
  | plain c => [c]
  | found m => f m

end Piece

namespace Pattern

variable (p : Pattern)

/-- The pieces of a text, of which a match has already taken some characters. -/
def scanFrom : Nat → List Char → List Piece
  | _, [] => []
  | skip + 1, _ :: rest => scanFrom skip rest
  | 0, c :: rest =>
      match p.find (c :: rest) with
      | 0 => .plain c :: scanFrom 0 rest
      | n + 1 => .found ((c :: rest).take (n + 1)) :: scanFrom n rest

def scan (text : List Char) : List Piece := p.scanFrom 0 text

/-- The matches of a text. -/
def matchesIn (text : List Char) : List (List Char) :=
  (p.scan text).filterMap (fun piece => match piece with
    | .plain _ => none
    | .found m => some m)

def replaceAll (f : List Char → List Char) (text : List Char) : List Char :=
  (p.scan text).flatMap (Piece.render f)

/-! ## The pieces -/

theorem scanFrom_eq (skip : Nat) (text : List Char) :
    p.scanFrom skip text = p.scan (text.drop skip) := by
  induction skip generalizing text with
  | zero => rfl
  | succ skip ih =>
      cases text with
      | nil => rfl
      | cons c rest => exact ih rest

@[simp] theorem scan_nil : p.scan [] = [] := rfl

theorem scan_cons (c : Char) (rest : List Char) :
    p.scan (c :: rest) = match p.find (c :: rest) with
      | 0 => .plain c :: p.scan rest
      | n + 1 => .found ((c :: rest).take (n + 1)) :: p.scanFrom n rest := rfl

theorem scan_plain {c : Char} {rest : List Char} (h : p.find (c :: rest) = 0) :
    p.scan (c :: rest) = .plain c :: p.scan rest := by
  rw [scan_cons, h]

theorem scan_found {text : List Char} (h : 0 < p.find text) :
    p.scan text = .found (text.take (p.find text)) :: p.scan (text.drop (p.find text)) := by
  obtain ⟨n, hn⟩ : ∃ n, p.find text = n + 1 := ⟨p.find text - 1, by omega⟩
  cases text with
  | nil =>
      have hle := p.find_le []
      rw [List.length_nil] at hle
      omega
  | cons c rest =>
      rw [scan_cons, hn]
      simp only [scanFrom_eq, List.drop_succ_cons]

/-- Induction along the pieces of a text. -/
theorem scan_induction {P : List Char → Prop} (nil : P [])
    (plain : ∀ c rest, p.find (c :: rest) = 0 → P rest → P (c :: rest))
    (found : ∀ text, 0 < p.find text → P (text.drop (p.find text)) → P text)
    (text : List Char) : P text := by
  obtain ⟨n, hn⟩ : ∃ n, text.length ≤ n := ⟨_, le_rfl⟩
  induction n generalizing text with
  | zero =>
      obtain rfl : text = [] := List.length_eq_zero_iff.mp (by omega)
      exact nil
  | succ n ih =>
      cases text with
      | nil => exact nil
      | cons c rest =>
          simp only [List.length_cons] at hn
          cases hfind : p.find (c :: rest) with
          | zero => exact plain c rest hfind (ih rest (by omega))
          | succ m =>
              refine found _ (by omega) (ih _ ?_)
              rw [List.length_drop, List.length_cons]
              omega

/-- The pieces make up the text. -/
theorem scan_text (text : List Char) : (p.scan text).flatMap Piece.text = text := by
  induction text using p.scan_induction with
  | nil => simp
  | plain c rest hfind ih =>
      rw [p.scan_plain hfind, List.flatMap_cons, ih]
      rfl
  | found text hfind ih =>
      rw [p.scan_found hfind, List.flatMap_cons, ih]
      exact List.take_append_drop _ _

variable (f : List Char → List Char)

@[simp] theorem replaceAll_nil : p.replaceAll f [] = [] := by
  simp [replaceAll]

theorem replaceAll_plain {c : Char} {rest : List Char} (h : p.find (c :: rest) = 0) :
    p.replaceAll f (c :: rest) = c :: p.replaceAll f rest := by
  rw [replaceAll, p.scan_plain h]
  rfl

theorem replaceAll_found {text : List Char} (h : 0 < p.find text) :
    p.replaceAll f text =
      f (text.take (p.find text)) ++ p.replaceAll f (text.drop (p.find text)) := by
  rw [replaceAll, p.scan_found h]
  rfl

theorem matchesIn_nil : p.matchesIn [] = [] := by
  simp [matchesIn]

theorem matchesIn_plain {c : Char} {rest : List Char} (h : p.find (c :: rest) = 0) :
    p.matchesIn (c :: rest) = p.matchesIn rest := by
  rw [matchesIn, p.scan_plain h]
  rfl

theorem matchesIn_found {text : List Char} (h : 0 < p.find text) :
    p.matchesIn text = text.take (p.find text) :: p.matchesIn (text.drop (p.find text)) := by
  rw [matchesIn, p.scan_found h]
  rfl

/-! ## One replacement after the other -/

/-- One match is replaced, where it stands. -/
inductive Step : List Char → List Char → Prop
  | replace (before : List Char) {text : List Char} (h : 0 < p.find text) :
      Step (before ++ text) (before ++ (f (text.take (p.find text)) ++ text.drop (p.find text)))

inductive Steps : List Char → List Char → Prop
  | refl (text : List Char) : Steps text text
  | tail {text mid last : List Char} : Steps text mid → p.Step f mid last → Steps text last

variable {p f}

theorem Steps.trans {a b c : List Char} (hab : p.Steps f a b) (hbc : p.Steps f b c) :
    p.Steps f a c := by
  induction hbc with
  | refl => exact hab
  | tail _ hstep ih => exact .tail ih hstep

/-- What every replacement keeps, all of them keep. -/
theorem Steps.keeps {P : List Char → Prop} (hstep : ∀ a b, p.Step f a b → P a → P b)
    {a b : List Char} (h : p.Steps f a b) (ha : P a) : P b := by
  induction h with
  | refl => exact ha
  | tail _ hlast ih => exact hstep _ _ hlast ih

/-- The replacement of all matches goes by steps. -/
theorem steps_replaceAll (before text : List Char) :
    p.Steps f (before ++ text) (before ++ p.replaceAll f text) := by
  induction text using p.scan_induction generalizing before with
  | nil =>
      rw [replaceAll_nil]
      exact .refl _
  | plain c rest hfind ih =>
      rw [p.replaceAll_plain f hfind]
      simpa using ih (before ++ [c])
  | found text hfind ih =>
      have hfirst : p.Steps f (before ++ text)
          (before ++ (f (text.take (p.find text)) ++ text.drop (p.find text))) :=
        .tail (.refl _) (.replace before hfind)
      refine hfirst.trans ?_
      rw [p.replaceAll_found f hfind, ← List.append_assoc, ← List.append_assoc]
      exact ih (before ++ f (text.take (p.find text)))

end Pattern

end Lightfriend
