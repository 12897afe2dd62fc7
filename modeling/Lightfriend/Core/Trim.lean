import Lightfriend.Core.Text

/-! # Trimmed texts -/

namespace Lightfriend.Text

/-- `str::trim_start`. -/
def trimStart (text : List Char) : List Char := text.dropWhile isWhitespace

/-- `str::trim`. -/
def trimText (text : List Char) : List Char := trimEndMatches isWhitespace (trimStart text)

theorem trimText_parts (text : List Char) :
    trimText text <+: trimStart text ∧ trimStart text <:+ text :=
  ⟨trimEndMatches_isPrefix _ _, List.dropWhile_suffix _⟩

theorem trimText_isInfix (text : List Char) : trimText text <:+: text :=
  (trimText_parts text).1.isInfix.trans (trimText_parts text).2.isInfix

theorem length_trimText_le (text : List Char) : (trimText text).length ≤ text.length :=
  (trimText_isInfix text).length_le

/-- A trimmed text ends with no blank. -/
theorem getLast_trimText {text : List Char} :
    ∀ c ∈ (trimText text).getLast?, isWhitespace c = false := by
  intro c hc
  unfold trimText trimEndMatches List.rdropWhile at hc
  rw [List.getLast?_reverse] at hc
  have hhead := List.head?_dropWhile_not isWhitespace (trimStart text).reverse
  rw [Option.mem_def.mp hc] at hhead
  simpa using hhead

/-- Nothing is cut from the end of a text that ends with no blank. -/
theorem trimText_of_getLast {text : List Char} (h : ∀ c ∈ text.getLast?, isWhitespace c = false) :
    trimText text = trimStart text := by
  unfold trimText trimEndMatches List.rdropWhile
  obtain hnil | ⟨c, hc⟩ : trimStart text = [] ∨ ∃ c, (trimStart text).getLast? = some c := by
    cases hlast : (trimStart text).getLast? with
    | none => exact .inl (List.getLast?_eq_none_iff.mp hlast)
    | some c => exact .inr ⟨c, rfl⟩
  · rw [hnil]
    rfl
  · obtain ⟨front, hfront⟩ := List.getLast?_eq_some_iff.mp hc
    obtain ⟨before, hbefore⟩ : trimStart text <:+ text := List.dropWhile_suffix _
    have hblank : isWhitespace c = false := by
      refine h c ?_
      rw [← hbefore, hfront, ← List.append_assoc, List.getLast?_append]
      rfl
    rw [hfront, List.reverse_append, List.reverse_singleton, List.singleton_append,
      List.dropWhile_cons_of_neg (by simp [hblank])]
    simp

theorem trimStart_eq_nil {text : List Char} (h : ∀ c ∈ text.getLast?, isWhitespace c = false)
    (hnil : trimStart text = []) : text = [] := by
  cases hlast : text.getLast? with
  | none => exact List.getLast?_eq_none_iff.mp hlast
  | some c =>
      have hblank := List.dropWhile_eq_nil_iff.mp hnil c (List.mem_of_getLast? hlast)
      rw [h c hlast] at hblank
      cases hblank

/-- The end of a text that ends with no blank ends with none. -/
theorem getLast_of_isSuffix {p : Char → Prop} {text back : List Char} (hends : back <:+ text)
    (h : ∀ c ∈ text.getLast?, p c) : ∀ c ∈ back.getLast?, p c := by
  intro c hc
  obtain ⟨front, rfl⟩ := hends
  refine h c ?_
  rw [List.getLast?_append, Option.mem_def.mp hc]
  rfl

/-- A text is trimmed when neither end of it is blank. -/
theorem trimText_of_ends {text : List Char} (hstart : ∀ c ∈ text.head?, isWhitespace c = false)
    (hend : ∀ c ∈ text.getLast?, isWhitespace c = false) : trimText text = text := by
  rw [trimText_of_getLast hend, trimStart]
  cases text with
  | nil => rfl
  | cons c rest => rw [List.dropWhile_cons_of_neg (by simp [hstart c rfl])]

theorem mem_dropWhile {c : Char} {text : List Char} (h : c ∈ text) (hc : isWhitespace c = false) :
    c ∈ text.dropWhile isWhitespace := by
  rw [← @List.takeWhile_append_dropWhile _ isWhitespace text, List.mem_append] at h
  refine h.resolve_left (fun htake => ?_)
  rw [List.mem_takeWhile_imp htake] at hc
  cases hc

/-- A character that is no blank stays. -/
theorem mem_trimText {c : Char} {text : List Char} (h : c ∈ text) (hc : isWhitespace c = false) :
    c ∈ trimText text := by
  unfold trimText trimEndMatches List.rdropWhile
  rw [List.mem_reverse]
  exact mem_dropWhile (List.mem_reverse.mpr (mem_dropWhile h hc)) hc

/-- A trimmed text starts with no blank. -/
theorem head_trimText {text : List Char} :
    ∀ c ∈ (trimText text).head?, isWhitespace c = false := by
  intro c hc
  obtain ⟨back, hback⟩ := (trimText_parts text).1
  have hhead := List.head?_dropWhile_not isWhitespace text
  rw [← trimStart, ← hback, List.head?_append, Option.mem_def.mp hc] at hhead
  simpa using hhead

theorem trimText_trimText (text : List Char) : trimText (trimText text) = trimText text :=
  trimText_of_ends head_trimText getLast_trimText

/-- A blank at the end is trimmed away. -/
theorem trimText_concat {c : Char} (hc : isWhitespace c = true) (text : List Char) :
    trimText (text ++ [c]) = trimText text := by
  unfold trimText trimStart trimEndMatches
  rw [List.dropWhile_append]
  split
  next hnil =>
    rw [List.isEmpty_iff.mp hnil, List.dropWhile_cons_of_pos hc, List.dropWhile_nil]
  next => exact List.rdropWhile_concat_pos _ _ _ hc

theorem trimText_stripCr (line : List Char) : trimText (stripCr line) = trimText line := by
  unfold stripCr
  split
  next hlast =>
    obtain ⟨front, rfl⟩ := List.getLast?_eq_some_iff.mp hlast
    rw [List.dropLast_concat, trimText_concat (by decide)]
  next => rfl

/-! ## Lines -/

/-- Up to blanks, the lines of two texts put on lines of their own are the lines of each. -/
theorem mem_linesFrom_append_newline {line a b l : List Char}
    (h : l ∈ linesFrom line (a ++ '\n' :: b)) :
    (∃ l' ∈ linesFrom line a, trimText l' = trimText l) ∨ trimText l = [] ∨ l ∈ lines b := by
  induction a generalizing line with
  | nil =>
      rw [List.nil_append, linesFrom_cons, if_pos rfl] at h
      rcases List.mem_cons.mp h with rfl | h
      · cases line with
        | nil => exact .inr (.inl rfl)
        | cons c rest =>
            left
            exact ⟨c :: rest, List.mem_singleton.mpr rfl, (trimText_stripCr _).symm⟩
      · exact .inr (.inr h)
  | cons c rest ih =>
      rw [List.cons_append, linesFrom_cons] at h
      rw [linesFrom_cons]
      split at h
      next hc =>
        rw [if_pos hc]
        rcases List.mem_cons.mp h with rfl | h
        · exact .inl ⟨_, List.mem_cons_self, rfl⟩
        · rcases ih h with ⟨l', hl', htrim⟩ | h
          · exact .inl ⟨l', List.mem_cons_of_mem _ hl', htrim⟩
          · exact .inr h
      next hc =>
        rw [if_neg hc]
        exact ih h

theorem mem_lines_joinWith {texts : List (List Char)} {l : List Char}
    (h : l ∈ lines (joinWith '\n' texts)) (hl : trimText l ≠ []) :
    ∃ text ∈ texts, ∃ l' ∈ lines text, trimText l' = trimText l := by
  induction texts with
  | nil => cases h
  | cons text rest ih =>
      cases rest with
      | nil => exact ⟨text, List.mem_cons_self, l, h, rfl⟩
      | cons next rest =>
          rcases mem_linesFrom_append_newline h with ⟨l', hl', htrim⟩ | hnil | hl'
          · exact ⟨text, List.mem_cons_self, l', hl', htrim⟩
          · exact absurd hnil hl
          · obtain ⟨t, ht, hfound⟩ := ih hl'
            exact ⟨t, List.mem_cons_of_mem _ ht, hfound⟩

end Lightfriend.Text
