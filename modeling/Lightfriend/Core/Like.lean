import Mathlib.Data.List.Infix

/-! # LIKE patterns

The patterns of a database: `%` stands for any text, `_` for any character, and a
character behind a backslash for itself.
-/

namespace Lightfriend.Like

inductive Item
  | many
  | one
  | literal (c : Char)
deriving DecidableEq, Repr

def Item.ofChar (c : Char) : Item := if c = '%' then .many else if c = '_' then .one else .literal c

def items : List Char → List Item
  | [] => []
  | '\\' :: c :: rest => .literal c :: items rest
  | c :: rest => Item.ofChar c :: items rest

def matchItems : List Item → List Char → Bool
  | [], text => text.isEmpty
  | .many :: rest, text => text.tails.any (matchItems rest)
  | .one :: rest, _ :: text => matchItems rest text
  | .literal c :: rest, d :: text => d = c && matchItems rest text
  | _ :: _, [] => false

theorem matchItems_many_cons (rest : List Item) (text : List Char) :
    matchItems (.many :: rest) text = text.tails.any (matchItems rest) := rfl

theorem matchItems_one_cons (rest : List Item) (c : Char) (text : List Char) :
    matchItems (.one :: rest) (c :: text) = matchItems rest text := rfl

theorem matchItems_literal_cons (c d : Char) (rest : List Item) (text : List Char) :
    matchItems (.literal c :: rest) (d :: text) = (d = c && matchItems rest text) := rfl

theorem matchItems_literal_nil (c : Char) (rest : List Item) :
    matchItems (.literal c :: rest) [] = false := rfl

/-- `text LIKE pattern`. -/
def like (pattern text : List Char) : Bool := matchItems (items pattern) text

/-- The character stands for itself in a pattern. -/
def Plain (c : Char) : Prop := c ≠ '\\' ∧ c ≠ '%' ∧ c ≠ '_'

theorem items_plain {word : List Char} (h : ∀ c ∈ word, Plain c) (rest : List Char) :
    items (word ++ rest) = word.map .literal ++ items rest := by
  induction word with
  | nil => rfl
  | cons c word ih =>
      obtain ⟨hslash, hpercent, hunderscore⟩ := h c List.mem_cons_self
      have hitem : Item.ofChar c = .literal c := by
        rw [Item.ofChar, if_neg hpercent, if_neg hunderscore]
      rw [List.cons_append, List.map_cons, List.cons_append,
        ← ih (fun d hd => h d (List.mem_cons_of_mem _ hd)), items.eq_def]
      split
      next heq => cases heq
      next heq => exact absurd (List.cons.inj heq).1 hslash
      next heq =>
        obtain ⟨rfl, rfl⟩ := List.cons.inj heq
        rw [hitem]

theorem matchItems_literals {word text : List Char} {rest : List Item} :
    matchItems (word.map .literal ++ rest) text = true ↔
      ∃ tail, text = word ++ tail ∧ matchItems rest tail = true := by
  induction word generalizing text with
  | nil => simp
  | cons c word ih =>
      cases text with
      | nil => simp [matchItems_literal_nil]
      | cons d text =>
          rw [List.map_cons, List.cons_append, matchItems_literal_cons, Bool.and_eq_true, decide_eq_true_iff, ih]
          constructor
          · rintro ⟨rfl, tail, rfl, hrest⟩
            exact ⟨tail, rfl, hrest⟩
          · rintro ⟨tail, htext, hrest⟩
            obtain ⟨rfl, rfl⟩ := List.cons.inj htext
            exact ⟨rfl, tail, rfl, hrest⟩

theorem matchItems_one {text : List Char} {rest : List Item} :
    matchItems (.one :: rest) text = true ↔
      ∃ c tail, text = c :: tail ∧ matchItems rest tail = true := by
  cases text with
  | nil =>
      constructor
      · intro h
        cases h
      · rintro ⟨c, tail, htext, -⟩
        cases htext
  | cons c text =>
      rw [matchItems_one_cons]
      constructor
      · exact fun h => ⟨c, text, rfl, h⟩
      · rintro ⟨d, tail, htext, h⟩
        obtain ⟨rfl, rfl⟩ := List.cons.inj htext
        exact h

theorem matchItems_many (text : List Char) : matchItems [.many] text = true := by
  rw [matchItems_many_cons, List.any_eq_true]
  exact ⟨[], (List.mem_tails _ _).mpr List.nil_suffix, rfl⟩

end Lightfriend.Like
