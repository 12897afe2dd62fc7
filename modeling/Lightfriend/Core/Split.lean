import Lightfriend.Core.Text

/-! # Texts in parts

A text is taken apart at a character, at a known start or end, or into lines.
-/

namespace Lightfriend.Text

/-- `str::split_once` with a character: the text before and behind the first one. -/
def splitOnce (c : Char) : List Char → Option (List Char × List Char)
  | [] => none
  | d :: rest =>
      if d = c then some ([], rest)
      else (splitOnce c rest).map (fun parts => (d :: parts.1, parts.2))

section Parts

variable {c : Char} {text a b : List Char}

theorem splitOnce_eq_some : splitOnce c text = some (a, b) ↔ text = a ++ c :: b ∧ c ∉ a := by
  induction text generalizing a with
  | nil => simp [splitOnce]
  | cons d rest ih =>
      rw [splitOnce]
      split
      next heq =>
        subst heq
        constructor
        · intro h
          cases h
          exact ⟨rfl, List.not_mem_nil⟩
        · rintro ⟨htext, hfree⟩
          cases a with
          | nil =>
              obtain ⟨-, rfl⟩ := List.cons.inj htext
              rfl
          | cons e a =>
              obtain ⟨rfl, -⟩ := List.cons.inj htext
              exact absurd List.mem_cons_self hfree
      next hne =>
        constructor
        · intro h
          obtain ⟨⟨a', b'⟩, hparts, heq⟩ := Option.map_eq_some_iff.mp h
          cases heq
          obtain ⟨rfl, hfree⟩ := ih.mp hparts
          refine ⟨rfl, ?_⟩
          rw [List.mem_cons, not_or]
          exact ⟨fun h => hne h.symm, hfree⟩
        · rintro ⟨htext, hfree⟩
          cases a with
          | nil => exact absurd (List.cons.inj htext).1 hne
          | cons e a =>
              obtain ⟨rfl, rfl⟩ := List.cons.inj htext
              rw [ih.mpr ⟨rfl, fun hmem => hfree (List.mem_cons_of_mem _ hmem)⟩]
              rfl

theorem dropPrefix_eq_some : text.dropPrefix? a = some b ↔ text = a ++ b := by
  rw [List.dropPrefix?_eq_some_iff]
  constructor
  · rintro ⟨p, rfl, hp⟩
    rw [beq_iff_eq.mp hp]
  · rintro rfl
    exact ⟨a, rfl, beq_self_eq_true a⟩

theorem dropSuffix_eq_some : text.dropSuffix? b = some a ↔ text = a ++ b := by
  rw [List.dropSuffix?_eq_some_iff]
  constructor
  · rintro ⟨p, rfl, hp⟩
    rw [beq_iff_eq.mp hp]
  · rintro rfl
    exact ⟨b, rfl, beq_self_eq_true b⟩

end Parts

/-! ## Joined lines -/

theorem linesFrom_append {line l : List Char} (hl : '\n' ∉ l) (text : List Char) :
    linesFrom line (l ++ text) = linesFrom (line ++ l) text := by
  induction l generalizing line with
  | nil => rw [List.append_nil, List.nil_append]
  | cons c rest ih =>
      rw [List.mem_cons, not_or] at hl
      rw [List.cons_append, linesFrom, if_neg (fun h => hl.1 h.symm), ih hl.2, List.append_assoc,
        List.singleton_append]

/-- Lines that say something and end in no carriage return are read back. -/
theorem lines_joinWith {ls : List (List Char)}
    (h : ∀ l ∈ ls, '\n' ∉ l ∧ l ≠ [] ∧ l.getLast? ≠ some '\r') : lines (joinWith '\n' ls) = ls := by
  unfold lines
  induction ls with
  | nil => rfl
  | cons l rest ih =>
      obtain ⟨hnewline, hne, hcr⟩ := h l List.mem_cons_self
      cases rest with
      | nil =>
          have hread := @linesFrom_append [] l hnewline []
          rw [List.append_nil, List.nil_append] at hread
          rw [joinWith, hread, linesFrom, if_neg (by simpa using hne)]
      | cons next rest =>
          have hstrip : stripCr l = l := if_neg hcr
          rw [joinWith, linesFrom_append hnewline, List.nil_append, linesFrom, if_pos rfl, hstrip,
            ih (fun l' hl' => h l' (List.mem_cons_of_mem _ hl'))]
          exact List.cons_ne_nil _ _

/-- The same with a line feed behind every line. -/
theorem lines_joinWith_newline {ls : List (List Char)}
    (h : ∀ l ∈ ls, '\n' ∉ l ∧ l.getLast? ≠ some '\r') (hne : ls ≠ []) :
    lines (joinWith '\n' ls ++ ['\n']) = ls := by
  unfold lines
  induction ls with
  | nil => exact absurd rfl hne
  | cons l rest ih =>
      obtain ⟨hnewline, hcr⟩ := h l List.mem_cons_self
      have hstrip : stripCr l = l := if_neg hcr
      cases rest with
      | nil =>
          rw [joinWith_singleton, linesFrom_append hnewline, List.nil_append, linesFrom_cons,
            if_pos rfl, hstrip]
          rfl
      | cons next rest =>
          rw [joinWith_cons_cons, List.append_assoc, linesFrom_append hnewline, List.nil_append,
            List.cons_append, linesFrom_cons, if_pos rfl, hstrip,
            ih (fun l' hl' => h l' (List.mem_cons_of_mem _ hl')) (List.cons_ne_nil _ _)]

/-- A partial map gives a list back where it gives each element back. -/
theorem filterMap_eq_self {α : Type} {f : α → Option α} {xs : List α} :
    xs.filterMap f = xs ↔ ∀ x ∈ xs, f x = some x := by
  induction xs with
  | nil => simp
  | cons x rest ih =>
      rw [List.forall_mem_cons, ← ih]
      cases hx : f x with
      | none =>
          rw [List.filterMap_cons_none hx]
          constructor
          · intro h
            have hlength := congrArg List.length h
            have hle := List.length_filterMap_le f rest
            rw [List.length_cons] at hlength
            omega
          · rintro ⟨h, -⟩
            cases h
      | some y =>
          rw [List.filterMap_cons_some hx, List.cons.injEq, Option.some.injEq]

end Lightfriend.Text
