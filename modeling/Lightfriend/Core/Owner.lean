import Mathlib.Tactic

/-! # Rows that belong to others

A store is kept apart for its users when what one of them does leaves the rows
of the others as they are. For the three kinds of statements this is a condition
on the rows that the statement touches.
-/

namespace Lightfriend.Owner

variable {ρ : Type} {owner : ρ → Int} {u : Int}

/-- The rows of the others, in order. -/
def others (owner : ρ → Int) (u : Int) (rows : List ρ) : List ρ :=
  rows.filter (fun r => owner r ≠ u)

theorem mem_others {rows : List ρ} {r : ρ} :
    r ∈ others owner u rows ↔ r ∈ rows ∧ owner r ≠ u := by
  simp [others]

/-- `INSERT` of an own row. -/
theorem others_insert {rows : List ρ} {row : ρ} (h : owner row = u) :
    others owner u (rows ++ [row]) = others owner u rows := by
  simp [others, h]

/-- `UPDATE` of own rows that leaves the owner as it is. -/
theorem others_update {rows : List ρ} {p : ρ → Bool} {set : ρ → ρ}
    (hp : ∀ r ∈ rows, p r = true → owner r = u) (hset : ∀ r, owner (set r) = owner r) :
    others owner u (rows.map (fun r => if p r then set r else r)) = others owner u rows := by
  induction rows with
  | nil => rfl
  | cons r rest ih =>
      have hrest := ih (fun r hr => hp r (List.mem_cons_of_mem _ hr))
      simp only [others, List.map_cons] at hrest ⊢
      cases hr : p r with
      | false =>
          rw [if_neg (by simp), List.filter_cons, List.filter_cons, hrest]
      | true =>
          have hown : owner r = u := hp r List.mem_cons_self hr
          rw [if_pos rfl, List.filter_cons_of_neg (by simp [hset, hown]),
            List.filter_cons_of_neg (by simp [hown]), hrest]

/-- `DELETE` of own rows. -/
theorem others_delete {rows : List ρ} {p : ρ → Bool}
    (hp : ∀ r ∈ rows, p r = true → owner r = u) :
    others owner u (rows.filter (fun r => !p r)) = others owner u rows := by
  unfold others
  rw [List.filter_filter]
  apply List.filter_congr
  intro r hr
  cases hrow : p r with
  | false => simp
  | true => simp [hp r hr hrow]

end Lightfriend.Owner
