import Mathlib.Tactic

/-! # Deletes that cascade

Some tables refer to another one, and a row goes together with a row that it
points to. The tables that are referred to do not refer to others themselves, so
that a delete reaches a table and those that refer to it, and no further.
-/

namespace Lightfriend.Cascade

/-- A foreign key with `ON DELETE CASCADE`: the column and the column that it points to. -/
structure Reference (τ ρ κ : Type) where
  parent : τ
  value : ρ → Option κ
  target : ρ → Option κ

structure Schema (τ ρ κ : Type) where
  reference : τ → Option (Reference τ ρ κ)
  flat : ∀ t ref, reference t = some ref → reference ref.parent = none

variable {τ ρ κ : Type} [DecidableEq τ] [DecidableEq κ] {S : Schema τ ρ κ}

/-- The row points to the other one; a column without a value points to none. -/
def Reference.points (ref : Reference τ ρ κ) (r p : ρ) : Bool :=
  (ref.value r).isSome && decide (ref.value r = ref.target p)

/-- The rows of all tables, none of which points to a row that is not there. -/
structure Store (S : Schema τ ρ κ) where
  rows : τ → List ρ
  integrity : ∀ t ref, S.reference t = some ref → ∀ r ∈ rows t, (ref.value r).isSome = true →
    ∃ p ∈ rows ref.parent, ref.points r p = true

namespace Store

/-- What is left of a table when rows of `from` are deleted. -/
def kept (db : Store S) (source : τ) (p : ρ → Bool) (t : τ) : List ρ :=
  if t = source then (db.rows t).filter (fun r => !p r)
  else
    match S.reference t with
    | none => db.rows t
    | some ref =>
        if ref.parent = source then
          (db.rows t).filter (fun r => !((db.rows source).filter p).any (ref.points r))
        else db.rows t

theorem mem_kept {db : Store S} {source t : τ} {p : ρ → Bool} {r : ρ} :
    r ∈ db.kept source p t ↔ r ∈ db.rows t ∧ (t = source → p r = false) ∧
      (t ≠ source → ∀ ref, S.reference t = some ref → ref.parent = source →
        ∀ q ∈ db.rows source, p q = true → ref.points r q = false) := by
  unfold kept
  split
  next hsame => simp [hsame]
  next hother =>
    split
    next hnone => simp [hother, hnone]
    next ref href =>
      split
      next hparent => simp [hother, href, hparent]
      next hparent => simp [hother, href, hparent]

theorem kept_sublist (db : Store S) (source : τ) (p : ρ → Bool) (t : τ) :
    (db.kept source p t).Sublist (db.rows t) := by
  unfold kept
  split
  · exact List.filter_sublist
  · split
    · exact List.Sublist.refl _
    · split
      · exact List.filter_sublist
      · exact List.Sublist.refl _

/-- `DELETE FROM source WHERE p`. -/
def deleteWhere (db : Store S) (source : τ) (p : ρ → Bool) : Store S where
  rows := db.kept source p
  integrity := by
    intro t ref href r hr hvalue
    obtain ⟨hin, hown, hcascade⟩ := mem_kept.1 hr
    obtain ⟨q, hq, hpoints⟩ := db.integrity t ref href r hin hvalue
    have hflat : S.reference ref.parent = none := S.flat t ref href
    refine ⟨q, mem_kept.2 ⟨hq, ?_, ?_⟩, hpoints⟩
    · intro hparent
      by_contra hgone
      have hchild : t ≠ source := by
        rintro rfl
        rw [hparent] at hflat
        rw [hflat] at href
        cases href
      have hnot := hcascade hchild ref href hparent q (hparent ▸ hq) (by simpa using hgone)
      rw [hpoints] at hnot
      cases hnot
    · intro _ other hother
      rw [hflat] at hother
      cases hother

/-- One delete after the other. -/
def deleteAll (p : ρ → Bool) : List τ → Store S → Store S
  | [], db => db
  | source :: rest, db => deleteAll p rest (db.deleteWhere source p)

theorem deleteAll_sublist (p : ρ → Bool) (sources : List τ) (db : Store S) (t : τ) :
    ((deleteAll p sources db).rows t).Sublist (db.rows t) := by
  induction sources generalizing db with
  | nil => exact List.Sublist.refl _
  | cons source rest ih => exact (ih _).trans (db.kept_sublist source p t)

/-- A row is left when it is in none of the deletes, and points to no row that is. -/
theorem mem_deleteAll {p : ρ → Bool} {sources : List τ} {db : Store S} {t : τ} {r : ρ} :
    r ∈ (deleteAll p sources db).rows t ↔ r ∈ db.rows t ∧ (t ∈ sources → p r = false) ∧
      ∀ ref, S.reference t = some ref → ref.parent ∈ sources →
        ∀ q ∈ db.rows ref.parent, p q = true → ref.points r q = false := by
  induction sources generalizing db with
  | nil => simp [deleteAll]
  | cons source rest ih =>
      show r ∈ (deleteAll p rest (db.deleteWhere source p)).rows t ↔ _
      rw [ih]
      show r ∈ db.kept source p t ∧ _ ∧ _ ↔ _
      rw [mem_kept]
      have hparents : ∀ ref, S.reference t = some ref → ∀ q, p q = true →
          (q ∈ (db.deleteWhere source p).rows ref.parent ↔
            q ∈ db.rows ref.parent ∧ ref.parent ≠ source) := by
        intro ref href q hq
        have hflat := S.flat t ref href
        show q ∈ db.kept source p ref.parent ↔ _
        rw [mem_kept]
        constructor
        · rintro ⟨hin, hown, -⟩
          refine ⟨hin, fun hsame => ?_⟩
          rw [hown hsame] at hq
          cases hq
        · rintro ⟨hin, hother⟩
          refine ⟨hin, fun hsame => absurd hsame hother, ?_⟩
          intro _ other hsome
          rw [hflat] at hsome
          cases hsome
      constructor
      · rintro ⟨⟨hin, hown, hcascade⟩, hrest, hpoints⟩
        refine ⟨hin, ?_, ?_⟩
        · intro hmem
          rcases List.mem_cons.mp hmem with hsame | hmem
          · exact hown hsame
          · exact hrest hmem
        · intro ref href hmem q hq hp
          by_cases hparent : ref.parent = source
          · have hchild : t ≠ source := by
              rintro rfl
              have hflat := S.flat t ref href
              rw [hparent, href] at hflat
              cases hflat
            exact hcascade hchild ref href hparent q (hparent ▸ hq) hp
          · have hlater := List.mem_of_ne_of_mem hparent hmem
            exact hpoints ref href hlater q ((hparents ref href q hp).mpr ⟨hq, hparent⟩) hp
      · rintro ⟨hin, hown, hpoints⟩
        refine ⟨⟨hin, fun hsame => hown (hsame ▸ List.mem_cons_self), ?_⟩, ?_, ?_⟩
        · intro _ ref href hparent q hq hp
          exact hpoints ref href (hparent ▸ List.mem_cons_self) q (hparent ▸ hq) hp
        · exact fun hmem => hown (List.mem_cons_of_mem _ hmem)
        · intro ref href hmem q hq hp
          exact hpoints ref href (List.mem_cons_of_mem _ hmem) q
            ((hparents ref href q hp).mp hq).1 hp

end Store

end Lightfriend.Cascade
