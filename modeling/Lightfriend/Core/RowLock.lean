import Mathlib.Tactic

/-! # One row under concurrent transactions

An update inside a transaction changes a version of the row that only its
transaction sees, and locks the row until the transaction commits or rolls
back. Every other reader sees the committed version. An update whose filter
matches the committed version waits for a foreign lock; one whose filter does
not match passes it by.
-/

namespace Lightfriend

structure LockedRow (ρ : Type) where
  committed : ρ
  /-- The transaction that holds the lock, and its version. -/
  working : Option (Nat × ρ)

namespace LockedRow

variable {ρ : Type}

/-- The version that a transaction sees. -/
def view (t : LockedRow ρ) (owner : Nat) : ρ :=
  match t.working with
  | none => t.committed
  | some (holder, row) => if holder = owner then row else t.committed

/-- Another transaction holds the lock. -/
def heldByOther (t : LockedRow ρ) (owner : Nat) : Bool :=
  match t.working with
  | none => false
  | some (holder, _) => holder ≠ owner

/-- The update has to wait. -/
def waits (t : LockedRow ρ) (owner : Nat) (p : ρ → Bool) : Bool :=
  t.heldByOther owner && p t.committed

/-- `UPDATE .. SET .. WHERE ..` inside the transaction, and whether it affected the row. -/
def update (t : LockedRow ρ) (owner : Nat) (p : ρ → Bool) (set : ρ → ρ) : LockedRow ρ × Bool :=
  if p (t.view owner) && !t.heldByOther owner then
    ({ t with working := some (owner, set (t.view owner)) }, true)
  else (t, false)

def commit (t : LockedRow ρ) (owner : Nat) : LockedRow ρ :=
  if t.heldByOther owner then t else ⟨t.view owner, none⟩

def rollback (t : LockedRow ρ) (owner : Nat) : LockedRow ρ :=
  if t.heldByOther owner then t else { t with working := none }

/-- A property of the committed version and a relation of it to the version of the holder. -/
structure Holds (p : ρ → Prop) (rel : ρ → ρ → Prop) (t : LockedRow ρ) : Prop where
  committed : p t.committed
  working : ∀ holder row, t.working = some (holder, row) → p row ∧ rel t.committed row

variable {p : ρ → Prop} {rel : ρ → ρ → Prop} {t : LockedRow ρ}

theorem Holds.view (h : t.Holds p rel) (hrefl : ∀ r, rel r r) (owner : Nat) :
    p (t.view owner) ∧ rel t.committed (t.view owner) := by
  unfold LockedRow.view
  cases hworking : t.working with
  | none => exact ⟨h.committed, hrefl _⟩
  | some pair =>
      obtain ⟨holder, row⟩ := pair
      simp only
      split
      · exact h.working holder row hworking
      · exact ⟨h.committed, hrefl _⟩

/-- An update that affects the row writes its transaction's version only. -/
theorem update_cases (t : LockedRow ρ) (owner : Nat) (q : ρ → Bool) (set : ρ → ρ) :
    t.update owner q set = (t, false) ∨
      q (t.view owner) = true ∧
        t.update owner q set = ({ t with working := some (owner, set (t.view owner)) }, true) := by
  unfold update
  split
  next h =>
    rw [Bool.and_eq_true] at h
    exact Or.inr ⟨h.1, rfl⟩
  next => exact Or.inl rfl

theorem Holds.update (h : t.Holds p rel) (hrefl : ∀ r, rel r r) {owner : Nat} {q : ρ → Bool}
    {set : ρ → ρ} (hset : q (t.view owner) = true → p (t.view owner) →
      rel t.committed (t.view owner) → p (set (t.view owner)) ∧
        rel t.committed (set (t.view owner))) :
    (t.update owner q set).1.Holds p rel := by
  rcases t.update_cases owner q set with hsame | ⟨hmatch, hupdate⟩
  · rw [hsame]
    exact h
  · rw [hupdate]
    obtain ⟨hp, hrel⟩ := h.view hrefl owner
    refine ⟨h.committed, fun holder row heq => ?_⟩
    cases heq
    exact hset hmatch hp hrel

theorem Holds.commit (h : t.Holds p rel) (hrefl : ∀ r, rel r r) (owner : Nat) :
    (t.commit owner).Holds p rel := by
  unfold LockedRow.commit
  split
  · exact h
  · exact ⟨(h.view hrefl owner).1, fun holder row heq => by cases heq⟩

theorem Holds.rollback (h : t.Holds p rel) (owner : Nat) : (t.rollback owner).Holds p rel := by
  unfold LockedRow.rollback
  split
  · exact h
  · exact ⟨h.committed, fun holder row heq => by cases heq⟩

theorem update_committed (t : LockedRow ρ) (owner : Nat) (q : ρ → Bool) (set : ρ → ρ) :
    (t.update owner q set).1.committed = t.committed := by
  rcases t.update_cases owner q set with hsame | ⟨_, hupdate⟩
  · rw [hsame]
  · rw [hupdate]

theorem rollback_committed (t : LockedRow ρ) (owner : Nat) :
    (t.rollback owner).committed = t.committed := by
  unfold LockedRow.rollback
  split <;> rfl

/-- What a commit makes visible stands in the relation to what was committed before. -/
theorem Holds.commit_rel (h : t.Holds p rel) (hrefl : ∀ r, rel r r) (owner : Nat) :
    rel t.committed (t.commit owner).committed := by
  unfold LockedRow.commit
  split
  · exact hrefl _
  · exact (h.view hrefl owner).2

end LockedRow

end Lightfriend
