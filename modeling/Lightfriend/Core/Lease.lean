import Mathlib.Tactic

/-! # Leases on record

A record names one owner and the time its lease ends. A holder believes a lease
it was granted until that time, whatever happens to the record. The record is
safe when every belief that has not run out is the one on record: then no two
owners hold the lease at once. The rules below are what taking over, renewing
and giving up a lease have to respect.
-/

namespace Lightfriend.Lease

variable {τ : Type} {clock : Int} {record : Option (τ × Int)} {claims : τ → Int → Prop}

/-- Every claim that has not run out is on record, and ends no later there. -/
def Recorded (clock : Int) (record : Option (τ × Int)) (claims : τ → Int → Prop) : Prop :=
  ∀ owner ends, claims owner ends → clock < ends →
    ∃ recorded, record = some (owner, recorded) ∧ ends ≤ recorded

/-- At the time `now` the record leaves the lease to `owner`. -/
def FreeFor (now : Int) (record : Option (τ × Int)) (owner : τ) : Prop :=
  ∀ other ends, record = some (other, ends) → ends ≤ now ∨ other = owner

theorem Recorded.exclusive (h : Recorded clock record claims) {a b : τ} {l m : Int}
    (ha : claims a l) (hb : claims b m) (hl : clock < l) (hm : clock < m) : a = b := by
  obtain ⟨_, hrecord, _⟩ := h a l ha hl
  obtain ⟨_, hrecord', _⟩ := h b m hb hm
  rw [hrecord] at hrecord'
  cases hrecord'
  rfl

/-- Time only ends leases. -/
theorem Recorded.tick (h : Recorded clock record claims) {now : Int} (hnow : clock ≤ now) :
    Recorded now record claims :=
  fun owner ends hclaim hends => h owner ends hclaim (lt_of_le_of_lt hnow hends)

/-- Claims may be given up while the record stays. -/
theorem Recorded.forget (h : Recorded clock record claims) {claims' : τ → Int → Prop}
    (hclaims : ∀ owner ends, claims' owner ends → claims owner ends) :
    Recorded clock record claims' :=
  fun owner ends hclaim hends => h owner ends (hclaims owner ends hclaim) hends

/-- Taking a lease that the record leaves to the taker: the others' claims have run out. -/
theorem Recorded.take (h : Recorded clock record claims) {now ends : Int} {owner : τ}
    {claims' : τ → Int → Prop} (hnow : now ≤ clock) (hfree : FreeFor now record owner)
    (hown : ∀ l, claims' owner l → l ≤ ends)
    (hclaims : ∀ other l, claims' other l → other ≠ owner → claims other l) :
    Recorded clock (some (owner, ends)) claims' := by
  intro other l hclaim hl
  by_cases hother : other = owner
  · subst hother
    exact ⟨ends, rfl, hown l hclaim⟩
  · obtain ⟨recorded, hrecord, hle⟩ := h other l (hclaims other l hclaim hother) hl
    rcases hfree other recorded hrecord with hexpired | hsame
    · omega
    · exact absurd hsame hother

/-- The owner gives up its claims, and the record with them. -/
theorem Recorded.release (h : Recorded clock record claims) {owner : τ}
    {claims' : τ → Int → Prop} (hrecord : ∀ other ends, record = some (other, ends) → other = owner)
    (hclaims : ∀ other l, claims' other l → claims other l ∧ other ≠ owner) :
    Recorded clock none claims' := by
  intro other l hclaim hl
  obtain ⟨hold, hne⟩ := hclaims other l hclaim
  obtain ⟨recorded, hrec, _⟩ := h other l hold hl
  exact absurd (hrecord other recorded hrec) hne

/-! ## Who took a record last

A record that does not name its owner belongs to whoever took it last; the history of the takers
is kept beside it, the newest first.
-/

section Takers

variable {κ : Type} [DecidableEq κ]

def lastTaker (takers : List (κ × τ)) (k : κ) : Option τ :=
  (takers.find? (fun t => t.1 = k)).map Prod.snd

theorem lastTaker_cons (takers : List (κ × τ)) (k k' : κ) (owner : τ) :
    lastTaker ((k, owner) :: takers) k' = if k = k' then some owner else lastTaker takers k' := by
  unfold lastTaker
  rw [List.find?_cons]
  by_cases heq : k = k'
  · simp [heq]
  · simp [heq]

end Takers

end Lightfriend.Lease
