import Mathlib.Tactic

/-! # Logs, newest entry first

A log grows at its head. What precedes an entry is the tail behind it, and what
follows it is the part before it.
-/

namespace Lightfriend.Log

variable {ε : Type}

/-- An entry of a grown log is the new one or an old one. -/
theorem cons_split {x y : ε} {log later earlier : List ε}
    (h : x :: log = later ++ y :: earlier) :
    (later = [] ∧ x = y ∧ log = earlier) ∨
      ∃ rest, later = x :: rest ∧ log = rest ++ y :: earlier := by
  cases later with
  | nil =>
      obtain ⟨hx, hlog⟩ := List.cons.inj h
      exact .inl ⟨rfl, hx, hlog⟩
  | cons z rest =>
      obtain ⟨rfl, hlog⟩ := List.cons.inj h
      exact .inr ⟨rest, rfl, hlog⟩

theorem mem_of_split {y : ε} {log later earlier : List ε} (h : log = later ++ y :: earlier) :
    y ∈ log := by
  rw [h]
  exact List.mem_append_right _ List.mem_cons_self

theorem mem_of_earlier {y z : ε} {log later earlier : List ε} (h : log = later ++ y :: earlier)
    (hz : z ∈ earlier) : z ∈ log := by
  rw [h]
  exact List.mem_append_right _ (List.mem_cons_of_mem _ hz)

/-- An entry that is not among the new ones is an old one. -/
theorem append_split {y : ε} {pre log later earlier : List ε} (hpre : y ∉ pre)
    (h : pre ++ log = later ++ y :: earlier) :
    ∃ rest, later = pre ++ rest ∧ log = rest ++ y :: earlier := by
  induction pre generalizing later with
  | nil => exact ⟨later, rfl, h⟩
  | cons z pre ih =>
      rcases cons_split h with ⟨-, heq, -⟩ | ⟨rest, rfl, hlog⟩
      · exact absurd (heq ▸ List.mem_cons_self) hpre
      · obtain ⟨more, rfl, hmore⟩ := ih (fun hy => hpre (List.mem_cons_of_mem _ hy)) hlog
        exact ⟨more, rfl, hmore⟩

/-- An entry that is not among those after `x` comes before `x`. -/
theorem later_of_not_mem {x y : ε} {log mid old later earlier : List ε}
    (hx : log = mid ++ x :: old) (hy : log = later ++ y :: earlier) (hmid : y ∉ mid)
    (hne : y ≠ x) : ∃ more, later = mid ++ x :: more ∧ old = more ++ y :: earlier := by
  rw [hx] at hy
  obtain ⟨rest, rfl, hrest⟩ := append_split hmid hy
  rcases cons_split hrest with ⟨-, heq, -⟩ | ⟨more, rfl, hold⟩
  · exact absurd heq.symm hne
  · exact ⟨more, rfl, hold⟩

/-- Of two different entries one comes before the other. -/
theorem before_or_after {x y : ε} {log : List ε} (hx : x ∈ log) (hy : y ∈ log) (hne : x ≠ y) :
    (∃ later earlier, log = later ++ y :: earlier ∧ x ∈ earlier) ∨
      ∃ later earlier, log = later ++ x :: earlier ∧ y ∈ earlier := by
  induction log with
  | nil => cases hx
  | cons z rest ih =>
      rcases List.mem_cons.mp hx with rfl | hxrest
      · rcases List.mem_cons.mp hy with rfl | hyrest
        · exact absurd rfl hne
        · exact .inr ⟨[], rest, rfl, hyrest⟩
      · rcases List.mem_cons.mp hy with rfl | hyrest
        · exact .inl ⟨[], rest, rfl, hxrest⟩
        · rcases ih hxrest hyrest with ⟨later, earlier, rfl, hin⟩ | ⟨later, earlier, rfl, hin⟩
          · exact .inl ⟨z :: later, earlier, rfl, hin⟩
          · exact .inr ⟨z :: later, earlier, rfl, hin⟩

section Since

variable [DecidableEq ε] {mark x : ε} {log : List ε}

/-- The entries after the last entry that is the mark. -/
def since (mark : ε) (log : List ε) : List ε := log.takeWhile (fun e => decide (e ≠ mark))

@[simp] theorem since_self : since mark (mark :: log) = [] := by simp [since]

theorem since_cons_of_ne (h : x ≠ mark) : since mark (x :: log) = x :: since mark log := by
  simp [since, h]

theorem mem_of_mem_since (h : x ∈ since mark log) : x ∈ log :=
  (List.takeWhile_sublist _).subset h

theorem since_append {new : List ε} (h : mark ∉ new) :
    since mark (new ++ log) = new ++ since mark log := by
  induction new with
  | nil => rfl
  | cons x rest ih =>
      rw [List.cons_append, since_cons_of_ne (List.ne_of_not_mem_cons h).symm,
        ih (List.not_mem_of_not_mem_cons h)]
      rfl

end Since

end Lightfriend.Log
