import Mathlib.Data.List.Nodup
import Mathlib.Data.List.Perm.Subperm

/-! # Saturation

Passes over a list of links until a pass changes nothing. A link is taken when
what it points at is reachable, and then it is reachable itself. The order of a
pass does not matter: what is taken in the end are the links that lead to the
root, and one pass more than there are links is enough.
-/

namespace Lightfriend

structure Saturation (κ : Type) where
  reachable : List κ
  selected : List κ
  changed : Bool

namespace Saturation

variable {α κ : Type}

def start (root : κ) : Saturation κ where
  reachable := [root]
  selected := []
  changed := false

def visit [DecidableEq κ] (key target : α → κ) (s : Saturation κ) (x : α) : Saturation κ :=
  if key x ∉ s.selected ∧ target x ∈ s.reachable then
    { reachable := key x :: s.reachable, selected := key x :: s.selected, changed := true }
  else s

def pass [DecidableEq κ] (key target : α → κ) (xs : List α) (s : Saturation κ) :
    Saturation κ :=
  xs.foldl (visit key target) { s with changed := false }

/-- The loop leaves at the first pass that changes nothing. -/
def saturate [DecidableEq κ] (key target : α → κ) (xs : List α) :
    Nat → Saturation κ → Option (Saturation κ)
  | 0, _ => none
  | fuel + 1, s =>
      if (pass key target xs s).changed then saturate key target xs fuel (pass key target xs s)
      else some (pass key target xs s)

theorem saturate_succ [DecidableEq κ] (key target : α → κ) (xs : List α) (fuel : Nat)
    (s : Saturation κ) :
    saturate key target xs (fuel + 1) s =
      if (pass key target xs s).changed then saturate key target xs fuel (pass key target xs s)
      else some (pass key target xs s) := rfl

/-! ## What leads to the root -/

inductive Leads (key target : α → κ) (xs : List α) (root : κ) : α → Prop
  | root {x : α} : x ∈ xs → target x = root → Leads key target xs root x
  | link {x y : α} : x ∈ xs → Leads key target xs root y → target x = key y →
      Leads key target xs root x

variable {key target : α → κ} {xs ys : List α} {root : κ} {s : Saturation κ} {x : α}

theorem Leads.mem (h : Leads key target xs root x) : x ∈ xs := by
  cases h with
  | root hmem _ => exact hmem
  | link hmem _ _ => exact hmem

theorem Leads.mono (hsub : xs ⊆ ys) (h : Leads key target xs root x) :
    Leads key target ys root x := by
  induction h with
  | root hmem htarget => exact .root (hsub hmem) htarget
  | link hmem _ htarget ih => exact .link (hsub hmem) ih htarget

structure Sound (key target : α → κ) (xs : List α) (root : κ) (s : Saturation κ) : Prop where
  reachable : ∀ k, k ∈ s.reachable ↔ k = root ∨ k ∈ s.selected
  leads : ∀ k ∈ s.selected, ∃ x, Leads key target xs root x ∧ key x = k
  nodup : s.selected.Nodup

theorem sound_start : Sound key target xs root (start root) where
  reachable := by
    intro k
    simp [start]
  leads := by
    intro k hk
    cases hk
  nodup := List.nodup_nil

/-- No more is taken than there are links. -/
theorem Sound.length_le (hs : Sound key target xs root s) : s.selected.length ≤ xs.length := by
  have hsub : s.selected ⊆ xs.map key := by
    intro k hk
    obtain ⟨x, hx, rfl⟩ := hs.leads k hk
    exact List.mem_map.mpr ⟨x, hx.mem, rfl⟩
  have hle := (List.subperm_of_subset hs.nodup hsub).length_le
  rwa [List.length_map] at hle

/-! ## One pass -/

variable [DecidableEq κ]

theorem visit_of_fires (h : key x ∉ s.selected ∧ target x ∈ s.reachable) :
    visit key target s x =
      { reachable := key x :: s.reachable, selected := key x :: s.selected, changed := true } :=
  if_pos h

theorem visit_of_not (h : ¬ (key x ∉ s.selected ∧ target x ∈ s.reachable)) :
    visit key target s x = s :=
  if_neg h

theorem Sound.visit (hs : Sound key target xs root s) (hx : x ∈ xs) :
    Sound key target xs root (visit key target s x) := by
  by_cases hfire : key x ∉ s.selected ∧ target x ∈ s.reachable
  · rw [visit_of_fires hfire]
    have hleads : Leads key target xs root x := by
      rcases (hs.reachable _).1 hfire.2 with hroot | hselected
      · exact .root hx hroot
      · obtain ⟨y, hy, hkey⟩ := hs.leads _ hselected
        exact .link hx hy hkey.symm
    refine ⟨?_, ?_, List.nodup_cons.mpr ⟨hfire.1, hs.nodup⟩⟩
    · intro k
      rw [List.mem_cons, List.mem_cons, hs.reachable k]
      tauto
    · intro k hk
      rcases List.mem_cons.mp hk with rfl | hk
      · exact ⟨x, hleads, rfl⟩
      · exact hs.leads k hk
  · rw [visit_of_not hfire]
    exact hs

theorem length_visit (s : Saturation κ) (x : α) :
    visit key target s x = s ∨ (visit key target s x).changed = true ∧
      s.selected.length < (visit key target s x).selected.length := by
  by_cases hfire : key x ∉ s.selected ∧ target x ∈ s.reachable
  · rw [visit_of_fires hfire]
    exact .inr ⟨rfl, Nat.lt_succ_self _⟩
  · exact .inl (visit_of_not hfire)

theorem Sound.foldl (hs : Sound key target xs root s) (hsub : ys ⊆ xs) :
    Sound key target xs root (ys.foldl (Saturation.visit key target) s) := by
  induction ys generalizing s with
  | nil => exact hs
  | cons y rest ih =>
      obtain ⟨hy, hrest⟩ := List.cons_subset.mp hsub
      exact ih (hs.visit hy) hrest

/-- A pass only adds, and says so when it does. -/
theorem foldl_visit (ys : List α) (s : Saturation κ) :
    ys.foldl (visit key target) s = s ∨ (ys.foldl (visit key target) s).changed = true ∧
      s.selected.length < (ys.foldl (visit key target) s).selected.length := by
  induction ys generalizing s with
  | nil => exact .inl rfl
  | cons y rest ih =>
      rw [List.foldl_cons]
      rcases length_visit s y with hstay | ⟨hchanged, hlt⟩
      · rw [hstay]
        exact ih s
      · right
        rcases ih (visit key target s y) with hstay | ⟨hlater, hle⟩
        · rw [hstay]
          exact ⟨hchanged, hlt⟩
        · exact ⟨hlater, Nat.lt_trans hlt hle⟩

/-- A pass that is told to have changed nothing left every link where it was. -/
theorem closed_of_unchanged (h : (ys.foldl (visit key target) s).changed = false) (hx : x ∈ ys)
    (htarget : target x ∈ s.reachable) : key x ∈ s.selected := by
  induction ys with
  | nil => cases hx
  | cons y rest ih =>
      rw [List.foldl_cons] at h
      rcases length_visit s y with hstay | ⟨hchanged, -⟩
      · rw [hstay] at h
        rcases List.mem_cons.mp hx with rfl | hx
        · by_contra hfree
          have hfired := congrArg (fun t => t.selected.length) hstay
          rw [visit_of_fires ⟨hfree, htarget⟩] at hfired
          exact absurd hfired (Nat.succ_ne_self _)
        · exact ih h hx
      · rcases foldl_visit rest (visit key target s y) with hstay | ⟨hlater, -⟩
        · rw [hstay, hchanged] at h
          cases h
        · rw [hlater] at h
          cases h

theorem Sound.pass (hs : Sound key target xs root s) :
    Sound key target xs root (pass key target xs s) :=
  Sound.foldl ⟨hs.reachable, hs.leads, hs.nodup⟩ (List.Subset.refl xs)

theorem pass_cases (xs : List α) (s : Saturation κ) :
    (pass key target xs s).changed = true ∧
        s.selected.length < (pass key target xs s).selected.length ∨
      (pass key target xs s).changed = false ∧
        ∀ x ∈ xs, target x ∈ (pass key target xs s).reachable →
          key x ∈ (pass key target xs s).selected := by
  rcases foldl_visit xs { s with changed := false } with hstay | hgrown
  · right
    have hpass : Saturation.pass key target xs s = { s with changed := false } := hstay
    refine ⟨by rw [hpass], ?_⟩
    intro x hx htarget
    have hunchanged : (Saturation.pass key target xs s).changed = false := by rw [hpass]
    rw [hpass] at htarget ⊢
    exact closed_of_unchanged hunchanged hx htarget
  · exact .inl hgrown

/-! ## The loop -/

theorem saturate_sound {fuel : Nat} (hs : Sound key target xs root s)
    (hfuel : xs.length < s.selected.length + fuel) :
    ∃ t, saturate key target xs fuel s = some t ∧ Sound key target xs root t ∧
      ∀ x ∈ xs, target x ∈ t.reachable → key x ∈ t.selected := by
  induction fuel generalizing s with
  | zero =>
      have hle := hs.length_le
      omega
  | succ fuel ih =>
      rw [saturate_succ]
      rcases pass_cases xs s with ⟨hchanged, hlt⟩ | ⟨hunchanged, hclosed⟩
      · rw [if_pos hchanged]
        exact ih hs.pass (by omega)
      · rw [if_neg (by rw [hunchanged]; exact Bool.false_ne_true)]
        exact ⟨_, rfl, hs.pass, hclosed⟩

/-- The loop comes to an end, and what it took leads to the root. -/
theorem saturate_spec (key target : α → κ) (xs : List α) (root : κ) :
    ∃ t, saturate key target xs (xs.length + 1) (start root) = some t ∧
      ∀ k, k ∈ t.selected ↔ ∃ x, Leads key target xs root x ∧ key x = k := by
  have hfuel : xs.length < (start root).selected.length + (xs.length + 1) := by simp [start]
  obtain ⟨t, hrun, hsound, hclosed⟩ :=
    @saturate_sound _ _ key target xs root _ _ _ sound_start hfuel
  refine ⟨t, hrun, fun k => ⟨hsound.leads k, ?_⟩⟩
  rintro ⟨x, hleads, rfl⟩
  induction hleads with
  | root hmem htarget =>
      exact hclosed _ hmem ((hsound.reachable _).2 (.inl htarget))
  | link hmem _ htarget ih =>
      exact hclosed _ hmem ((hsound.reachable _).2 (.inr (htarget ▸ ih)))

end Saturation

end Lightfriend
