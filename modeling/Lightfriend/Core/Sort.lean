import Lightfriend.Core.Table

/-! # Sorting by a key

A stable sort keeps the rows of one key in their order, so that what is selected
from the sorted rows is the sorted selection.
-/

namespace Lightfriend

section

variable {ρ : Type} {κ : Type} [LinearOrder κ] {key : ρ → κ} {rows : List ρ}

theorem perm_orderBy {le : ρ → ρ → Prop} [DecidableRel le] (rows : List ρ) :
    (orderBy le rows).Perm rows :=
  List.perm_insertionSort le rows

/-- The rows of an order that is total are sorted by it. -/
theorem pairwise_orderBy {le : ρ → ρ → Prop} [DecidableRel le] (total : ∀ a b, le a b ∨ le b a)
    (trans : ∀ a b c, le a b → le b c → le a c) (rows : List ρ) :
    (orderBy le rows).Pairwise le := by
  have htotal : Std.Total le := ⟨total⟩
  have htrans : IsTrans ρ le := ⟨trans⟩
  exact List.pairwise_insertionSort le rows

theorem orderBy_of_pairwise {le : ρ → ρ → Prop} [DecidableRel le] (h : rows.Pairwise le) :
    orderBy le rows = rows :=
  h.insertionSort_eq

theorem filter_orderedInsert {le : ρ → ρ → Prop} [DecidableRel le]
    (trans : ∀ a b c, le a b → le b c → le a c) (p : ρ → Bool) (r : ρ) (h : rows.Pairwise le) :
    (rows.orderedInsert le r).filter p =
      if p r then (rows.filter p).orderedInsert le r else rows.filter p := by
  induction rows with
  | nil => cases hr : p r <;> simp [hr]
  | cons s rest ih =>
      obtain ⟨hs, hrest⟩ := List.pairwise_cons.mp h
      by_cases hle : le r s
      · rw [List.orderedInsert_cons_of_le _ _ hle, List.filter_cons]
        split
        · have hall : ∀ b ∈ (s :: rest).filter p, le r b := by
            intro b hb
            rcases List.mem_cons.mp (List.mem_filter.mp hb).1 with rfl | hmem
            · exact hle
            · exact trans _ _ _ hle (hs b hmem)
          cases hkept : (s :: rest).filter p with
          | nil => rfl
          | cons b kept =>
              rw [List.orderedInsert_cons_of_le _ _
                (hall b (hkept ▸ List.mem_cons_self))]
        · rfl
      · rw [List.orderedInsert_cons, if_neg hle, List.filter_cons, List.filter_cons, ih hrest]
        by_cases hp : p s = true
        · rw [if_pos hp, if_pos hp]
          split
          · rw [List.orderedInsert_cons, if_neg hle]
          · rfl
        · rw [if_neg hp, if_neg hp]

/-- Selecting from the sorted rows sorts the selection. -/
theorem filter_orderBy {le : ρ → ρ → Prop} [DecidableRel le] (total : ∀ a b, le a b ∨ le b a)
    (trans : ∀ a b c, le a b → le b c → le a c) (p : ρ → Bool) (rows : List ρ) :
    (orderBy le rows).filter p = orderBy le (rows.filter p) := by
  induction rows with
  | nil => rfl
  | cons r rest ih =>
      have hsorted := pairwise_orderBy total trans rest
      have hcons : orderBy le (r :: rest) = (orderBy le rest).orderedInsert le r := rfl
      rw [hcons, filter_orderedInsert trans p r hsorted, ih, List.filter_cons]
      split
      · rfl
      · rfl

/-- Sorted rows are those before a key and the others. -/
theorem filter_lt_append (bound : κ) (h : rows.Pairwise (fun a b => key a ≤ key b)) :
    rows.filter (fun r => key r < bound) ++ rows.filter (fun r => bound ≤ key r) = rows := by
  induction rows with
  | nil => rfl
  | cons r rest ih =>
      obtain ⟨hr, hrest⟩ := List.pairwise_cons.mp h
      by_cases hlt : key r < bound
      · have hle : ¬ bound ≤ key r := not_le.mpr hlt
        rw [List.filter_cons, List.filter_cons, if_pos (decide_eq_true hlt),
          if_neg (by simpa using hlt), List.cons_append, ih hrest]
      · have hnone : rest.filter (fun r => key r < bound) = [] := by
          rw [List.filter_eq_nil_iff]
          intro s hs
          have hge := le_trans (not_lt.mp hlt) (hr s hs)
          simpa using hge
        have hall : rest.filter (fun r => bound ≤ key r) = rest := by
          rw [List.filter_eq_self]
          intro s hs
          exact decide_eq_true (le_trans (not_lt.mp hlt) (hr s hs))
        rw [List.filter_cons, List.filter_cons, if_neg (by simpa using hlt),
          if_pos (decide_eq_true (not_lt.mp hlt)), hnone, hall, List.nil_append]

/-- The keys of sorted rows do not depend on the order of equal ones. -/
theorem map_key_eq_of_perm {rows' : List ρ} (hperm : rows.Perm rows')
    (h : rows.Pairwise (fun a b => key a ≤ key b))
    (h' : rows'.Pairwise (fun a b => key a ≤ key b)) : rows.map key = rows'.map key := by
  have hsorted : (rows.map key).Pairwise (fun a b : κ => a ≤ b) := List.pairwise_map.mpr h
  have hsorted' : (rows'.map key).Pairwise (fun a b : κ => a ≤ b) := List.pairwise_map.mpr h'
  exact List.Perm.eq_of_pairwise (fun a b _ _ => le_antisymm) hsorted hsorted' (hperm.map key)

end

/-! ## One row for a group -/

section Groups

variable {ρ γ : Type} [DecidableEq γ] {group : ρ → γ} {le : ρ → ρ → Prop} {rows : List ρ}

theorem firstPerGroup_sublist (rows : List ρ) : List.Sublist (firstPerGroup group rows) rows := by
  induction rows with
  | nil => exact List.Sublist.refl []
  | cons r rest ih => exact (List.filter_sublist.trans ih).cons_cons r

theorem firstPerGroup_of_nodup (h : (rows.map group).Nodup) : firstPerGroup group rows = rows := by
  induction rows with
  | nil => rfl
  | cons r rest ih =>
      obtain ⟨hr, hrest⟩ := List.nodup_cons.mp h
      rw [firstPerGroup, ih hrest, List.filter_eq_self.mpr]
      intro s hs
      exact decide_eq_true (fun heq => hr (heq ▸ List.mem_map_of_mem hs))

theorem filter_firstPerGroup (k : γ) (rows : List ρ) :
    (firstPerGroup group rows).filter (fun r => group r ≠ k) =
      firstPerGroup group (rows.filter (fun r => group r ≠ k)) := by
  induction rows with
  | nil => rfl
  | cons r rest ih =>
      rw [firstPerGroup, List.filter_cons, List.filter_cons]
      by_cases hk : group r = k
      · rw [if_neg (by simpa using hk), if_neg (by simpa using hk), ← ih, List.filter_filter, hk]
        simp
      · rw [if_pos (by simpa using hk), if_pos (by simpa using hk), firstPerGroup, ← ih,
          List.filter_filter, List.filter_filter]
        congr 1
        refine List.filter_congr ?_
        intro s hs
        exact Bool.and_comm _ _

/-- For each row there is one of its group that does not come after it. -/
theorem exists_firstPerGroup_le (refl : ∀ r, le r r) (h : rows.Pairwise le) {r : ρ}
    (hr : r ∈ rows) : ∃ s ∈ firstPerGroup group rows, group s = group r ∧ le s r := by
  induction rows with
  | nil => cases hr
  | cons first rest ih =>
      obtain ⟨hfirst, hrest⟩ := List.pairwise_cons.mp h
      rcases List.mem_cons.mp hr with rfl | hr
      · exact ⟨r, List.mem_cons_self, rfl, refl r⟩
      · by_cases hgroup : group first = group r
        · exact ⟨first, List.mem_cons_self, hgroup, hfirst r hr⟩
        · obtain ⟨s, hs, heq, hle⟩ := ih hrest hr
          refine ⟨s, List.mem_cons_of_mem _ (List.mem_filter.mpr ⟨hs, ?_⟩), heq, hle⟩
          rw [heq]
          exact decide_eq_true (Ne.symm hgroup)

/-- A row that comes after one of its group changes nothing. -/
theorem firstPerGroup_orderedInsert [DecidableRel le]
    (trans : ∀ a b c, le a b → le b c → le a c) {d c : ρ} (h : rows.Pairwise le)
    (hc : c ∈ rows) (hgroup : group c = group d) (hafter : ¬ le d c) :
    firstPerGroup group (rows.orderedInsert le d) = firstPerGroup group rows := by
  induction rows with
  | nil => cases hc
  | cons r rest ih =>
      obtain ⟨hr, hrest⟩ := List.pairwise_cons.mp h
      have hle : ¬ le d r := by
        intro hle
        rcases List.mem_cons.mp hc with rfl | hc
        · exact hafter hle
        · exact hafter (trans _ _ _ hle (hr c hc))
      rw [List.orderedInsert_cons, if_neg hle, firstPerGroup, firstPerGroup]
      by_cases hsame : group r = group d
      · have hskip : (rest.orderedInsert le d).filter (fun s => group s ≠ group r) =
            rest.filter (fun s => group s ≠ group r) := by
          rw [filter_orderedInsert trans _ _ hrest, if_neg (by simp [hsame])]
        rw [filter_firstPerGroup, filter_firstPerGroup, hskip]
      · have hrest' : c ∈ rest := by
          rcases List.mem_cons.mp hc with rfl | hc
          · exact absurd hgroup hsame
          · exact hc
        rw [ih hrest hrest']

end Groups

end Lightfriend
