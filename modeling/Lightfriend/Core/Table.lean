import Mathlib.Data.List.Nodup
import Mathlib.Data.List.Sort
import Mathlib.Data.List.Dedup
import Mathlib.Tactic

/-! # Relational tables with a unique key

A table is the list of its rows together with the proof that no two rows share
their key. Every statement below keeps that proof, so a table with a violated
unique constraint cannot be built. The order of the rows is the physical order
of the store and means nothing: `reorder` replaces it by any other one.
-/

namespace Lightfriend

/-- The rows of a table, no two of them with the same key. -/
structure Table (ρ κ : Type) (key : ρ → κ) where
  rows : List ρ
  unique : (rows.map key).Nodup

namespace Table

variable {ρ κ : Type} {key : ρ → κ}

instance : Membership ρ (Table ρ κ key) where
  mem t r := r ∈ t.rows

instance [DecidableEq ρ] (r : ρ) (t : Table ρ κ key) : Decidable (r ∈ t) :=
  inferInstanceAs (Decidable (r ∈ t.rows))

theorem mem_def {t : Table ρ κ key} {r : ρ} : r ∈ t ↔ r ∈ t.rows := Iff.rfl

@[simp] theorem mem_rows {t : Table ρ κ key} {r : ρ} : r ∈ t.rows ↔ r ∈ t := Iff.rfl

/-- The table without rows. -/
def empty : Table ρ κ key := ⟨[], List.nodup_nil⟩

@[simp] theorem empty_rows : (empty : Table ρ κ key).rows = [] := rfl

@[simp] theorem not_mem_empty (r : ρ) : r ∉ (empty : Table ρ κ key) := by
  simp [mem_def]

theorem eq_of_key_eq {t : Table ρ κ key} {r s : ρ} (hr : r ∈ t) (hs : s ∈ t)
    (h : key r = key s) : r = s :=
  List.inj_on_of_nodup_map t.unique hr hs h

/-! ## Statements -/

/-- `UPDATE .. SET .. WHERE ..`: rewrite the rows that satisfy `p`. The key column is not
among the columns set. -/
def updateWhere (t : Table ρ κ key) (p : ρ → Bool) (set : ρ → ρ)
    (hkey : ∀ r, key (set r) = key r) : Table ρ κ key where
  rows := t.rows.map (fun r => if p r then set r else r)
  unique := by
    have h : ∀ r, key (if p r then set r else r) = key r := by
      intro r
      split
      · exact hkey r
      · rfl
    simpa only [List.map_map, Function.comp_def, h] using t.unique

/-- `DELETE .. WHERE ..`. -/
def deleteWhere (t : Table ρ κ key) (p : ρ → Bool) : Table ρ κ key where
  rows := t.rows.filter (fun r => !p r)
  unique := t.unique.sublist (List.filter_sublist.map key)

/-- Is the key taken by a row of the table? -/
def HasKey (t : Table ρ κ key) (k : κ) : Prop := k ∈ t.rows.map key

instance [DecidableEq κ] (t : Table ρ κ key) (k : κ) : Decidable (t.HasKey k) :=
  inferInstanceAs (Decidable (k ∈ t.rows.map key))

/-- Add a row whose key is free. -/
def insert (t : Table ρ κ key) (row : ρ) (hfree : ¬ t.HasKey (key row)) : Table ρ κ key where
  rows := t.rows ++ [row]
  unique := by
    rw [List.map_append, List.nodup_append]
    refine ⟨t.unique, by simp, ?_⟩
    intro a ha b hb hab
    have hbrow : b = key row := by simpa using hb
    exact hfree (by rw [HasKey, ← hbrow, ← hab]; exact ha)

section DecidableKey

variable [DecidableEq κ]

/-- `INSERT .. ON CONFLICT (key) DO NOTHING`. -/
def insertOrIgnore (t : Table ρ κ key) (row : ρ) : Table ρ κ key :=
  if h : t.HasKey (key row) then t else t.insert row h

/-- `INSERT .. ON CONFLICT (key) DO UPDATE SET ..`. -/
def upsert (t : Table ρ κ key) (row : ρ) (set : ρ → ρ) (hkey : ∀ r, key (set r) = key r) :
    Table ρ κ key :=
  if h : t.HasKey (key row) then t.updateWhere (fun r => key r = key row) set hkey
  else t.insert row h

/-- `SELECT .. WHERE key = ..`. -/
def find? (t : Table ρ κ key) (k : κ) : Option ρ := t.rows.find? (fun r => key r = k)

end DecidableKey

/-- The same rows in another physical order. -/
def reorder (t : Table ρ κ key) (rows : List ρ) (h : rows.Perm t.rows) : Table ρ κ key where
  rows := rows
  unique := (h.map key).nodup_iff.mpr t.unique

/-! ## What the statements leave in the table -/

theorem mem_updateWhere {t : Table ρ κ key} {p : ρ → Bool} {set : ρ → ρ}
    (hkey : ∀ r, key (set r) = key r) {r : ρ} :
    r ∈ t.updateWhere p set hkey ↔ ∃ old ∈ t, r = if p old then set old else old := by
  rw [mem_def]
  simp only [updateWhere, List.mem_map, mem_rows, eq_comm]

@[simp] theorem mem_deleteWhere {t : Table ρ κ key} {p : ρ → Bool} {r : ρ} :
    r ∈ t.deleteWhere p ↔ r ∈ t ∧ p r = false := by
  rw [mem_def]
  simp [deleteWhere]

@[simp] theorem mem_insert {t : Table ρ κ key} {row r : ρ} {h : ¬ t.HasKey (key row)} :
    r ∈ t.insert row h ↔ r ∈ t ∨ r = row := by
  rw [mem_def]
  simp [insert]

@[simp] theorem mem_reorder {t : Table ρ κ key} {rows : List ρ} {h : rows.Perm t.rows} {r : ρ} :
    r ∈ t.reorder rows h ↔ r ∈ t :=
  h.mem_iff

theorem hasKey_iff {t : Table ρ κ key} {k : κ} : t.HasKey k ↔ ∃ r ∈ t, key r = k := by
  simp [HasKey]

theorem hasKey_of_mem {t : Table ρ κ key} {r : ρ} (h : r ∈ t) : t.HasKey (key r) :=
  hasKey_iff.2 ⟨r, h, rfl⟩

theorem ext_rows {t u : Table ρ κ key} (h : t.rows = u.rows) : t = u := by
  cases t
  cases u
  cases h
  rfl

/-- An update whose filter matches no row does nothing. -/
theorem updateWhere_of_none {t : Table ρ κ key} {p : ρ → Bool} {set : ρ → ρ}
    {hkey : ∀ r, key (set r) = key r} (h : ∀ r ∈ t, p r = false) :
    t.updateWhere p set hkey = t := by
  apply ext_rows
  simp only [updateWhere]
  refine (List.map_congr_left (fun r hr => ?_)).trans (List.map_id _)
  rw [h r hr]
  rfl

/-- A row that the filter does not match is left as it is. -/
theorem mem_updateWhere_of_false {t : Table ρ κ key} {p : ρ → Bool} {set : ρ → ρ}
    (hkey : ∀ r, key (set r) = key r) {r : ρ} (hr : r ∈ t) (hp : p r = false) :
    r ∈ t.updateWhere p set hkey :=
  (mem_updateWhere hkey).mpr ⟨r, hr, by simp [hp]⟩

/-- An update keeps every row up to the columns it sets. -/
theorem exists_updateWhere {t : Table ρ κ key} {p : ρ → Bool} {set : ρ → ρ}
    (hkey : ∀ r, key (set r) = key r) {r : ρ} (h : r ∈ t) :
    (if p r then set r else r) ∈ t.updateWhere p set hkey := by
  rw [mem_def]
  simp only [updateWhere, List.mem_map]
  exact ⟨r, h, rfl⟩

@[simp] theorem hasKey_updateWhere {t : Table ρ κ key} {p : ρ → Bool} {set : ρ → ρ}
    {hkey : ∀ r, key (set r) = key r} {k : κ} :
    (t.updateWhere p set hkey).HasKey k ↔ t.HasKey k := by
  simp only [hasKey_iff]
  constructor
  · rintro ⟨r, hr, hk⟩
    obtain ⟨old, hold, rfl⟩ := (mem_updateWhere hkey).mp hr
    refine ⟨old, hold, ?_⟩
    split at hk
    · rwa [hkey] at hk
    · exact hk
  · rintro ⟨r, hr, hk⟩
    refine ⟨_, exists_updateWhere hkey hr, ?_⟩
    split
    · rw [hkey, hk]
    · exact hk

section DecidableKey

variable [DecidableEq κ]

theorem mem_insertOrIgnore {t : Table ρ κ key} {row r : ρ} :
    r ∈ t.insertOrIgnore row ↔ r ∈ t ∨ (¬ t.HasKey (key row) ∧ r = row) := by
  unfold insertOrIgnore
  split
  next h => simp [h]
  next h => simp [h]

theorem hasKey_insertOrIgnore (t : Table ρ κ key) (row : ρ) :
    (t.insertOrIgnore row).HasKey (key row) := by
  unfold insertOrIgnore
  split
  next h => exact h
  next h => exact hasKey_of_mem (mem_insert.2 (Or.inr rfl))

theorem mem_upsert {t : Table ρ κ key} {row r : ρ} {set : ρ → ρ}
    (hkey : ∀ r, key (set r) = key r) :
    r ∈ t.upsert row set hkey ↔
      (∃ old ∈ t, r = if key old = key row then set old else old) ∨
        (¬ t.HasKey (key row) ∧ r = row) := by
  unfold upsert
  split
  next h =>
    rw [mem_updateWhere]
    simp [h]
  next h =>
    have hne : ∀ old ∈ t, key old ≠ key row :=
      fun old hold hk => h (hasKey_iff.2 ⟨old, hold, hk⟩)
    rw [mem_insert]
    constructor
    · intro hr
      rcases hr with hr | hr
      · exact Or.inl ⟨r, hr, (if_neg (hne r hr)).symm⟩
      · exact Or.inr ⟨h, hr⟩
    · intro hr
      rcases hr with ⟨old, hold, heq⟩ | ⟨_, hr⟩
      · rw [if_neg (hne old hold)] at heq
        exact Or.inl (heq ▸ hold)
      · exact Or.inr hr

theorem find?_eq_some_iff {t : Table ρ κ key} {k : κ} {r : ρ} :
    t.find? k = some r ↔ r ∈ t ∧ key r = k := by
  unfold find?
  constructor
  · intro h
    exact ⟨List.mem_of_find?_eq_some h, by simpa using List.find?_some h⟩
  · rintro ⟨hr, rfl⟩
    cases hf : t.rows.find? (fun s => key s = key r) with
    | none => simpa using List.find?_eq_none.mp hf r hr
    | some s =>
        have hs : key s = key r := by simpa using List.find?_some hf
        rw [eq_of_key_eq (t := t) (List.mem_of_find?_eq_some hf) hr hs]

theorem find?_eq_none_iff {t : Table ρ κ key} {k : κ} :
    t.find? k = none ↔ ∀ r ∈ t, key r ≠ k := by
  simp [find?]

/-! ## The row of a key after a statement -/

theorem find?_congr {t u : Table ρ κ key} {k : κ} (h : ∀ r, key r = k → (r ∈ t ↔ r ∈ u)) :
    t.find? k = u.find? k := by
  cases hu : u.find? k with
  | none =>
      rw [find?_eq_none_iff] at hu ⊢
      exact fun r hr hk => hu r ((h r hk).mp hr) hk
  | some r =>
      rw [find?_eq_some_iff] at hu ⊢
      exact ⟨(h r hu.2).mpr hu.1, hu.2⟩

theorem find?_updateWhere {t : Table ρ κ key} {p : ρ → Bool} {set : ρ → ρ}
    {hkey : ∀ r, key (set r) = key r} {k : κ} :
    (t.updateWhere p set hkey).find? k =
      (t.find? k).map (fun r => if p r then set r else r) := by
  cases hk : t.find? k with
  | none =>
      rw [find?_eq_none_iff] at hk
      rw [Option.map_none, find?_eq_none_iff]
      intro r hr heq
      obtain ⟨old, hold, rfl⟩ := (mem_updateWhere hkey).mp hr
      refine hk old hold ?_
      split at heq
      · rwa [hkey] at heq
      · exact heq
  | some r =>
      rw [find?_eq_some_iff] at hk
      rw [Option.map_some, find?_eq_some_iff]
      refine ⟨exists_updateWhere hkey hk.1, ?_⟩
      split
      · rw [hkey, hk.2]
      · exact hk.2

theorem find?_deleteWhere {t : Table ρ κ key} {p : ρ → Bool} {k : κ} :
    (t.deleteWhere p).find? k = (t.find? k).filter (fun r => !p r) := by
  cases hk : t.find? k with
  | none =>
      rw [find?_eq_none_iff] at hk
      rw [Option.filter_none, find?_eq_none_iff]
      exact fun r hr => hk r (mem_deleteWhere.1 hr).1
  | some r =>
      have hrow := find?_eq_some_iff.mp hk
      cases hp : p r with
      | false =>
          rw [Option.filter_some_pos (by simp [hp]), find?_eq_some_iff, mem_deleteWhere]
          exact ⟨⟨hrow.1, hp⟩, hrow.2⟩
      | true =>
          rw [Option.filter_some_neg (by simp [hp]), find?_eq_none_iff]
          intro other hother heq
          rw [mem_deleteWhere] at hother
          rw [eq_of_key_eq hother.1 hrow.1 (heq.trans hrow.2.symm), hp] at hother
          exact absurd hother.2 (by simp)

theorem find?_insert {t : Table ρ κ key} {row : ρ} {h : ¬ t.HasKey (key row)} {k : κ} :
    (t.insert row h).find? k = if key row = k then some row else t.find? k := by
  split
  next heq =>
    rw [find?_eq_some_iff, mem_insert]
    exact ⟨Or.inr rfl, heq⟩
  next hne =>
    refine find?_congr (fun r hr => ?_)
    rw [mem_insert, or_iff_left]
    rintro rfl
    exact hne hr

theorem find?_insertOrIgnore {t : Table ρ κ key} {row : ρ} {k : κ} :
    (t.insertOrIgnore row).find? k =
      if key row = k then some ((t.find? k).getD row) else t.find? k := by
  unfold insertOrIgnore
  split
  next hused =>
    split
    next heq =>
      obtain ⟨r, hr, hkey⟩ := hasKey_iff.1 hused
      have hfind : t.find? k = some r := find?_eq_some_iff.mpr ⟨hr, hkey.trans heq⟩
      rw [hfind, Option.getD_some]
    next => rfl
  next hfree =>
    rw [find?_insert]
    split
    next heq =>
      have hfind : t.find? k = none :=
        find?_eq_none_iff.mpr (fun r hr hk => hfree (hasKey_iff.2 ⟨r, hr, hk.trans heq.symm⟩))
      rw [hfind, Option.getD_none]
    next => rfl

theorem find?_upsert {t : Table ρ κ key} {row : ρ} {set : ρ → ρ}
    {hkey : ∀ r, key (set r) = key r} {k : κ} :
    (t.upsert row set hkey).find? k =
      if key row = k then some (((t.find? k).map set).getD row) else t.find? k := by
  unfold upsert
  split
  next hused =>
    rw [find?_updateWhere]
    split
    next heq =>
      obtain ⟨r, hr, hrk⟩ := hasKey_iff.1 hused
      have hfind : t.find? k = some r := find?_eq_some_iff.mpr ⟨hr, hrk.trans heq⟩
      simp [hfind, hrk]
    next hne =>
      cases hk : t.find? k with
      | none => rfl
      | some r =>
          have hkr : key r ≠ key row := (find?_eq_some_iff.mp hk).2.trans_ne (Ne.symm hne)
          simp [hkr]
  next hfree =>
    rw [find?_insert]
    split
    next heq =>
      have hfind : t.find? k = none :=
        find?_eq_none_iff.mpr (fun r hr hk => hfree (hasKey_iff.2 ⟨r, hr, hk.trans heq.symm⟩))
      rw [hfind, Option.map_none, Option.getD_none]
    next => rfl

end DecidableKey

/-! ## Counting rows -/

/-- `SELECT count(*) .. WHERE ..`. -/
def countWhere (t : Table ρ κ key) (p : ρ → Bool) : Nat := (t.rows.filter p).length

/-- Rows are counted by their keys: a table counts at most as many rows as another one and
the keys it alone has. -/
theorem countWhere_le {t u : Table ρ κ key} {p : ρ → Bool} (fresh : List κ)
    (h : ∀ r ∈ t, p r = true → key r ∈ fresh ∨ ∃ old ∈ u, p old = true ∧ key old = key r) :
    t.countWhere p ≤ u.countWhere p + fresh.length := by
  have hnodup : ((t.rows.filter p).map key).Nodup :=
    t.unique.sublist (List.filter_sublist.map key)
  have hsubset : (t.rows.filter p).map key ⊆ (u.rows.filter p).map key ++ fresh := by
    intro k hk
    obtain ⟨r, hr, rfl⟩ := List.mem_map.mp hk
    obtain ⟨hr, hp⟩ := List.mem_filter.mp hr
    rcases h r hr hp with hfresh | ⟨old, hold, hpold, hkey⟩
    · exact List.mem_append_right _ hfresh
    · exact List.mem_append_left _ (List.mem_map.mpr ⟨old, List.mem_filter.mpr ⟨hold, hpold⟩, hkey⟩)
  have hlength := (hnodup.subperm hsubset).length_le
  simpa only [countWhere, List.length_append, List.length_map] using hlength

theorem exists_of_countWhere_pos {t : Table ρ κ key} {p : ρ → Bool} (h : 0 < t.countWhere p) :
    ∃ r ∈ t, p r = true := by
  obtain ⟨r, hr⟩ := List.exists_mem_of_length_pos h
  have hin := List.mem_filter.mp hr
  exact ⟨r, hin.1, hin.2⟩

/-- An update of one row brings at most that row into a count. -/
theorem countWhere_updateWhere_le_succ {t : Table ρ κ key} {p q : ρ → Bool} {set : ρ → ρ}
    (hkey : ∀ r, key (set r) = key r) (k : κ) (hq : ∀ r ∈ t, q r = true → key r = k) :
    (t.updateWhere q set hkey).countWhere p ≤ t.countWhere p + 1 := by
  refine countWhere_le [k] ?_
  intro r hr hp
  obtain ⟨old, hold, rfl⟩ := (mem_updateWhere hkey).mp hr
  split at hp
  next hmatch =>
    rw [if_pos hmatch, hkey, hq old hold hmatch]
    exact Or.inl List.mem_cons_self
  next hmatch =>
    rw [if_neg hmatch]
    exact Or.inr ⟨old, hold, hp, rfl⟩

/-- An update takes rows out of a count where it brings none into it. -/
theorem countWhere_updateWhere_le {t : Table ρ κ key} {p q : ρ → Bool} {set : ρ → ρ}
    (hkey : ∀ r, key (set r) = key r)
    (h : ∀ r ∈ t, q r = true → p (set r) = true → p r = true) :
    (t.updateWhere q set hkey).countWhere p ≤ t.countWhere p := by
  have hcount := countWhere_le (t := t.updateWhere q set hkey) (u := t) (p := p) [] ?_
  · simpa using hcount
  · intro r hr hp
    obtain ⟨old, hold, rfl⟩ := (mem_updateWhere hkey).mp hr
    refine Or.inr ⟨old, hold, ?_, ?_⟩
    · split at hp
      next hq => exact h old hold hq hp
      next => exact hp
    · split
      · exact (hkey old).symm
      · rfl

theorem countWhere_updateWhere_lt {t : Table ρ κ key} {p q : ρ → Bool} {set : ρ → ρ}
    (hkey : ∀ r, key (set r) = key r)
    (h : ∀ r ∈ t, q r = true → p (set r) = true → p r = true)
    {row : ρ} (hrow : row ∈ t) (hq : q row = true) (hp : p row = true)
    (hout : p (set row) = false) :
    (t.updateWhere q set hkey).countWhere p < t.countWhere p := by
  have hless : ∀ rows : List ρ, (∀ r ∈ rows, r ∈ t) → row ∈ rows →
      (rows.map (fun r => if q r then set r else r)).countP p < rows.countP p := by
    intro rows hrows hin
    obtain ⟨before, after, rfl⟩ := List.append_of_mem hin
    have hle : ∀ part : List ρ, (∀ r ∈ part, r ∈ t) →
        (part.map (fun r => if q r then set r else r)).countP p ≤ part.countP p := by
      intro part hpart
      rw [List.countP_map]
      refine List.countP_mono_left (fun r hr hnew => ?_)
      simp only [Function.comp_apply] at hnew
      split at hnew
      next hq => exact h r (hpart r hr) hq hnew
      next => exact hnew
    have hbefore := hle before (fun r hr => hrows r (List.mem_append_left _ hr))
    have hafter := hle after (fun r hr => hrows r (List.mem_append_right _ (List.mem_cons_of_mem _ hr)))
    rw [List.map_append, List.map_cons, List.countP_append, List.countP_append, List.countP_cons,
      List.countP_cons, if_pos hq, hp, hout]
    simp only [if_true, Bool.false_eq_true, if_false]
    omega
  rw [countWhere, countWhere, ← List.countP_eq_length_filter, ← List.countP_eq_length_filter]
  exact hless t.rows (fun _ hr => hr) hrow

end Table

/-! ## Ordering and limiting a selection -/

/-- `ORDER BY ..`: rows with equal sort keys keep the physical order of the store. -/
def orderBy {ρ : Type} (le : ρ → ρ → Prop) [DecidableRel le] (rows : List ρ) : List ρ :=
  rows.insertionSort le

@[simp] theorem mem_orderBy {ρ : Type} {le : ρ → ρ → Prop} [DecidableRel le] {rows : List ρ}
    {r : ρ} : r ∈ orderBy le rows ↔ r ∈ rows :=
  List.mem_insertionSort le

/-- The first row of every group, in the order of the selection: `DISTINCT ON (group)` and
the code's own `seen.insert(..)` filters. -/
def firstPerGroup {ρ γ : Type} [DecidableEq γ] (group : ρ → γ) : List ρ → List ρ
  | [] => []
  | r :: rest => r :: (firstPerGroup group rest).filter (fun s => group s ≠ group r)

section FirstPerGroup

variable {ρ γ : Type} [DecidableEq γ] {group : ρ → γ}

theorem mem_of_mem_firstPerGroup {rows : List ρ} {r : ρ} (h : r ∈ firstPerGroup group rows) :
    r ∈ rows := by
  induction rows with
  | nil => simp [firstPerGroup] at h
  | cons first rest ih =>
      simp only [firstPerGroup, List.mem_cons, List.mem_filter] at h
      rcases h with rfl | ⟨h, _⟩
      · exact List.mem_cons_self
      · exact List.mem_cons_of_mem _ (ih h)

/-- No group is selected twice. -/
theorem firstPerGroup_nodup (rows : List ρ) :
    ((firstPerGroup group rows).map group).Nodup := by
  induction rows with
  | nil => simp [firstPerGroup]
  | cons first rest ih =>
      simp only [firstPerGroup, List.map_cons, List.nodup_cons, List.mem_map, List.mem_filter,
        decide_eq_true_eq, not_exists, not_and]
      refine ⟨fun r hr heq => hr.2 heq, ?_⟩
      exact ih.sublist (List.filter_sublist.map group)

end FirstPerGroup

/-! ## Serial keys -/

/-- The next value of a serial column. -/
def nextSerial (keys : List Int) : Int := keys.foldr max 0 + 1

theorem le_foldr_max {keys : List Int} {k : Int} (h : k ∈ keys) : k ≤ keys.foldr max 0 := by
  induction keys with
  | nil => simp at h
  | cons first rest ih =>
      rcases List.mem_cons.mp h with rfl | h
      · exact le_max_left _ _
      · exact le_max_of_le_right (ih h)

theorem nextSerial_not_mem (keys : List Int) : nextSerial keys ∉ keys := by
  intro h
  have hle := le_foldr_max h
  unfold nextSerial at hle
  omega

end Lightfriend
