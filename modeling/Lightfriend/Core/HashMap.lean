import Mathlib.Data.List.Nodup
import Mathlib.Data.List.Basic

/-! # Hash maps

A map with at most one value for a key. In which order it is gone through is not
part of it: a map is only read at a key or as a set of entries.
-/

namespace Lightfriend

structure HashMap (κ ν : Type) where
  entries : List (κ × ν)
  nodup : (entries.map Prod.fst).Nodup

namespace HashMap

variable {κ ν : Type} [DecidableEq κ]

def empty : HashMap κ ν := ⟨[], List.nodup_nil⟩

/-- An entry for another key is left as it is. -/
def without (m : HashMap κ ν) (p : κ → Bool) : HashMap κ ν where
  entries := m.entries.filter (fun e => !p e.1)
  nodup := m.nodup.sublist (List.filter_sublist.map _)

def get (m : HashMap κ ν) (k : κ) : Option ν :=
  (m.entries.find? (fun e => e.1 = k)).map Prod.snd

def HasKey (m : HashMap κ ν) (k : κ) : Prop := k ∈ m.entries.map Prod.fst

instance (m : HashMap κ ν) (k : κ) : Decidable (m.HasKey k) :=
  inferInstanceAs (Decidable (k ∈ _))

/-- `extend`: a value of the second map replaces one of the first. -/
def extend (m other : HashMap κ ν) : HashMap κ ν where
  entries := (m.without (fun k => other.HasKey k)).entries ++ other.entries
  nodup := by
    rw [List.map_append]
    refine (m.without _).nodup.append other.nodup ?_
    intro k hk hother
    obtain ⟨e, he, rfl⟩ := List.mem_map.mp hk
    have hnot : ¬ other.HasKey e.1 := of_decide_eq_false (by simpa using (List.mem_filter.mp he).2)
    exact hnot hother

def singleton (k : κ) (v : ν) : HashMap κ ν := ⟨[(k, v)], List.nodup_singleton k⟩

def insert (m : HashMap κ ν) (k : κ) (v : ν) : HashMap κ ν := m.extend (singleton k v)

/-- The entries one after the other. -/
def insertAll (m : HashMap κ ν) (pairs : List (κ × ν)) : HashMap κ ν :=
  pairs.foldl (fun m e => m.insert e.1 e.2) m

/-- An entry that no later one for the same key follows. -/
def Latest (pairs : List (κ × ν)) (e : κ × ν) : Prop :=
  ∃ front back, pairs = front ++ e :: back ∧ ∀ e' ∈ back, e'.1 ≠ e.1

variable {m other : HashMap κ ν} {k : κ} {v : ν} {e : κ × ν} {pairs : List (κ × ν)}

theorem get_eq_some : m.get k = some v ↔ (k, v) ∈ m.entries := by
  unfold get
  constructor
  · intro h
    obtain ⟨e, he, rfl⟩ := Option.map_eq_some_iff.mp h
    have hkey : e.1 = k := by simpa using List.find?_some he
    rw [← hkey]
    exact List.mem_of_find?_eq_some he
  · intro h
    cases hfind : m.entries.find? (fun e => e.1 = k) with
    | none => simpa using List.find?_eq_none.mp hfind _ h
    | some e =>
        have hkey : e.1 = k := by simpa using List.find?_some hfind
        have heq := List.inj_on_of_nodup_map m.nodup (List.mem_of_find?_eq_some hfind) h hkey
        rw [heq]
        rfl

theorem mem_extend :
    e ∈ (m.extend other).entries ↔ e ∈ other.entries ∨ e ∈ m.entries ∧ ¬ other.HasKey e.1 := by
  simp only [extend, without, List.mem_append, List.mem_filter, Bool.not_eq_true',
    decide_eq_false_iff_not]
  exact or_comm

theorem mem_insert :
    e ∈ (m.insert k v).entries ↔ e = (k, v) ∨ e ∈ m.entries ∧ e.1 ≠ k := by
  simp [insert, mem_extend, singleton, HasKey]

omit [DecidableEq κ] in
theorem latest_cons {a : κ × ν} :
    Latest (a :: pairs) e ↔ Latest pairs e ∨ e = a ∧ ∀ e' ∈ pairs, e'.1 ≠ e.1 := by
  constructor
  · rintro ⟨front, back, heq, hback⟩
    cases front with
    | nil =>
        cases heq
        exact .inr ⟨rfl, hback⟩
    | cons b front =>
        cases heq
        exact .inl ⟨front, back, rfl, hback⟩
  · rintro (⟨front, back, rfl, hback⟩ | ⟨rfl, hback⟩)
    · exact ⟨a :: front, back, rfl, hback⟩
    · exact ⟨[], pairs, rfl, hback⟩

omit [DecidableEq κ] in
theorem latest_append {others : List (κ × ν)} :
    Latest (pairs ++ others) e ↔
      Latest others e ∨ Latest pairs e ∧ ∀ e' ∈ others, e'.1 ≠ e.1 := by
  induction pairs with
  | nil =>
      have hnil : ¬ Latest [] e := by
        rintro ⟨front, back, heq, -⟩
        cases front <;> cases heq
      simp [hnil]
  | cons a pairs ih =>
      rw [List.cons_append, latest_cons, ih, latest_cons]
      simp only [List.mem_append]
      grind

omit [DecidableEq κ] in
theorem Latest.mem (h : Latest pairs e) : e ∈ pairs := by
  obtain ⟨front, back, rfl, -⟩ := h
  simp

theorem mem_insertAll :
    e ∈ (m.insertAll pairs).entries ↔
      Latest pairs e ∨ e ∈ m.entries ∧ ∀ e' ∈ pairs, e'.1 ≠ e.1 := by
  induction pairs generalizing m with
  | nil =>
      have hnil : ¬ Latest [] e := by
        rintro ⟨front, back, heq, -⟩
        cases front <;> cases heq
      simp [insertAll, hnil]
  | cons a pairs ih =>
      have hstep : m.insertAll (a :: pairs) = (m.insert a.1 a.2).insertAll pairs := rfl
      rw [hstep, ih, latest_cons, mem_insert]
      simp only [List.mem_cons, forall_eq_or_imp]
      grind

theorem mem_insertAll_empty : e ∈ (empty.insertAll pairs).entries ↔ Latest pairs e := by
  simp [mem_insertAll, empty]

/-- For each key that is written there is a last entry. -/
theorem exists_latest (h : k ∈ pairs.map Prod.fst) : ∃ v, Latest pairs (k, v) := by
  induction pairs with
  | nil => cases h
  | cons a pairs ih =>
      by_cases hlater : k ∈ pairs.map Prod.fst
      · obtain ⟨v, hv⟩ := ih hlater
        exact ⟨v, latest_cons.2 (.inl hv)⟩
      · have hk : k = a.1 := (List.mem_cons.mp h).resolve_right hlater
        refine ⟨a.2, latest_cons.2 (.inr ⟨by rw [hk], ?_⟩)⟩
        intro e' he' heq
        exact hlater (List.mem_map.mpr ⟨e', he', heq⟩)

theorem hasKey_insertAll_empty : (empty.insertAll pairs).HasKey k ↔ k ∈ pairs.map Prod.fst := by
  constructor
  · intro h
    obtain ⟨e, he, rfl⟩ := List.mem_map.mp h
    exact List.mem_map.mpr ⟨e, (mem_insertAll_empty.1 he).mem, rfl⟩
  · intro h
    obtain ⟨v, hv⟩ := exists_latest h
    exact List.mem_map.mpr ⟨(k, v), mem_insertAll_empty.2 hv, rfl⟩

end HashMap

end Lightfriend
