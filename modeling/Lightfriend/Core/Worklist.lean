import Mathlib.Logic.Relation
import Mathlib.Tactic

/-! # Worklist search

The search of a graph whose successors are looked up one node at a time: a node
is put on the list when it is first seen, and a node without an entry is noted
as missing. With as much fuel as there are nodes the list runs empty, and then
the seen nodes are the reachable ones, in any graph, cyclic or not.
-/

namespace Lightfriend

structure Worklist (α : Type) where
  seen : List α
  pending : List α
  missing : List α

namespace Worklist

variable {α : Type}

/-! ## Reachability -/

def Edge (next : α → Option (List α)) (x y : α) : Prop :=
  ∃ successors, next x = some successors ∧ y ∈ successors

def Reach (next : α → Option (List α)) (roots : List α) (x : α) : Prop :=
  ∃ r ∈ roots, Relation.ReflTransGen (Edge next) r x

theorem Reach.edge {next : α → Option (List α)} {roots : List α} {x y : α}
    (h : Reach next roots x) (hedge : Edge next x y) : Reach next roots y := by
  obtain ⟨r, hr, hpath⟩ := h
  exact ⟨r, hr, hpath.tail hedge⟩

/-! ## The loop -/

variable [DecidableEq α]

def start (roots : List α) : Worklist α where
  seen := roots
  pending := roots
  missing := []

def push (w : Worklist α) (x : α) : Worklist α :=
  if x ∈ w.seen then w else { w with seen := x :: w.seen, pending := x :: w.pending }

/-- Take the last node put on the list; `next` is the lookup of its successors. -/
def visit (next : α → Option (List α)) (w : Worklist α) : Worklist α :=
  match w.pending with
  | [] => w
  | x :: rest =>
      match next x with
      | none => { w with pending := rest, missing := List.insert x w.missing }
      | some successors => successors.foldl push { w with pending := rest }

theorem visit_of_none {next : α → Option (List α)} {w : Worklist α} {x : α} {rest : List α}
    (hw : w.pending = x :: rest) (hnext : next x = none) :
    w.visit next = { w with pending := rest, missing := List.insert x w.missing } := by
  simp only [visit, hw, hnext]

theorem visit_of_some {next : α → Option (List α)} {w : Worklist α} {x : α}
    {rest successors : List α} (hw : w.pending = x :: rest) (hnext : next x = some successors) :
    w.visit next = successors.foldl push { w with pending := rest } := by
  simp only [visit, hw, hnext]

def drain (next : α → Option (List α)) : Nat → Worklist α → Worklist α
  | 0, w => w
  | fuel + 1, w =>
      match w.pending with
      | [] => w
      | _ :: _ => drain next fuel (w.visit next)

/-! ## Pushes -/

theorem mem_push_seen {w : Worklist α} {x y : α} : y ∈ (w.push x).seen ↔ y = x ∨ y ∈ w.seen := by
  unfold push
  split
  next h =>
    constructor
    · exact Or.inr
    · intro hy
      rcases hy with rfl | hy
      · exact h
      · exact hy
  next h => exact List.mem_cons

theorem mem_push_pending {w : Worklist α} {x y : α} :
    y ∈ (w.push x).pending ↔ y ∈ w.pending ∨ (y = x ∧ y ∉ w.seen) := by
  unfold push
  split
  next h =>
    constructor
    · exact Or.inl
    · intro hy
      rcases hy with hy | ⟨rfl, hnot⟩
      · exact hy
      · exact absurd h hnot
  next h =>
    rw [List.mem_cons]
    constructor
    · intro hy
      rcases hy with rfl | hy
      · exact Or.inr ⟨rfl, h⟩
      · exact Or.inl hy
    · intro hy
      rcases hy with hy | ⟨rfl, _⟩
      · exact Or.inr hy
      · exact Or.inl rfl

theorem push_missing (w : Worklist α) (x : α) : (w.push x).missing = w.missing := by
  unfold push
  split <;> rfl

theorem mem_foldl_push_seen {xs : List α} {w : Worklist α} {y : α} :
    y ∈ (xs.foldl push w).seen ↔ y ∈ xs ∨ y ∈ w.seen := by
  induction xs generalizing w with
  | nil => simp
  | cons x rest ih =>
      rw [List.foldl_cons, ih, mem_push_seen, List.mem_cons]
      tauto

theorem mem_foldl_push_pending {xs : List α} {w : Worklist α} {y : α} :
    y ∈ (xs.foldl push w).pending ↔ y ∈ w.pending ∨ (y ∈ xs ∧ y ∉ w.seen) := by
  induction xs generalizing w with
  | nil => simp
  | cons x rest ih =>
      rw [List.foldl_cons, ih, mem_push_pending, mem_push_seen, List.mem_cons]
      by_cases hx : y = x
      · simp [hx]
      · simp [hx]

theorem foldl_push_missing (xs : List α) (w : Worklist α) :
    (xs.foldl push w).missing = w.missing := by
  induction xs generalizing w with
  | nil => rfl
  | cons x rest ih => rw [List.foldl_cons, ih, push_missing]

/-! ## Fuel -/

/-- The visits that are left, when every node is in `nodes`. -/
def potential (nodes : List α) (w : Worklist α) : Nat :=
  w.pending.length + (nodes.filter (fun x => x ∉ w.seen)).length

theorem potential_push_le {nodes : List α} {w : Worklist α} {x : α} (hx : x ∈ nodes) :
    potential nodes (w.push x) ≤ potential nodes w := by
  unfold push
  split
  · exact le_refl _
  next hnot =>
    have hsub : nodes.filter (fun y => y ∉ x :: w.seen) =
        (nodes.filter (fun y => y ∉ w.seen)).filter (fun y => y ≠ x) := by
      rw [List.filter_filter]
      apply List.filter_congr
      intro y _
      simp [not_or]
    have hlt : (nodes.filter (fun y => y ∉ x :: w.seen)).length <
        (nodes.filter (fun y => y ∉ w.seen)).length := by
      rw [hsub]
      exact List.length_filter_lt_length_iff_exists.mpr
        ⟨x, List.mem_filter.mpr ⟨hx, by simpa using hnot⟩, by simp⟩
    simp only [potential, List.length_cons]
    omega

theorem potential_foldl_push_le {nodes xs : List α} (hxs : ∀ x ∈ xs, x ∈ nodes) (w : Worklist α) :
    potential nodes (xs.foldl push w) ≤ potential nodes w := by
  induction xs generalizing w with
  | nil => exact le_refl _
  | cons x rest ih =>
      have hrest := ih (fun y hy => hxs y (List.mem_cons_of_mem _ hy)) (w.push x)
      have hpush := potential_push_le (w := w) (hxs x List.mem_cons_self)
      rw [List.foldl_cons]
      omega

section Search

variable {next : α → Option (List α)} {nodes roots : List α} {w : Worklist α}

theorem potential_visit_lt
    (hnodes : ∀ x successors, next x = some successors → ∀ y ∈ successors, y ∈ nodes)
    (hpending : w.pending ≠ []) : potential nodes (w.visit next) < potential nodes w := by
  cases hw : w.pending with
  | nil => exact absurd hw hpending
  | cons x rest =>
      have hpop : potential nodes { w with pending := rest } < potential nodes w := by
        simp only [potential, hw, List.length_cons]
        omega
      cases hnext : next x with
      | none =>
          rw [visit_of_none hw hnext]
          exact hpop
      | some successors =>
          rw [visit_of_some hw hnext]
          have hfold := potential_foldl_push_le (hnodes x successors hnext) { w with pending := rest }
          exact lt_of_le_of_lt hfold hpop

/-- With enough fuel the list runs empty. -/
theorem drain_pending
    (hnodes : ∀ x successors, next x = some successors → ∀ y ∈ successors, y ∈ nodes)
    {fuel : Nat} (hfuel : potential nodes w ≤ fuel) : (drain next fuel w).pending = [] := by
  induction fuel generalizing w with
  | zero =>
      have hzero : w.pending.length = 0 := by
        unfold potential at hfuel
        omega
      exact List.length_eq_zero_iff.mp hzero
  | succ fuel ih =>
      unfold drain
      split
      next hw => exact hw
      next x rest hw =>
        have hlt := potential_visit_lt hnodes (w := w) (by simp [hw])
        exact ih (by omega)

/-! ## The search is reachability -/

/-- A node that left the list: its successors are seen, or it is missing. -/
def Handled (next : α → Option (List α)) (w : Worklist α) (x : α) : Prop :=
  match next x with
  | none => x ∈ w.missing
  | some successors => ∀ y ∈ successors, y ∈ w.seen

structure Sound (next : α → Option (List α)) (roots : List α) (w : Worklist α) : Prop where
  start : ∀ r ∈ roots, r ∈ w.seen
  reach : ∀ x ∈ w.seen, Reach next roots x
  pending : ∀ x ∈ w.pending, x ∈ w.seen
  handled : ∀ x ∈ w.seen, x ∈ w.pending ∨ Handled next w x
  missing : ∀ x ∈ w.missing, x ∈ w.seen ∧ next x = none

omit [DecidableEq α] in
theorem sound_start (next : α → Option (List α)) (roots : List α) :
    Sound next roots (Worklist.start roots) where
  start := fun _ hr => hr
  reach := fun x hx => ⟨x, hx, .refl⟩
  pending := fun _ hx => hx
  handled := fun _ hx => Or.inl hx
  missing := by simp [Worklist.start]

omit [DecidableEq α] in
theorem Handled.mono {later : Worklist α} {x : α} (h : Handled next w x)
    (hseen : ∀ y ∈ w.seen, y ∈ later.seen) (hmissing : ∀ y ∈ w.missing, y ∈ later.missing) :
    Handled next later x := by
  unfold Handled at h ⊢
  cases hnext : next x with
  | none =>
      rw [hnext] at h
      exact hmissing x h
  | some successors =>
      rw [hnext] at h
      exact fun y hy => hseen y (h y hy)

/-- The node that is visited is missing. -/
theorem Sound.visit_none (h : Sound next roots w) {x : α} {rest : List α}
    (hw : w.pending = x :: rest) (hnext : next x = none) : Sound next roots (w.visit next) := by
  have hx : x ∈ w.seen := h.pending x (by simp [hw])
  rw [visit_of_none hw hnext]
  constructor
  · exact h.start
  · exact h.reach
  · exact fun y hy => h.pending y (by simp [hw, hy])
  · intro y hy
    by_cases hyx : y = x
    · right
      simp only [Handled, hyx, hnext]
      exact List.mem_insert_self
    · rcases h.handled y hy with hpending | hdone
      · left
        simpa [hw, hyx] using hpending
      · exact Or.inr (hdone.mono (fun _ hz => hz) (fun _ hz => List.mem_insert_of_mem hz))
  · intro y hy
    rcases List.mem_insert_iff.mp hy with rfl | hy
    · exact ⟨hx, hnext⟩
    · exact h.missing y hy

/-- The node that is visited brings its successors. -/
theorem Sound.visit_some (h : Sound next roots w) {x : α} {rest successors : List α}
    (hw : w.pending = x :: rest) (hnext : next x = some successors) :
    Sound next roots (w.visit next) := by
  have hx : x ∈ w.seen := h.pending x (by simp [hw])
  rw [visit_of_some hw hnext]
  have hgrow : ∀ y ∈ w.seen, y ∈ (successors.foldl push { w with pending := rest }).seen :=
    fun y hy => mem_foldl_push_seen.2 (Or.inr hy)
  constructor
  · exact fun r hr => hgrow r (h.start r hr)
  · intro y hy
    rcases mem_foldl_push_seen.1 hy with hy | hy
    · exact (h.reach x hx).edge ⟨successors, hnext, hy⟩
    · exact h.reach y hy
  · intro y hy
    rcases mem_foldl_push_pending.1 hy with hy | hy
    · exact hgrow y (h.pending y (by simp [hw, hy]))
    · exact mem_foldl_push_seen.2 (Or.inl hy.1)
  · intro y hy
    by_cases hyx : y = x
    · right
      simp only [Handled, hyx, hnext]
      exact fun z hz => mem_foldl_push_seen.2 (Or.inl hz)
    · by_cases hold : y ∈ w.seen
      · rcases h.handled y hold with hpending | hdone
        · left
          refine mem_foldl_push_pending.2 (Or.inl ?_)
          simpa [hw, hyx] using hpending
        · refine Or.inr (hdone.mono hgrow (fun z hz => ?_))
          rw [foldl_push_missing]
          exact hz
      · left
        have hnew : y ∈ successors := (mem_foldl_push_seen.1 hy).resolve_right hold
        exact mem_foldl_push_pending.2 (Or.inr ⟨hnew, hold⟩)
  · intro y hy
    rw [foldl_push_missing] at hy
    exact ⟨hgrow y (h.missing y hy).1, (h.missing y hy).2⟩

theorem Sound.visit (h : Sound next roots w) : Sound next roots (w.visit next) := by
  cases hw : w.pending with
  | nil =>
      have hsame : w.visit next = w := by simp only [Worklist.visit, hw]
      rw [hsame]
      exact h
  | cons x rest =>
      cases hnext : next x with
      | none => exact h.visit_none hw hnext
      | some successors => exact h.visit_some hw hnext

theorem Sound.drain (h : Sound next roots w) (fuel : Nat) :
    Sound next roots (Worklist.drain next fuel w) := by
  induction fuel generalizing w with
  | zero => exact h
  | succ fuel ih =>
      unfold Worklist.drain
      split
      · exact h
      · exact ih h.visit

omit [DecidableEq α] in
/-- A search that ran empty has seen every reachable node. -/
theorem Sound.mem_seen_iff (h : Sound next roots w) (hempty : w.pending = []) {x : α} :
    x ∈ w.seen ↔ Reach next roots x := by
  constructor
  · exact h.reach x
  · intro hreach
    obtain ⟨r, hr, hpath⟩ := hreach
    induction hpath with
    | refl => exact h.start r hr
    | tail hpath hedge ih =>
        obtain ⟨successors, hnext, hmem⟩ := hedge
        have hdone := (h.handled _ ih).resolve_left (by simp [hempty])
        rw [Handled, hnext] at hdone
        exact hdone _ hmem

omit [DecidableEq α] in
theorem Sound.mem_missing_iff (h : Sound next roots w) (hempty : w.pending = []) {x : α} :
    x ∈ w.missing ↔ Reach next roots x ∧ next x = none := by
  constructor
  · intro hx
    exact ⟨h.reach x (h.missing x hx).1, (h.missing x hx).2⟩
  · intro hx
    have hseen := (h.mem_seen_iff hempty).mpr hx.1
    have hdone := (h.handled x hseen).resolve_left (by simp [hempty])
    rw [Handled, hx.2] at hdone
    exact hdone

end Search

end Worklist

end Lightfriend
