import Lightfriend.Core.Bytes

/-! # Faults

A function that adds machine words or slices a buffer can abort. Its result
is a value or the fault. Additions are checked or wrap around, as the program
was built; slices of a string must start and end between two characters.
-/

namespace Lightfriend

/-! ## Checked results -/

/-- What aborts a call. -/
inductive Fault
  | overflow
  | slice
deriving DecidableEq, Repr

abbrev Checked (α : Type) : Type := Except Fault α

/-- The call returned. -/
def Returns {α : Type} (result : Checked α) : Prop := ∃ value, result = .ok value

instance {α : Type} (result : Checked α) : Decidable (Returns result) :=
  match result with
  | .ok value => isTrue ⟨value, rfl⟩
  | .error _ => isFalse (by rintro ⟨_, h⟩; cases h)

theorem returns_ok {α : Type} (value : α) : Returns (.ok value : Checked α) := ⟨value, rfl⟩

theorem not_returns_error {α : Type} (fault : Fault) : ¬ Returns (.error fault : Checked α) := by
  rintro ⟨_, h⟩
  cases h

section Sequences

variable {α β γ : Type}

theorem returns_bind_ok (first : Checked α) (g : α → β) :
    Returns (first >>= fun a => .ok (g a)) ↔ Returns first := by
  cases first with
  | ok a => exact ⟨fun _ => returns_ok a, fun _ => returns_ok (g a)⟩
  | error fault =>
      exact ⟨fun h => absurd h (not_returns_error fault),
        fun h => absurd h (not_returns_error fault)⟩

theorem returns_bind_bind (first : Checked α) (second : Checked β) (g : α → β → γ) :
    Returns (first >>= fun a => second >>= fun b => .ok (g a b)) ↔
      Returns first ∧ Returns second := by
  cases first with
  | ok a => exact (returns_bind_ok second (g a)).trans (by simp [returns_ok])
  | error fault =>
      exact ⟨fun h => absurd h (not_returns_error fault),
        fun h => absurd h.1 (not_returns_error fault)⟩

/-- A pass over a list returns where each of its calls does. -/
theorem returns_mapM (f : α → Checked β) (xs : List α) :
    Returns (xs.mapM f) ↔ ∀ x ∈ xs, Returns (f x) := by
  induction xs with
  | nil => exact ⟨fun _ x hx => absurd hx List.not_mem_nil, fun _ => returns_ok []⟩
  | cons x rest ih =>
      rw [List.mapM_cons, List.forall_mem_cons, ← ih]
      exact returns_bind_bind (f x) (rest.mapM f) List.cons

theorem mapM_eq_ok {f : α → Checked β} {g : α → β} {xs : List α} (h : ∀ x ∈ xs, f x = .ok (g x)) :
    xs.mapM f = .ok (xs.map g) := by
  induction xs with
  | nil => rfl
  | cons x rest ih =>
      rw [List.mapM_cons, h x List.mem_cons_self,
        ih (fun y hy => h y (List.mem_cons_of_mem _ hy))]
      rfl

end Sequences

/-! ## Machine words -/

/-- `a + b` on `usize`. A build with overflow checks aborts, one without wraps around. -/
def addUsize (overflowChecks : Bool) (a b : Nat) : Checked Nat :=
  if a + b ≤ u64Max then .ok (a + b)
  else if overflowChecks then .error .overflow
  else .ok (a + b - (u64Max + 1))

/-- The longest buffer that memory holds, `isize::MAX`. -/
def isizeMax : Nat := 9223372036854775807

/-- `a - b` on `i32`. -/
def subI32 (overflowChecks : Bool) (a b : Int) : Checked Int :=
  if i32Min ≤ a - b ∧ a - b ≤ i32Max then .ok (a - b)
  else if overflowChecks then .error .overflow
  else .ok (Int.bmod (a - b) 4294967296)

/-- `n as i32` keeps the last 32 bits. -/
def asI32 (n : Int) : Int := Int.bmod n 4294967296

section Words

variable {a b : Nat}

theorem addUsize_of_le {checks : Bool} (h : a + b ≤ u64Max) : addUsize checks a b = .ok (a + b) :=
  if_pos h

/-- What an addition gives, when it gives something. -/
theorem addUsize_cases (checks : Bool) (ha : a ≤ u64Max) (hb : b ≤ u64Max) (h : u64Max < a + b) :
    addUsize checks a b = .error .overflow ∨
      ∃ wrapped, addUsize checks a b = .ok wrapped ∧ wrapped < a ∧ wrapped < b := by
  unfold addUsize
  rw [if_neg (by omega)]
  cases checks with
  | true => exact .inl rfl
  | false => exact .inr ⟨_, rfl, by omega, by omega⟩

theorem asI32_of_mem {n : Int} (hmin : i32Min ≤ n) (hmax : n ≤ i32Max) : asI32 n = n := by
  unfold i32Min at hmin
  unfold i32Max at hmax
  exact Int.bmod_eq_of_le (by omega) (by omega)

theorem asI32_mem (n : Int) : i32Min ≤ asI32 n ∧ asI32 n ≤ i32Max := by
  have hle := @Int.le_bmod n 4294967296 (by omega)
  have hlt := @Int.bmod_lt n 4294967296 (by omega)
  unfold asI32 i32Min i32Max
  omega

theorem asI32_eq_iff (n : Int) : asI32 n = n ↔ i32Min ≤ n ∧ n ≤ i32Max := by
  constructor
  · intro h
    rw [← h]
    exact asI32_mem n
  · rintro ⟨hmin, hmax⟩
    exact asI32_of_mem hmin hmax

/-- A difference of a cut number is right exactly where it fits, and in a checked build the number
does too. -/
theorem subI32_asI32_iff {checks : Bool} {a b : Int} :
    subI32 checks (asI32 a) b = .ok (a - b) ↔
      (i32Min ≤ a - b ∧ a - b ≤ i32Max) ∧ (checks = true → i32Min ≤ a ∧ a ≤ i32Max) := by
  have hmod : Int.bmod (asI32 a - b) 4294967296 = asI32 (a - b) := by
    unfold asI32
    rw [Int.sub_eq_add_neg, Int.bmod_add_bmod, ← Int.sub_eq_add_neg]
  have hown := asI32_eq_iff a
  have hdiff := asI32_eq_iff (a - b)
  unfold subI32
  split
  next hin =>
    have hsame : asI32 (a - b) = asI32 a - b := by
      rw [← hmod]
      exact asI32_of_mem hin.1 hin.2
    rw [Except.ok.injEq]
    constructor
    · exact fun h => ⟨hdiff.mp (hsame.trans h), fun _ => hown.mp (by omega)⟩
    · exact fun h => hsame.symm.trans (hdiff.mpr h.1)
  next hout =>
    rw [hmod]
    cases checks with
    | true =>
        refine iff_of_false (fun h => by cases h) ?_
        rintro ⟨hfits, ha⟩
        rw [hown.mpr (ha rfl)] at hout
        exact hout hfits
    | false =>
        simp only [Bool.false_eq_true, if_false, Except.ok.injEq, false_imp_iff, and_true]
        exact hdiff

end Words

/-! ## Slices -/

/-- `bytes[first..last]`. -/
def sliceBytes (bytes : Bytes) (first last : Nat) : Checked Bytes :=
  if first ≤ last ∧ last ≤ bytes.length then .ok ((bytes.take last).drop first)
  else .error .slice

theorem sliceBytes_of_le (bytes : Bytes) (first size : Nat) (h : first + size ≤ bytes.length) :
    sliceBytes bytes first (first + size) = .ok ((bytes.drop first).take size) := by
  unfold sliceBytes
  rw [if_pos ⟨Nat.le_add_right first size, h⟩, List.drop_take]
  simp

/-- The bytes of a text. -/
def byteLen : List Char → Nat
  | [] => 0
  | c :: rest => c.utf8Size + byteLen rest

/-- The two parts of a text at a byte offset between two characters. -/
def splitAtByte : List Char → Nat → Option (List Char × List Char)
  | text, 0 => some ([], text)
  | [], _ + 1 => none
  | c :: rest, n + 1 =>
      if c.utf8Size ≤ n + 1 then
        (splitAtByte rest (n + 1 - c.utf8Size)).map (fun parts => (c :: parts.1, parts.2))
      else none

/-- `&text[n..]`. -/
def sliceFrom (text : List Char) (n : Nat) : Checked (List Char) :=
  match splitAtByte text n with
  | some parts => .ok parts.2
  | none => .error .slice

/-- `&text[..n]`. -/
def sliceTo (text : List Char) (n : Nat) : Checked (List Char) :=
  match splitAtByte text n with
  | some parts => .ok parts.1
  | none => .error .slice

section Slices

variable {text front back : List Char} {n : Nat}

theorem byteLen_append (a b : List Char) : byteLen (a ++ b) = byteLen a + byteLen b := by
  induction a with
  | nil => simp [byteLen]
  | cons c rest ih =>
      simp only [List.cons_append, byteLen, ih]
      omega

theorem byteLen_eq_zero (h : byteLen text = 0) : text = [] := by
  cases text with
  | nil => rfl
  | cons c rest =>
      have hpos := c.utf8Size_pos
      simp only [byteLen] at h
      omega

/-- The offset splits the text where a part of that many bytes ends. -/
theorem splitAtByte_eq_some :
    splitAtByte text n = some (front, back) ↔ text = front ++ back ∧ byteLen front = n := by
  induction text generalizing n front with
  | nil =>
      cases n with
      | zero =>
          simp only [splitAtByte, Option.some.injEq, Prod.mk.injEq]
          constructor
          · rintro ⟨rfl, rfl⟩
            exact ⟨rfl, rfl⟩
          · rintro ⟨hnil, -⟩
            obtain ⟨rfl, rfl⟩ := List.append_eq_nil_iff.mp hnil.symm
            exact ⟨rfl, rfl⟩
      | succ n =>
          simp only [splitAtByte, reduceCtorEq, false_iff, not_and]
          intro hnil
          obtain ⟨rfl, rfl⟩ := List.append_eq_nil_iff.mp hnil.symm
          simp [byteLen]
  | cons c rest ih =>
      cases n with
      | zero =>
          simp only [splitAtByte, Option.some.injEq, Prod.mk.injEq]
          constructor
          · rintro ⟨rfl, rfl⟩
            exact ⟨rfl, rfl⟩
          · rintro ⟨htext, hzero⟩
            obtain rfl := byteLen_eq_zero hzero
            exact ⟨rfl, htext⟩
      | succ n =>
          have hpos := c.utf8Size_pos
          simp only [splitAtByte]
          constructor
          · intro h
            split at h
            next hle =>
              obtain ⟨⟨a, b⟩, hparts, heq⟩ := Option.map_eq_some_iff.mp h
              cases heq
              obtain ⟨rfl, hlen⟩ := ih.mp hparts
              refine ⟨rfl, ?_⟩
              simp only [byteLen]
              omega
            next => cases h
          · rintro ⟨htext, hlen⟩
            cases front with
            | nil => simp [byteLen] at hlen
            | cons d front =>
                obtain ⟨rfl, rfl⟩ := List.cons.inj htext
                simp only [byteLen] at hlen
                rw [if_pos (by omega), ih.mpr ⟨rfl, by omega⟩]
                rfl

/-- The offset lies between two characters of the text. -/
def IsCharBoundary (text : List Char) (n : Nat) : Prop :=
  ∃ front, front <+: text ∧ byteLen front = n

theorem splitAtByte_isSome : (splitAtByte text n).isSome = true ↔ IsCharBoundary text n := by
  constructor
  · intro h
    obtain ⟨⟨front, back⟩, hparts⟩ := Option.isSome_iff_exists.mp h
    rw [splitAtByte_eq_some] at hparts
    obtain ⟨rfl, hlen⟩ := hparts
    exact ⟨front, List.prefix_append front back, hlen⟩
  · rintro ⟨front, ⟨back, rfl⟩, hlen⟩
    refine Option.isSome_iff_exists.mpr ⟨(front, back), ?_⟩
    rw [splitAtByte_eq_some]
    exact ⟨rfl, hlen⟩

instance (text : List Char) (n : Nat) : Decidable (IsCharBoundary text n) :=
  decidable_of_iff _ splitAtByte_isSome

theorem splitAtByte_append (front back : List Char) :
    splitAtByte (front ++ back) (byteLen front) = some (front, back) := by
  rw [splitAtByte_eq_some]
  exact ⟨rfl, rfl⟩

theorem splitAtByte_of_not_boundary (h : ¬ IsCharBoundary text n) :
    splitAtByte text n = none := by
  rw [← splitAtByte_isSome] at h
  exact Option.not_isSome_iff_eq_none.mp h

theorem sliceFrom_append (front back : List Char) :
    sliceFrom (front ++ back) (byteLen front) = .ok back := by
  rw [sliceFrom, splitAtByte_append]

theorem sliceTo_append (front back : List Char) :
    sliceTo (front ++ back) (byteLen front) = .ok front := by
  rw [sliceTo, splitAtByte_append]

theorem sliceFrom_of_not_boundary (h : ¬ IsCharBoundary text n) :
    sliceFrom text n = .error .slice := by
  rw [sliceFrom, splitAtByte_of_not_boundary h]

theorem sliceTo_of_not_boundary (h : ¬ IsCharBoundary text n) :
    sliceTo text n = .error .slice := by
  rw [sliceTo, splitAtByte_of_not_boundary h]

/-- Two parts of a text that are equally long are the same. -/
theorem append_inj_of_byteLen {front' back' : List Char} (h : front ++ back = front' ++ back')
    (hlen : byteLen front = byteLen front') : front = front' ∧ back = back' := by
  have hsplit := splitAtByte_append front' back'
  rw [← h, ← hlen, splitAtByte_append] at hsplit
  cases hsplit
  exact ⟨rfl, rfl⟩

end Slices

end Lightfriend

