import Lightfriend.Core.Bytes

/-! # Keys in the order of their bytes

A store keeps its keys in the order of their bytes. Words of one length are in
the order of the numbers they stand for, and a byte that no text has ends a
text of any length.
-/

namespace Lightfriend

/-! ## Parts of a key -/

section Parts

variable {α : Type} {a a' b b' : List α} {x : α}

/-- Behind first parts of one length the second parts decide. -/
theorem append_lt_append_iff [LT α] (h : a.length = a'.length) :
    a ++ b < a' ++ b' ↔ a < a' ∨ a = a' ∧ b < b' := by
  induction a generalizing a' with
  | nil =>
      obtain rfl := List.eq_nil_of_length_eq_zero h.symm
      simp
  | cons y rest ih =>
      cases a' with
      | nil => cases h
      | cons y' rest' =>
          have hrest := ih (Nat.succ.inj h)
          rw [List.cons_append, List.cons_append, List.cons_lt_cons_iff, hrest,
            List.cons_lt_cons_iff, List.cons.injEq]
          constructor
          · rintro (hy | ⟨rfl, hlt | ⟨rfl, hlt⟩⟩)
            · exact .inl (.inl hy)
            · exact .inl (.inr ⟨rfl, hlt⟩)
            · exact .inr ⟨⟨rfl, rfl⟩, hlt⟩
          · rintro ((hy | ⟨rfl, hlt⟩) | ⟨⟨rfl, rfl⟩, hlt⟩)
            · exact .inl hy
            · exact .inr ⟨rfl, .inl hlt⟩
            · exact .inr ⟨rfl, .inr ⟨rfl, hlt⟩⟩

/-- What starts with a word and its end has this word as its first part. -/
theorem append_singleton_isPrefix_iff (ha : x ∉ a) (ha' : x ∉ a') :
    a ++ [x] <+: a' ++ x :: b ↔ a = a' := by
  constructor
  · intro h
    induction a generalizing a' with
    | nil =>
        cases a' with
        | nil => rfl
        | cons y rest' =>
            obtain ⟨rfl, -⟩ := List.cons_prefix_cons.mp h
            exact absurd List.mem_cons_self ha'
    | cons y rest ih =>
        cases a' with
        | nil =>
            obtain ⟨rfl, -⟩ := List.cons_prefix_cons.mp h
            exact absurd List.mem_cons_self ha
        | cons y' rest' =>
            obtain ⟨rfl, hrest⟩ := List.cons_prefix_cons.mp h
            rw [ih (fun hx => ha (List.mem_cons_of_mem _ hx))
              (fun hx => ha' (List.mem_cons_of_mem _ hx)) hrest]
  · rintro rfl
    exact ⟨b, by simp⟩

end Parts

/-! ## Numbers -/

/-- Words of one length are in the order of their numbers. -/
theorem fromBeBytes_lt_iff {a b : Bytes} (h : a.length = b.length) :
    fromBeBytes a < fromBeBytes b ↔ a < b := by
  -- the numbers read so far are carried along; they decide, and behind equal ones the rest does
  have hacc : ∀ (a b : Bytes) (m n : Nat), a.length = b.length →
      (a.foldl (fun acc x => acc * 256 + x.toNat) m < b.foldl (fun acc x => acc * 256 + x.toNat) n
        ↔ m < n ∨ m = n ∧ a < b) := by
    intro a
    induction a with
    | nil =>
        intro b m n h
        obtain rfl := List.eq_nil_of_length_eq_zero h.symm
        simp
    | cons x a ih =>
        intro b m n h
        cases b with
        | nil => cases h
        | cons y b =>
            have hx : x.toNat < 256 := x.toNat_lt
            have hy : y.toNat < 256 := y.toNat_lt
            rw [List.foldl_cons, List.foldl_cons, ih b _ _ (Nat.succ.inj h),
              List.cons_lt_cons_iff, UInt8.lt_iff_toNat_lt, ← UInt8.toNat_inj]
            by_cases hab : a < b
            · simp only [hab, and_true]
              omega
            · simp only [hab, and_false, or_false]
              omega
  simpa [fromBeBytes] using hacc a b 0 0 h

theorem fromBeBytes_inj {a b : Bytes} (ha : a.length = 8) (hb : b.length = 8)
    (h : fromBeBytes a = fromBeBytes b) : a = b := by
  rw [← toBeBytes_fromBeBytes ha, h, toBeBytes_fromBeBytes hb]

theorem toBeBytes_lt_iff {m n : Nat} (hm : m < 2 ^ 64) (hn : n < 2 ^ 64) :
    toBeBytes m < toBeBytes n ↔ m < n := by
  rw [← fromBeBytes_lt_iff (by rw [toBeBytes_length, toBeBytes_length]), fromBeBytes_toBeBytes hm,
    fromBeBytes_toBeBytes hn]

theorem toBeBytes_inj {m n : Nat} (hm : m < 2 ^ 64) (hn : n < 2 ^ 64) :
    toBeBytes m = toBeBytes n ↔ m = n := by
  refine ⟨fun h => ?_, fun h => h ▸ rfl⟩
  rw [← fromBeBytes_toBeBytes hm, h, fromBeBytes_toBeBytes hn]

/-! ## Text -/

theorem utf8EncodeChar_lt {c : Char} {b : UInt8} (h : b ∈ String.utf8EncodeChar c) :
    b.toNat < 0xF8 := by
  have hbyte : ∀ n, n < 0xF8 → (UInt8.ofNat n).toNat < 0xF8 := by
    intro n hn
    rw [UInt8.toNat_ofNat', Nat.mod_eq_of_lt (by omega)]
    exact hn
  simp only [String.utf8EncodeChar] at h
  split at h
  next =>
    rw [List.mem_singleton.mp h]
    exact hbyte _ (by omega)
  next =>
    split at h
    next =>
      simp only [List.mem_cons, List.not_mem_nil, or_false] at h
      obtain rfl | rfl := h <;> exact hbyte _ (by omega)
    next =>
      split at h
      next =>
        simp only [List.mem_cons, List.not_mem_nil, or_false] at h
        obtain rfl | rfl | rfl := h <;> exact hbyte _ (by omega)
      next =>
        simp only [List.mem_cons, List.not_mem_nil, or_false] at h
        obtain rfl | rfl | rfl | rfl := h <;> exact hbyte _ (by omega)

/-- No text has the byte `0xFF`. -/
theorem ff_not_mem_asBytes (s : String) : 0xFF ∉ asBytes s := by
  intro h
  obtain ⟨c, -, hc⟩ : ∃ c ∈ s.toList, 0xFF ∈ String.utf8EncodeChar c := by
    rw [← List.mem_flatMap]
    have hbytes : s.toUTF8 = s.toList.utf8Encode := by simp
    rw [asBytes, hbytes, List.utf8Encode] at h
    simpa using h
  have hlt := utf8EncodeChar_lt hc
  revert hlt
  decide

end Lightfriend
