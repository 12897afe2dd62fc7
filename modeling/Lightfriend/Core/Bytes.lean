import Lightfriend.Core.Machine

/-! # Bytes and error chains

Keys and values of the key-value stores are byte strings. Text is stored as
UTF-8 and numbers as eight big-endian bytes.
-/

namespace Lightfriend

abbrev Bytes := List UInt8

/-- `u64::from_be_bytes`. -/
def fromBeBytes (bytes : Bytes) : Nat := bytes.foldl (fun acc b => acc * 256 + b.toNat) 0

/-- `u64::to_be_bytes`. -/
def toBeBytes (n : Nat) : Bytes :=
  (List.range 8).map (fun i => UInt8.ofNat (n / 256 ^ (7 - i) % 256))

theorem fromBeBytes_lt (bytes : Bytes) : fromBeBytes bytes < 256 ^ bytes.length := by
  have hall : ∀ (bytes : Bytes) (acc : Nat),
      bytes.foldl (fun acc b => acc * 256 + b.toNat) acc < (acc + 1) * 256 ^ bytes.length := by
    intro bytes
    induction bytes with
    | nil => simp
    | cons b rest ih =>
        intro acc
        have hrest := ih (acc * 256 + b.toNat)
        have hb : b.toNat < 256 := b.toNat_lt
        calc (b :: rest).foldl (fun acc b => acc * 256 + b.toNat) acc
            < (acc * 256 + b.toNat + 1) * 256 ^ rest.length := hrest
          _ ≤ ((acc + 1) * 256) * 256 ^ rest.length := Nat.mul_le_mul_right _ (by omega)
          _ = (acc + 1) * 256 ^ (b :: rest).length := by rw [List.length_cons, pow_succ]; ring
  simpa [fromBeBytes] using hall bytes 0

theorem fromBeBytes_toBeBytes {n : Nat} (h : n < 2 ^ 64) : fromBeBytes (toBeBytes n) = n := by
  have hdigit : ∀ k, (UInt8.ofNat (k % 256)).toNat = k % 256 := by
    intro k
    rw [UInt8.toNat_ofNat', Nat.mod_eq_of_lt (by omega)]
  have hstep : ∀ k, n / 256 ^ (k + 1) * 256 + n / 256 ^ k % 256 = n / 256 ^ k := by
    intro k
    rw [pow_succ, ← Nat.div_div_eq_div_mul]
    exact Nat.div_add_mod' (n / 256 ^ k) 256
  have htop : 0 * 256 + n / 256 ^ 7 % 256 = n / 256 ^ 7 := by
    rw [Nat.zero_mul, Nat.zero_add, Nat.mod_eq_of_lt]
    exact Nat.div_lt_of_lt_mul h
  calc fromBeBytes (toBeBytes n)
      = n / 256 ^ (0 + 1) * 256 + n / 256 ^ 0 % 256 := by
        simp only [fromBeBytes, toBeBytes, List.range, List.range.loop, List.map_cons,
          List.map_nil, List.foldl_cons, List.foldl_nil, hdigit]
        rw [htop, hstep 6, hstep 5, hstep 4, hstep 3, hstep 2, hstep 1]
    _ = n := by rw [hstep 0, pow_zero, Nat.div_one]

theorem toBeBytes_length (n : Nat) : (toBeBytes n).length = 8 := by
  simp [toBeBytes]

theorem toBeBytes_fromBeBytes {bytes : Bytes} (h : bytes.length = 8) :
    toBeBytes (fromBeBytes bytes) = bytes := by
  obtain ⟨a, b, c, d, e, f, g, i, rfl⟩ : ∃ a b c d e f g i, bytes = [a, b, c, d, e, f, g, i] := by
    match bytes, h with
    | [a, b, c, d, e, f, g, i], _ => exact ⟨a, b, c, d, e, f, g, i, rfl⟩
  have hbyte : ∀ (x : UInt8) (n : Nat), n = x.toNat → UInt8.ofNat n = x := by
    rintro x n rfl
    exact UInt8.ofNat_toNat
  have hlt : ∀ x : UInt8, x.toNat < 256 := fun x => x.toNat_lt
  have ha := hlt a
  have hb := hlt b
  have hc := hlt c
  have hd := hlt d
  have he := hlt e
  have hf := hlt f
  have hg := hlt g
  have hi := hlt i
  simp only [fromBeBytes, toBeBytes, List.range, List.range.loop, List.map_cons, List.map_nil,
    List.foldl_cons, List.foldl_nil, List.cons.injEq, and_true]
  refine ⟨hbyte a _ ?_, hbyte b _ ?_, hbyte c _ ?_, hbyte d _ ?_, hbyte e _ ?_, hbyte f _ ?_,
    hbyte g _ ?_, hbyte i _ ?_⟩ <;> omega

/-- `str::as_bytes`. -/
def asBytes (s : String) : Bytes := s.toUTF8.data.toList

/-- `std::str::from_utf8`. -/
def fromUtf8 (bytes : Bytes) : Option String := String.fromUTF8? ⟨bytes.toArray⟩

theorem asBytes_inj {s t : String} (h : asBytes s = asBytes t) : s = t :=
  String.toByteArray_inj.mp (ByteArray.ext (Array.toList_inj.mp h))

theorem asBytes_of_fromUtf8 {bytes : Bytes} {s : String} (h : fromUtf8 bytes = some s) :
    asBytes s = bytes := by
  simp only [fromUtf8, String.fromUTF8?, Option.dite_none_right_eq_some, Option.some.injEq] at h
  obtain ⟨_, rfl⟩ := h
  rfl

theorem fromUtf8_asBytes (s : String) : fromUtf8 (asBytes s) = some s := by
  have hbytes : ByteArray.mk s.toUTF8.data.toList.toArray = s.toUTF8 := by simp
  have hvalid : s.toUTF8.IsValidUTF8 := s.isValidUTF8
  unfold fromUtf8 asBytes String.fromUTF8?
  rw [hbytes, dif_pos hvalid]
  rfl

def hexDigit (n : Nat) : Char :=
  if n < 10 then Char.ofNat (48 + n) else Char.ofNat (87 + n)

/-- `hex::encode`. -/
def hexEncode (bytes : Bytes) : String :=
  String.ofList (bytes.flatMap (fun b => [hexDigit (b.toNat / 16), hexDigit (b.toNat % 16)]))

/-! ## Errors with context -/

/-- A result whose error is the chain of the contexts the code gives it, the outermost first. -/
abbrev Result (α : Type) := Except (List String) α

def bail {α : Type} (message : String) : Result α := .error [message]

/-- `Result::context`. -/
def withContext {α : Type} (message : String) : Result α → Result α
  | .ok value => .ok value
  | .error chain => .error (message :: chain)

/-- `Option::context`. -/
def orContext {α : Type} (message : String) : Option α → Result α
  | some value => .ok value
  | none => .error [message]

section

variable {α β : Type}

theorem withContext_eq_ok {message : String} {x : Result α} {value : α} :
    withContext message x = .ok value ↔ x = .ok value := by
  cases x <;> simp [withContext]

theorem orContext_eq_ok {message : String} {x : Option α} {value : α} :
    orContext message x = .ok value ↔ x = some value := by
  cases x <;> simp [orContext]

/-- What holds at the start of a fallible fold and is kept by every round holds at its end; `P`
speaks of the elements read so far. -/
theorem foldlM_invariant {f : β → α → Result β} {P : List α → β → Prop} {xs : List α}
    {first last : β} (hfirst : P [] first)
    (hround : ∀ done x b b', P done b → f b x = .ok b' → P (done ++ [x]) b')
    (h : xs.foldlM f first = .ok last) : P xs last := by
  have hall : ∀ (xs done : List α) (b : β), P done b → xs.foldlM f b = .ok last →
      P (done ++ xs) last := by
    intro xs
    induction xs with
    | nil =>
        intro done b hb h
        cases h
        simpa using hb
    | cons x rest ih =>
        intro done b hb h
        rw [List.foldlM_cons, bind_eq_ok] at h
        obtain ⟨b', hb', h⟩ := h
        have hrest := ih (done ++ [x]) b' (hround done x b b' hb hb') h
        simpa using hrest
  exact hall xs [] first hfirst h

/-- A fallible map over a list succeeds when it does on every element. -/
theorem mem_of_mapM_eq_ok {f : α → Result β} {xs : List α} {ys : List β}
    (h : xs.mapM f = .ok ys) {x : α} (hx : x ∈ xs) : ∃ y ∈ ys, f x = .ok y := by
  induction xs generalizing ys with
  | nil => cases hx
  | cons first rest ih =>
      rw [List.mapM_cons, bind_eq_ok] at h
      obtain ⟨y, hy, h⟩ := h
      rw [bind_eq_ok] at h
      obtain ⟨tail, htail, h⟩ := h
      cases h
      rcases List.mem_cons.mp hx with rfl | hx
      · exact ⟨y, List.mem_cons_self, hy⟩
      · obtain ⟨z, hz, hfz⟩ := ih htail hx
        exact ⟨z, List.mem_cons_of_mem _ hz, hfz⟩

theorem exists_of_mapM_eq_ok {f : α → Result β} {xs : List α} {ys : List β}
    (h : xs.mapM f = .ok ys) {y : β} (hy : y ∈ ys) : ∃ x ∈ xs, f x = .ok y := by
  induction xs generalizing ys with
  | nil =>
      cases h
      cases hy
  | cons first rest ih =>
      rw [List.mapM_cons, bind_eq_ok] at h
      obtain ⟨z, hz, h⟩ := h
      rw [bind_eq_ok] at h
      obtain ⟨tail, htail, h⟩ := h
      cases h
      rcases List.mem_cons.mp hy with rfl | hy
      · exact ⟨first, List.mem_cons_self, hz⟩
      · obtain ⟨x, hx, hfx⟩ := ih htail hy
        exact ⟨x, List.mem_cons_of_mem _ hx, hfx⟩

/-- What the elements and their results have in common. -/
theorem map_of_mapM_eq_ok {γ : Type} {f : α → Result β} {key : α → γ} {key' : β → γ}
    (hkey : ∀ x y, f x = .ok y → key' y = key x) {xs : List α} {ys : List β}
    (h : xs.mapM f = .ok ys) : ys.map key' = xs.map key := by
  induction xs generalizing ys with
  | nil =>
      cases h
      rfl
  | cons first rest ih =>
      rw [List.mapM_cons, bind_eq_ok] at h
      obtain ⟨y, hy, h⟩ := h
      rw [bind_eq_ok] at h
      obtain ⟨tail, htail, h⟩ := h
      cases h
      rw [List.map_cons, List.map_cons, hkey first y hy, ih htail]

end

end Lightfriend
