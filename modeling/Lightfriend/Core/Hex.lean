import Lightfriend.Core.Bytes

/-! # Hexadecimal text

Byte strings travel as hexadecimal digits, numbers as quantities without
leading zeros; both may carry the prefix `0x`.
-/

namespace Lightfriend

def hexValue (c : Char) : Option Nat :=
  if '0' ≤ c ∧ c ≤ '9' then some (c.toNat - 48)
  else if 'a' ≤ c ∧ c ≤ 'f' then some (c.toNat - 87)
  else if 'A' ≤ c ∧ c ≤ 'F' then some (c.toNat - 55)
  else none

def hexDecodeChars : List Char → Option Bytes
  | [] => some []
  | [_] => none
  | high :: low :: rest => do
      let h ← hexValue high
      let l ← hexValue low
      let tail ← hexDecodeChars rest
      some (UInt8.ofNat (h * 16 + l) :: tail)

/-- `hex::decode`. -/
def hexDecode (s : String) : Option Bytes := hexDecodeChars s.toList

/-- `s.strip_prefix("0x").unwrap_or(s)`. -/
def stripHexPrefix (s : String) : String :=
  match s.toList with
  | '0' :: 'x' :: rest => String.ofList rest
  | _ => s

/-- `u64::from_str_radix(s, 16)` of digits. -/
def radix16 (digits : List Char) : Option Nat :=
  if digits.isEmpty then none
  else do
    let n ← digits.foldlM (fun acc c => (hexValue c).map (acc * 16 + ·)) 0
    if n ≤ u64Max then some n else none

/-- `u64::from_str_radix(s, 16)`, with the sign that it accepts. -/
def u64FromHex (s : String) : Option Nat :=
  match s.toList with
  | '+' :: digits => radix16 digits
  | digits => radix16 digits

/-- A number as a node writes it. -/
def hexQuantity (n : Nat) : String :=
  String.ofList ('0' :: 'x' :: (if n = 0 then ['0'] else (Nat.digits 16 n).reverse.map hexDigit))

/-! ## What is written is read -/

theorem hexValue_hexDigit {n : Nat} (h : n < 16) : hexValue (hexDigit n) = some n := by
  revert n
  decide

@[simp] theorem stripHexPrefix_prefixed (s : String) : stripHexPrefix ("0x" ++ s) = s := by
  have hlist : ("0x" ++ s).toList = '0' :: 'x' :: s.toList := by simp
  rw [stripHexPrefix, hlist]
  simp

theorem hexDecode_hexEncode (bytes : Bytes) : hexDecode (hexEncode bytes) = some bytes := by
  rw [hexDecode, hexEncode, String.toList_ofList]
  induction bytes with
  | nil => rfl
  | cons b rest ih =>
      have hlt : b.toNat < 256 := b.toNat_lt
      have hbyte : UInt8.ofNat (b.toNat / 16 * 16 + b.toNat % 16) = b := by
        rw [Nat.div_add_mod']
        exact UInt8.ofNat_toNat
      rw [List.flatMap_cons, List.cons_append, List.cons_append, List.nil_append, hexDecodeChars,
        hexValue_hexDigit (by omega), hexValue_hexDigit (by omega), ih]
      simp only [Option.bind_eq_bind, Option.bind_some, hbyte]

theorem foldlM_hexDigits (digits : List Nat) (hlt : ∀ d ∈ digits, d < 16) (acc : Nat) :
    (digits.map hexDigit).foldlM (fun acc c => (hexValue c).map (acc * 16 + ·)) acc =
      some (digits.foldl (fun acc d => acc * 16 + d) acc) := by
  induction digits generalizing acc with
  | nil => rfl
  | cons d rest ih =>
      rw [List.map_cons, List.foldlM_cons, hexValue_hexDigit (hlt d List.mem_cons_self)]
      exact ih (fun x hx => hlt x (List.mem_cons_of_mem _ hx)) _

theorem foldr_digits (digits : List Nat) :
    digits.foldr (fun d acc => acc * 16 + d) 0 = Nat.ofDigits 16 digits := by
  induction digits with
  | nil => rfl
  | cons d rest ih =>
      rw [List.foldr_cons, ih, Nat.ofDigits_cons]
      ring

/-- A quantity is read back as its number. -/
theorem u64FromHex_hexQuantity {n : Nat} (h : n ≤ u64Max) :
    u64FromHex (stripHexPrefix (hexQuantity n)) = some n := by
  have hstrip : ∀ digits : List Char,
      stripHexPrefix (String.ofList ('0' :: 'x' :: digits)) = String.ofList digits := by
    intro digits
    rw [stripHexPrefix, String.toList_ofList]
    rfl
  rw [hexQuantity, hstrip, u64FromHex, String.toList_ofList]
  by_cases hzero : n = 0
  · subst hzero
    rfl
  · have hne : Nat.digits 16 n ≠ [] := Nat.digits_ne_nil_iff_ne_zero.mpr hzero
    have hlt : ∀ d ∈ (Nat.digits 16 n).reverse, d < 16 :=
      fun d hd => Nat.digits_lt_base (by norm_num) (List.mem_reverse.mp hd)
    have hvalue : (Nat.digits 16 n).reverse.foldl (fun acc d => acc * 16 + d) 0 = n := by
      rw [List.foldl_reverse, foldr_digits, Nat.ofDigits_digits]
    have hread : radix16 ((Nat.digits 16 n).reverse.map hexDigit) = some n := by
      rw [radix16, foldlM_hexDigits _ hlt, hvalue, if_neg (by simpa using hne)]
      exact if_pos h
    rw [if_neg hzero]
    cases hdigits : (Nat.digits 16 n).reverse with
    | nil => exact absurd (List.reverse_eq_nil_iff.mp hdigits) hne
    | cons d rest =>
        rw [hdigits] at hread hlt
        have hplus : ∀ d < 16, hexDigit d ≠ '+' := by decide
        have hd := hplus d (hlt d List.mem_cons_self)
        rw [List.map_cons] at hread ⊢
        generalize hexDigit d = c at hd hread ⊢
        split
        next digits heq =>
          cases heq
          exact absurd rfl hd
        next => exact hread

end Lightfriend
