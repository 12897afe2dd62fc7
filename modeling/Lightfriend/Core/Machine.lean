import Mathlib.Tactic

/-! # Fixed-width integers and text of the source language

Timestamps and counters of the repository are `i32` or `u64`; they are carried as
integers, with the saturating operations clamped to the range of the type.
Text is compared and searched character by character.
-/

namespace Lightfriend

def i32Min : Int := -2147483648
def i32Max : Int := 2147483647

/-- Clamp an exact result to the range of `i32`. -/
def clampI32 (x : Int) : Int := max i32Min (min i32Max x)

/-- `i32::saturating_add`. -/
def saturatingAdd (a b : Int) : Int := clampI32 (a + b)

/-- `i32::saturating_sub`. -/
def saturatingSub (a b : Int) : Int := clampI32 (a - b)

/-- `secs.min(i32::MAX as u64) as i32`. -/
def secsAsI32 (secs : Nat) : Int := min (secs : Int) i32Max

def u64Max : Nat := 18446744073709551615

/-- `u64::saturating_mul`. -/
def saturatingMulU64 (a b : Nat) : Nat := min (a * b) u64Max

/-- `str::chars().take(n).collect()`. -/
def takeChars (n : Nat) (s : String) : String := String.ofList (s.toList.take n)

/-- `str::starts_with(char)`. -/
def startsWithChar (c : Char) (s : String) : Bool := s.toList.head? == some c

/-- Does `needle` occur in `hay` as a block of consecutive characters? -/
def hasInfix (needle : List Char) : List Char → Bool
  | [] => needle.isEmpty
  | c :: rest => needle.isPrefixOf (c :: rest) || hasInfix needle rest

/-- `str::contains(&str)`. -/
def containsText (s needle : String) : Bool := hasInfix needle.toList s.toList

/-- `str::to_ascii_lowercase`. -/
def toAsciiLowercase (s : String) : String :=
  String.ofList (s.toList.map (fun c => if 'A' ≤ c ∧ c ≤ 'Z' then c.toLower else c))

/-- `char::is_control`: the characters of the general category Cc. -/
def isControl (c : Char) : Bool := c.val ≤ 0x1F || (0x7F ≤ c.val && c.val ≤ 0x9F)

/-- `char::is_whitespace`. -/
def isWhitespace (c : Char) : Bool :=
  (0x09 ≤ c.val && c.val ≤ 0x0D) || c.val = 0x20 || c.val = 0x85 || c.val = 0xA0 ||
    c.val = 0x1680 || (0x2000 ≤ c.val && c.val ≤ 0x200A) || c.val = 0x2028 || c.val = 0x2029 ||
      c.val = 0x202F || c.val = 0x205F || c.val = 0x3000

/-- `str::trim`. -/
def trim (s : String) : String :=
  String.ofList ((s.toList.dropWhile isWhitespace).reverse.dropWhile isWhitespace).reverse

/-- `str::starts_with(&str)`. -/
def startsWithText (s needle : String) : Bool := needle.toList.isPrefixOf s.toList

/-- `str::ends_with(&str)`. -/
def endsWithText (s needle : String) : Bool := needle.toList.isSuffixOf s.toList

/-- The text before the first `c`: `str::split(c).next()`. -/
def beforeChar (c : Char) (s : String) : String := String.ofList (s.toList.takeWhile (· ≠ c))

/-! ## Fallible computations -/

/-- What a sequence of two fallible computations needs to succeed. -/
theorem bind_eq_ok {ε α β : Type} {x : Except ε α} {f : α → Except ε β} {value : β} :
    (x >>= f) = .ok value ↔ ∃ a, x = .ok a ∧ f a = .ok value := by
  cases x <;> simp [bind, Except.bind]

end Lightfriend
