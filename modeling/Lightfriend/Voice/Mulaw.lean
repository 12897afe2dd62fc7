import Lightfriend.Core.Fault
import Mathlib.Data.Nat.Bitwise

/-! # The mu-law codec

A phone call carries one byte a sample: the sign, the segment and four bits
within the segment of the biased magnitude.
-/

namespace Lightfriend.Voice.Audio

/-! ## Samples -/

/-- `-n` on `i16`. -/
def negI16 (overflowChecks : Bool) (n : Int16) : Checked Int16 :=
  if overflowChecks && (-n).toInt != -n.toInt then .error .overflow else .ok (-n)

/-- `a + b` on `i16`. -/
def addI16 (overflowChecks : Bool) (a b : Int16) : Checked Int16 :=
  if overflowChecks && (a + b).toInt != a.toInt + b.toInt then .error .overflow else .ok (a + b)

/-! ## The code -/

def mulawDecode (encoded : UInt8) : Int16 :=
  let mu := ~~~encoded
  let sign := mu &&& 0x80
  let exponent := (mu >>> 4) &&& 0x07
  let mantissa := mu &&& 0x0F
  let magnitude : Nat := (mantissa.toNat <<< 1) ||| 1
  -- an `i32`, and far from its ends
  let magnitude : Int := ((magnitude <<< (exponent.toNat + 2) : Nat) : Int) - 0x21
  let magnitude := max 0 (min 32767 magnitude)
  if sign ≠ 0 then -Int16.ofInt magnitude else Int16.ofInt magnitude

def bias : Int16 := 0x84

def clip : Int16 := 32635

/-- The segment, searched from the highest down. -/
def findExponent (magnitude : Int16) : Nat → Int16 → Nat
  | 0, _ => 0
  | exponent + 1, mask =>
      if magnitude &&& mask ≠ 0 then exponent + 1
      else findExponent magnitude exponent (mask >>> 1)

def mulawEncode (overflowChecks : Bool) (sample : Int16) : Checked UInt8 := do
  let sign : UInt8 := if sample < 0 then 0x80 else 0x00
  let magnitude ←
    if sample < 0 then (negI16 overflowChecks sample).map (fun negated => min negated clip)
    else .ok (min sample clip)
  let magnitude ← addI16 overflowChecks magnitude bias
  let exponent := findExponent magnitude 7 0x4000
  let mantissa := ((magnitude >>> Int16.ofNat (exponent + 3)) &&& 0x0F).toUInt16.toUInt8
  .ok (~~~(sign ||| (UInt8.ofNat exponent <<< 4) ||| mantissa))

/-! ## What the code is to keep -/

/-- The sample as far as the code reaches. -/
def clipped (sample : Int16) : Int := max (-32635) (min 32635 sample.toInt)

/-- The segment of a magnitude: its highest bit, with the bias added. -/
def segment (magnitude : Nat) : Nat := Nat.log2 (magnitude + 132) - 7

/-- The magnitudes of a segment are `2 ^ (segment + 3)` apart. -/
def step (magnitude : Nat) : Nat := 2 ^ (segment magnitude + 3)

/-- The decoded sample is the sample, up to a step of its segment. -/
def WithinStep (sample decoded : Int16) : Prop :=
  (decoded.toInt - clipped sample).natAbs ≤ step (clipped sample).natAbs

instance (sample decoded : Int16) : Decidable (WithinStep sample decoded) :=
  inferInstanceAs (Decidable (_ ≤ _))

/-- No sample of the stream makes the encoder overflow, and each is decoded within its step. -/
structure StreamSurvives (overflowChecks : Bool) (samples : List Int16) : Prop where
  encodes : ∀ sample ∈ samples, Returns (mulawEncode true sample)
  decodes : ∃ encoded, samples.mapM (mulawEncode overflowChecks) = .ok encoded ∧
    List.Forall₂ WithinStep samples (encoded.map mulawDecode)

/-! ## Bits of a magnitude -/

theorem ofNat_and (m n : Nat) : Int16.ofNat m &&& Int16.ofNat n = Int16.ofNat (m &&& n) := by
  apply Int16.toBitVec.inj
  simp

theorem ofNat_eq_zero {n : Nat} (h : n < 2 ^ 15) : Int16.ofNat n = 0 ↔ n = 0 := by
  rw [← Int16.toInt_inj, Int16.toInt_ofNat_of_lt h]
  simp

theorem ofNat_shiftRight {n k : Nat} (h : n < 2 ^ 15) (hk : k < 16) :
    Int16.ofNat n >>> Int16.ofNat k = Int16.ofNat (n / 2 ^ k) := by
  apply Int16.toBitVec.inj
  have hmsb : (BitVec.ofNat 16 n).msb = false := by
    rw [BitVec.msb_eq_false_iff_two_mul_lt, BitVec.toNat_ofNat]
    omega
  have hlt : n / 2 ^ k < 2 ^ 15 := Nat.lt_of_le_of_lt (Nat.div_le_self _ _) h
  have hshift : ∀ k < 16, ((BitVec.ofNat 16 k).smod 16).toNat = k := by decide
  apply BitVec.eq_of_toNat_eq
  calc (Int16.ofNat n >>> Int16.ofNat k).toBitVec.toNat
      = ((BitVec.ofNat 16 n).sshiftRight' ((BitVec.ofNat 16 k).smod 16)).toNat := rfl
    _ = n % 2 ^ 16 / 2 ^ k := by
        rw [BitVec.toNat_sshiftRight'_of_msb_false hmsb, hshift k hk, BitVec.toNat_ofNat,
          Nat.shiftRight_eq_div_pow]
    _ = (Int16.ofNat (n / 2 ^ k)).toBitVec.toNat := by
        rw [Nat.mod_eq_of_lt (by omega)]
        exact (Nat.mod_eq_of_lt (by omega)).symm

theorem and_two_pow_ne_zero {n k : Nat} (h : n < 2 ^ 15) :
    Int16.ofNat n &&& Int16.ofNat (2 ^ k) ≠ 0 ↔ n.testBit k = true := by
  have hand : n &&& 2 ^ k < 2 ^ 15 := Nat.lt_of_le_of_lt Nat.and_le_left h
  rw [ofNat_and, ne_eq, ofNat_eq_zero hand, Nat.and_two_pow]
  cases n.testBit k <;> simp

/-- The search stops at the highest bit. -/
theorem findExponent_spec {n : Nat} (hn : 2 ^ 7 ≤ n) (exponent : Nat) (hexponent : exponent ≤ 7)
    (h : n < 2 ^ (exponent + 8)) :
    findExponent (Int16.ofNat n) exponent (Int16.ofNat (2 ^ (exponent + 7))) =
      Nat.log2 n - 7 := by
  have hlog : ∀ k, 2 ^ k ≤ n → n < 2 ^ (k + 1) → Nat.log2 n = k := by
    intro k hle hlt
    exact (Nat.log2_eq_iff (by omega)).mpr ⟨hle, hlt⟩
  induction exponent with
  | zero => rw [findExponent, hlog 7 hn h]
  | succ exponent ih =>
      have hbits : n < 2 ^ 15 :=
        Nat.lt_of_lt_of_le h (Nat.pow_le_pow_right (by decide) (by omega))
      rw [findExponent]
      by_cases hhigh : 2 ^ (exponent + 1 + 7) ≤ n
      · have hbit : n.testBit (exponent + 1 + 7) = true :=
          Nat.testBit_of_two_pow_le_and_two_pow_add_one_gt hhigh h
        rw [if_pos ((and_two_pow_ne_zero hbits).mpr hbit), hlog _ hhigh h]
        omega
      · have hbit : n.testBit (exponent + 1 + 7) = false :=
          Nat.testBit_lt_two_pow (Nat.lt_of_not_le hhigh)
        have hmask : Int16.ofNat (2 ^ (exponent + 1 + 7)) >>> 1 =
            Int16.ofNat (2 ^ (exponent + 7)) := by
          have hhalf : 2 ^ (exponent + 1 + 7) / 2 ^ 1 = 2 ^ (exponent + 7) := by
            rw [Nat.pow_div (by omega) (by decide)]
            congr 1
          have hpow : 2 ^ (exponent + 1 + 7) < 2 ^ 15 :=
            Nat.pow_lt_pow_right (by decide) (by omega)
          rw [← hhalf]
          exact ofNat_shiftRight hpow (by decide)
        rw [if_neg (by rw [and_two_pow_ne_zero hbits, hbit]; decide), hmask]
        exact ih (by omega) (Nat.lt_of_not_le hhigh)

/-! ## What is encoded, and what is decoded of it -/

/-- The sign, the segment and the four bits of a sample. -/
def codeOf (negative : Bool) (exponent mantissa : Nat) : UInt8 :=
  ~~~((if negative then 0x80 else 0x00 : UInt8) ||| (UInt8.ofNat exponent <<< 4) |||
    UInt8.ofNat mantissa)

/-- The four bits behind the highest one. -/
def mantissa (magnitude : Nat) : Nat := (magnitude + 132) / 2 ^ (segment magnitude + 3) % 16

/-- What a sample is encoded as. -/
def encodedAs (sample : Int16) : UInt8 :=
  codeOf (decide (sample < 0)) (segment (clipped sample).natAbs) (mantissa (clipped sample).natAbs)

theorem toInt_min_clip {n : Int16} (h : 0 ≤ n.toInt) :
    min n clip = Int16.ofNat (min n.toInt.toNat 32635) := by
  have hclip : clip.toInt = 32635 := rfl
  have hlt := n.toInt_lt
  rw [← Int16.toInt_inj, Int16.toInt_ofNat_of_lt (by omega)]
  by_cases hle : n ≤ clip
  · have hmin : min n clip = n := if_pos hle
    rw [Int16.le_iff_toInt_le, hclip] at hle
    rw [hmin]
    omega
  · have hmin : min n clip = clip := if_neg hle
    rw [Int16.le_iff_toInt_le, hclip] at hle
    rw [hmin, hclip]
    omega

theorem clipped_natAbs_le (sample : Int16) : (clipped sample).natAbs ≤ 32635 := by
  unfold clipped
  omega

theorem segment_lt {a : Nat} (h : a ≤ 32635) : segment a < 8 := by
  have hlog : Nat.log2 (a + 132) < 15 := (Nat.log2_lt (by omega)).mpr (by omega)
  unfold segment
  omega

/-- What the encoder does with a magnitude. -/
theorem encode_magnitude (overflowChecks : Bool) {a : Nat} (h : a ≤ 32635) :
    addI16 overflowChecks (Int16.ofNat a) bias = .ok (Int16.ofNat (a + 132)) ∧
      findExponent (Int16.ofNat (a + 132)) 7 0x4000 = segment a ∧
      ((Int16.ofNat (a + 132) >>> Int16.ofNat (segment a + 3)) &&& 0x0F).toUInt16.toUInt8 =
        UInt8.ofNat (mantissa a) := by
  have hsegment := segment_lt h
  refine ⟨?_, findExponent_spec (by omega) 7 le_rfl (by omega), ?_⟩
  · have hsum : Int16.ofNat a + bias = Int16.ofNat (a + 132) := (Int16.ofNat_add a 132).symm
    unfold addI16
    rw [hsum, if_neg]
    have hbias : bias.toInt = 132 := rfl
    rw [Int16.toInt_ofNat_of_lt (by omega), Int16.toInt_ofNat_of_lt (by omega), hbias]
    simp
  · rw [ofNat_shiftRight (by omega) (by omega)]
    have hand : Int16.ofNat ((a + 132) / 2 ^ (segment a + 3)) &&& 0x0F =
        Int16.ofNat (mantissa a) := by
      refine (ofNat_and _ 15).trans (congrArg _ ?_)
      exact Nat.and_two_pow_sub_one_eq_mod _ 4
    rw [hand]
    apply UInt8.toNat_inj.mp
    simp

theorem mulawEncode_eq (overflowChecks : Bool) {sample : Int16} (h : sample ≠ Int16.minValue) :
    mulawEncode overflowChecks sample = .ok (encodedAs sample) := by
  obtain ⟨hadd, hexponent, hmantissa⟩ :=
    encode_magnitude overflowChecks (clipped_natAbs_le sample)
  have hmin := sample.le_toInt
  have hzero : (0 : Int16).toInt = 0 := rfl
  unfold mulawEncode encodedAs codeOf
  by_cases hsign : sample < 0
  · have hneg : (-sample).toInt = -sample.toInt := by
      have hne : sample.toInt ≠ -2 ^ 15 := fun heq => h (Int16.toInt_inj.mp heq)
      have hlt := sample.toInt_lt
      rw [Int16.toInt_neg]
      exact Int.bmod_eq_of_le (by omega) (by omega)
    have hnegated : negI16 overflowChecks sample = .ok (-sample) := by
      simp [negI16, hneg]
    rw [Int16.lt_iff_toInt_lt, hzero] at hsign
    have hmagnitude : min (-sample) clip = Int16.ofNat (clipped sample).natAbs := by
      rw [toInt_min_clip (by omega), hneg]
      congr 1
      unfold clipped
      omega
    have hlt : sample < 0 := by
      rw [Int16.lt_iff_toInt_lt, hzero]
      exact hsign
    simp only [hlt, if_true, decide_true, hnegated, Except.map, hmagnitude]
    simp only [bind, Except.bind, hadd, hexponent, hmantissa]
  · have hmagnitude : min sample clip = Int16.ofNat (clipped sample).natAbs := by
      rw [Int16.lt_iff_toInt_lt, hzero] at hsign
      rw [toInt_min_clip (by omega)]
      congr 1
      unfold clipped
      omega
    simp only [hsign, if_false, decide_false, Bool.false_eq_true, hmagnitude]
    simp only [bind, Except.bind, hadd, hexponent, hmantissa]

theorem returns_mulawEncode_iff (sample : Int16) :
    Returns (mulawEncode true sample) ↔ sample ≠ Int16.minValue := by
  constructor
  · rintro ⟨value, hvalue⟩ rfl
    cases hvalue
  · intro h
    rw [mulawEncode_eq true h]
    exact returns_ok _

theorem mulawDecode_codeOf : ∀ negative : Bool, ∀ exponent < 8, ∀ mantissa < 16,
    (mulawDecode (codeOf negative exponent mantissa)).toInt =
      (if negative then -1 else 1) *
        max 0 ((2 * (mantissa : Int) + 1) * 2 ^ (exponent + 2) - 33) := by
  decide +kernel

/-- The magnitude that is decoded. It lacks the highest bit, and most of the bias. -/
def decodedMagnitude (a : Nat) : Int :=
  max 0 ((2 * (mantissa a : Int) + 1) * 2 ^ (segment a + 2) - 33)

/-- Only the smallest magnitudes are decoded within their step. -/
theorem decodedMagnitude_sub_le_iff {a : Nat} (h : a ≤ 32635) :
    (decodedMagnitude a - a).natAbs ≤ step a ↔ a ≤ 8 := by
  have hsegment := segment_lt h
  have hlog : segment a + 7 = Nat.log2 (a + 132) := by
    have hle : 7 ≤ Nat.log2 (a + 132) := (Nat.le_log2 (by omega)).mpr (by omega)
    unfold segment
    omega
  obtain ⟨hlow, hhigh⟩ := (Nat.log2_eq_iff (by omega)).mp hlog.symm
  unfold decodedMagnitude step mantissa
  generalize segment a = exponent at *
  interval_cases exponent <;> omega

theorem withinStep_iff (sample : Int16) :
    WithinStep sample (mulawDecode (encodedAs sample)) ↔
      -8 ≤ sample.toInt ∧ sample.toInt ≤ 8 := by
  have hle := clipped_natAbs_le sample
  have herror := decodedMagnitude_sub_le_iff hle
  have hdecoded := mulawDecode_codeOf (decide (sample < 0)) _ (segment_lt hle)
    (mantissa (clipped sample).natAbs) (Nat.mod_lt _ (by decide))
  rw [← decodedMagnitude, ← encodedAs] at hdecoded
  have hsmall : (clipped sample).natAbs ≤ 8 ↔ -8 ≤ sample.toInt ∧ sample.toInt ≤ 8 := by
    unfold clipped
    omega
  have hsign : sample < 0 ↔ clipped sample < 0 := by
    have hzero : (0 : Int16).toInt = 0 := rfl
    rw [Int16.lt_iff_toInt_lt, hzero]
    unfold clipped
    omega
  rw [WithinStep, hdecoded, ← hsmall, ← herror]
  by_cases hnegative : sample < 0
  · have hclipped := hsign.mp hnegative
    simp only [hnegative, decide_true, if_true]
    omega
  · have hclipped := mt hsign.mpr hnegative
    simp only [hnegative, decide_false, Bool.false_eq_true, if_false]
    omega

/-! ## Streams -/

/-- Of a stream just the samples near zero survive. -/
theorem streamSurvives_iff (overflowChecks : Bool) (samples : List Int16) :
    StreamSurvives overflowChecks samples ↔
      ∀ sample ∈ samples, -8 ≤ sample.toInt ∧ sample.toInt ≤ 8 := by
  have hencoded : (∀ sample ∈ samples, sample ≠ Int16.minValue) →
      samples.mapM (mulawEncode overflowChecks) = .ok (samples.map encodedAs) :=
    fun h => mapM_eq_ok (fun sample hsample => mulawEncode_eq overflowChecks (h sample hsample))
  have hwithin : List.Forall₂ WithinStep samples ((samples.map encodedAs).map mulawDecode) ↔
      ∀ sample ∈ samples, -8 ≤ sample.toInt ∧ sample.toInt ≤ 8 := by
    rw [List.map_map, List.forall₂_map_right_iff, List.forall₂_same]
    exact forall₂_congr (fun sample _ => withinStep_iff sample)
  constructor
  · intro h
    obtain ⟨encoded, hmap, hdecodes⟩ := h.decodes
    rw [hencoded (fun sample hsample =>
      (returns_mulawEncode_iff sample).mp (h.encodes sample hsample))] at hmap
    cases hmap
    exact hwithin.mp hdecodes
  · intro h
    have hne : ∀ sample ∈ samples, sample ≠ Int16.minValue := by
      rintro sample hsample rfl
      exact absurd (h _ hsample).1 (by decide)
    exact ⟨fun sample hsample => (returns_mulawEncode_iff sample).mpr (hne sample hsample),
      _, hencoded hne, hwithin.mpr h⟩

example : mulawEncode true 1000 = .ok 0xCE ∧ mulawDecode 0xCE = 63 := by decide

end Lightfriend.Voice.Audio
