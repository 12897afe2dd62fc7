import Lightfriend.Contract.TrustChain
import Lightfriend.Core.Fault

/-! # The data of a proposal's log

A node answers with the data of a log as hexadecimal text. The decoders read
an offset, a time and a length out of 256-bit words, of which they keep the
last eight bytes, and slice the text of the commit hash by them.
-/

namespace Lightfriend.Contract

/-! ## The decoders -/

/-- The data of a log, as long as memory allows. -/
structure LogData where
  text : String
  fits : text.length ≤ isizeMax

theorem u256ToUsize_le (bytes : Bytes) (h : bytes.length ≤ 32) : u256ToUsize bytes ≤ u64Max := by
  have hlt := fromBeBytes_lt (bytes.drop 24)
  have hpow : 256 ^ (bytes.drop 24).length ≤ 256 ^ 8 :=
    Nat.pow_le_pow_right (by omega) (by rw [List.length_drop]; omega)
  unfold u256ToUsize u64Max
  omega

/-- `bytes[first..first + size]`. -/
def sliceSized (checks : Bool) (bytes : Bytes) (first size : Nat) : Checked Bytes := do
  let last ← addUsize checks first size
  sliceBytes bytes first last

def LogData.decodeImageProposedActivatesAt (world : TrustWorld) (data : LogData) :
    Checked (Option String) :=
  match hexDecode (stripHexPrefix data.text) with
  | none => return none
  | some bytes =>
      if bytes.length < 64 then return none
      else do
        let activatesAtBytes ← sliceBytes bytes 32 64
        return timestampFromUnixSecs world (u256ToUsize activatesAtBytes)

/-- The string at `offset` of the decoded bytes. -/
def readString (checks : Bool) (bytes : Bytes) (offset : Nat) : Checked (Option String) := do
  let header ← addUsize checks offset 64
  if bytes.length < header then return none
  else
    let lenBytes ← sliceSized checks bytes offset 32
    let strLen := u256ToUsize lenBytes
    let first ← addUsize checks offset 32
    let last ← addUsize checks first strLen
    if bytes.length < last then return none
    else
      let text ← sliceBytes bytes first last
      return fromUtf8 text

def LogData.decodeCommitHashFromLogData (checks : Bool) (data : LogData) :
    Checked (Option String) :=
  match hexDecode (stripHexPrefix data.text) with
  | none => return none
  | some bytes =>
      if bytes.length < 96 then return none
      else do
        let offsetBytes ← sliceBytes bytes 0 32
        readString checks bytes (u256ToUsize offsetBytes)

/-! ## The encoding of the event -/

/-- The 32 bytes of a `uint256`. -/
def abiWord (n : Nat) : Bytes :=
  (List.range 24).map (fun i => UInt8.ofNat (n / 256 ^ (31 - i) % 256)) ++ toBeBytes n

/-- Data is padded to a multiple of 32 bytes. -/
def abiPad (bytes : Bytes) : Bytes :=
  bytes ++ List.replicate ((32 - bytes.length % 32) % 32) 0

/-- `abi.encode(commitHash, activatesAt)`: the offset of the string, the time, the string. -/
def abiEncode (commitHash : Bytes) (activatesAt : Nat) : Bytes :=
  abiWord 64 ++ abiWord activatesAt ++ abiWord commitHash.length ++ abiPad commitHash

/-- The data that a node reports for `ImageProposed`. -/
def Encodes (data : LogData) (commitHash : String) (activatesAt : Nat) : Prop :=
  data.text = "0x" ++ hexEncode (abiEncode (asBytes commitHash) activatesAt)

/-- The words point to a string that ends below the last address. -/
def Addressable (data : LogData) : Prop :=
  ∀ bytes, hexDecode (stripHexPrefix data.text) = some bytes → 96 ≤ bytes.length →
    u256ToUsize (bytes.take 32) + 64 ≤ u64Max ∧
      (u256ToUsize (bytes.take 32) + 64 ≤ bytes.length →
        u256ToUsize (bytes.take 32) + 32 +
          u256ToUsize ((bytes.drop (u256ToUsize (bytes.take 32))).take 32) ≤ u64Max)

/-- What is told of the time is the time itself, or nothing. -/
def ExactOrNone (world : TrustWorld) (activatesAt : Nat) (decoded : Checked (Option String)) :
    Prop :=
  decoded = .ok none ∨ decoded = .ok (world.toRfc3339 activatesAt)

/-- The decoders do what is expected of them on the data. -/
def DecodesExactly (world : TrustWorld) (checks : Bool) (data : LogData) : Prop :=
  Returns (data.decodeCommitHashFromLogData checks) ∧
    Returns (data.decodeImageProposedActivatesAt world) ∧
      ∀ commitHash activatesAt, commitHash ≠ "" → activatesAt < 2 ^ 256 →
        Encodes data commitHash activatesAt →
          data.decodeCommitHashFromLogData checks = .ok (some commitHash) ∧
            ExactOrNone world activatesAt (data.decodeImageProposedActivatesAt world)

/-- The date library writes the instants of its range, each its own way. -/
structure RendersInstants (world : TrustWorld) (minTimestamp maxTimestamp : Int) : Prop where
  isSome_iff : ∀ secs, (world.toRfc3339 secs).isSome = true ↔
    minTimestamp ≤ secs ∧ secs ≤ maxTimestamp
  inj : ∀ a b text, world.toRfc3339 a = some text → world.toRfc3339 b = some text → a = b

/-- The last 64 bits of a number, as a signed number. -/
def asI64 (n : Nat) : Int :=
  if n % 2 ^ 64 < 2 ^ 63 then ((n % 2 ^ 64 : Nat) : Int) else ((n % 2 ^ 64 : Nat) : Int) - 2 ^ 64

/-- The time is below `2^63`, or what is left of it is no date. -/
def TimeSurvives (minTimestamp maxTimestamp : Int) (activatesAt : Nat) : Prop :=
  activatesAt < 2 ^ 63 ∨ asI64 activatesAt < minTimestamp ∨ maxTimestamp < asI64 activatesAt

/-! ## When the decoders return -/

section Reading

variable {checks : Bool} {bytes : Bytes} {offset : Nat}

/-- What is read where no sum leaves the words. -/
theorem readString_eq (hheader : offset + 64 ≤ u64Max)
    (hlast : offset + 64 ≤ bytes.length →
      offset + 32 + u256ToUsize ((bytes.drop offset).take 32) ≤ u64Max) :
    readString checks bytes offset = .ok (
      if bytes.length < offset + 64 then none
      else if bytes.length < offset + 32 + u256ToUsize ((bytes.drop offset).take 32) then none
      else fromUtf8 ((bytes.drop (offset + 32)).take
        (u256ToUsize ((bytes.drop offset).take 32)))) := by
  unfold readString sliceSized
  rw [addUsize_of_le hheader]
  simp only [bind, Except.bind, pure, Except.pure]
  split
  next => rfl
  next hlong =>
    rw [addUsize_of_le (by omega)]
    simp only
    rw [sliceBytes_of_le _ _ _ (by omega)]
    simp only
    rw [addUsize_of_le (hlast (by omega))]
    simp only
    split
    next => rfl
    next hin => rw [sliceBytes_of_le _ _ _ (by omega)]

/-- Elsewhere it aborts: a sum that wraps around is no end of a slice. -/
theorem readString_error (hbytes : 64 ≤ bytes.length) (hfits : bytes.length ≤ isizeMax)
    (hoffset : offset ≤ u64Max)
    (h : ¬ (offset + 64 ≤ u64Max ∧ (offset + 64 ≤ bytes.length →
      offset + 32 + u256ToUsize ((bytes.drop offset).take 32) ≤ u64Max))) :
    ∃ fault, readString checks bytes offset = .error fault := by
  have hslice : ∀ first last, bytes.length < last ∨ last < first →
      sliceBytes bytes first last = .error .slice := by
    intro first last hbad
    exact if_neg (by omega)
  unfold readString sliceSized
  by_cases hheader : offset + 64 ≤ u64Max
  · -- The offset is right and the length is not.
    have hnot : ¬ (offset + 64 ≤ bytes.length →
        offset + 32 + u256ToUsize ((bytes.drop offset).take 32) ≤ u64Max) :=
      fun hall => h ⟨hheader, hall⟩
    push Not at hnot
    obtain ⟨hin, hover⟩ := hnot
    have hword : u256ToUsize ((bytes.drop offset).take 32) ≤ u64Max := 
      u256ToUsize_le _ (by rw [List.length_take]; omega)
    rw [addUsize_of_le hheader]
    simp only [bind, Except.bind, pure, Except.pure]
    rw [if_neg (by omega), addUsize_of_le (by omega)]
    simp only
    rw [sliceBytes_of_le _ _ _ (by omega)]
    simp only
    obtain herror | ⟨wrapped, hwrapped, hlt, -⟩ :=
      addUsize_cases checks (by omega) hword hover
    · exact ⟨_, by rw [herror]⟩
    · rw [hwrapped]
      simp only
      rw [if_neg (by omega), hslice _ _ (.inr hlt)]
      exact ⟨_, rfl⟩
  · obtain herror | ⟨wrapped, hwrapped, -, hlt⟩ :=
      addUsize_cases checks hoffset (by decide : 64 ≤ u64Max) (by omega)
    · exact ⟨_, by rw [herror]; rfl⟩
    · rw [hwrapped]
      simp only [bind, Except.bind, pure, Except.pure]
      rw [if_neg (by omega)]
      by_cases hlast : offset + 32 ≤ u64Max
      · rw [addUsize_of_le hlast]
        simp only
        rw [hslice _ _ (.inl (by unfold isizeMax at hfits; unfold u64Max at hheader; omega))]
        exact ⟨_, rfl⟩
      · obtain herror | ⟨wrapped, hwrapped, hlt, -⟩ :=
          addUsize_cases checks hoffset (by decide : 32 ≤ u64Max) (by omega)
        · exact ⟨_, by rw [herror]⟩
        · rw [hwrapped]
          simp only
          rw [hslice _ _ (.inr hlt)]
          exact ⟨_, rfl⟩

theorem hexDecode_length {text : String} (h : hexDecode (stripHexPrefix text) = some bytes) :
    bytes.length ≤ text.length := by
  have hchars : ∀ (bytes : Bytes) (chars : List Char),
      hexDecodeChars chars = some bytes → bytes.length ≤ chars.length := by
    intro bytes chars
    induction chars using hexDecodeChars.induct generalizing bytes with
    | case1 =>
        intro h
        cases h
        exact le_refl _
    | case2 => simp [hexDecodeChars]
    | case3 high low rest ih =>
        intro h
        simp only [hexDecodeChars, Option.bind_eq_bind, Option.bind_eq_some_iff] at h
        obtain ⟨_, _, _, _, tail, htail, hsome⟩ := h
        cases hsome
        have hle := ih tail htail
        simp only [List.length_cons]
        omega
  have hstrip : (stripHexPrefix text).toList.length ≤ text.toList.length := by
    unfold stripHexPrefix
    split
    next rest hrest =>
      rw [hrest, String.toList_ofList]
      simp only [List.length_cons]
      omega
    next => exact le_refl _
  have hle := hchars bytes _ h
  rw [← String.length_toList]
  omega

/-- The commit hash decodes to a value exactly where the words can be addressed. -/
theorem returns_decodeCommitHash (checks : Bool) (data : LogData) :
    Returns (data.decodeCommitHashFromLogData checks) ↔ Addressable data := by
  unfold LogData.decodeCommitHashFromLogData Addressable
  cases hdecode : hexDecode (stripHexPrefix data.text) with
  | none =>
      constructor
      · rintro - bytes ⟨⟩
      · exact fun _ => returns_ok _
  | some bytes =>
      have hfits : bytes.length ≤ isizeMax := (hexDecode_length hdecode).trans data.fits
      simp only [Option.some.injEq, forall_eq']
      by_cases hlong : bytes.length < 96
      · rw [if_pos hlong]
        exact ⟨fun _ h => by omega, fun _ => returns_ok _⟩
      · have hword : u256ToUsize (bytes.take 32) ≤ u64Max :=
          u256ToUsize_le _ (by rw [List.length_take]; omega)
        have hslice : sliceBytes bytes 0 32 = .ok (bytes.take 32) := by
          simpa using sliceBytes_of_le bytes 0 32 (by omega)
        rw [if_neg hlong, hslice]
        simp only [bind, Except.bind]
        constructor
        · intro hreturns _
          by_contra hnot
          obtain ⟨fault, herror⟩ := @readString_error checks _ _ (by omega) hfits hword hnot
          rw [herror] at hreturns
          exact not_returns_error fault hreturns
        · intro haddressable
          obtain ⟨hheader, hlast⟩ := haddressable (by omega)
          rw [readString_eq hheader hlast]
          exact returns_ok _

/-- The time is read without a sum. -/
theorem decodeActivatesAt_eq (world : TrustWorld) (data : LogData) :
    data.decodeImageProposedActivatesAt world =
      .ok (decodeImageProposedActivatesAt world data.text) := by
  unfold LogData.decodeImageProposedActivatesAt Contract.decodeImageProposedActivatesAt
  cases hexDecode (stripHexPrefix data.text) with
  | none => rfl
  | some bytes =>
      simp only [Option.bind_eq_bind, Option.bind_some]
      split
      next => rfl
      next hlong =>
        rw [sliceBytes_of_le bytes 32 32 (by omega)]
        rfl

/-- Where it returns, the decoder finds what the history of the handlers is made of. -/
theorem decodeCommitHash_eq {checks : Bool} {data : LogData} (h : Addressable data) :
    data.decodeCommitHashFromLogData checks = .ok (decodeCommitHashFromLogData data.text) := by
  unfold LogData.decodeCommitHashFromLogData Contract.decodeCommitHashFromLogData
  cases hdecode : hexDecode (stripHexPrefix data.text) with
  | none => rfl
  | some bytes =>
      simp only [Option.bind_eq_bind, Option.bind_some]
      split
      next => rfl
      next hlong =>
        obtain ⟨hheader, hlast⟩ := h bytes hdecode (by omega)
        have hslice : sliceBytes bytes 0 32 = .ok (bytes.take 32) := by
          simpa using sliceBytes_of_le bytes 0 32 (by omega)
        rw [hslice]
        simp only [bind, Except.bind]
        rw [readString_eq hheader hlast]

end Reading

/-! ## The encoding is read back -/

section Encoding

variable {n : Nat}

theorem abiWord_length (n : Nat) : (abiWord n).length = 32 := by
  simp [abiWord, toBeBytes_length]

theorem toBeBytes_mod (n : Nat) : toBeBytes (n % 2 ^ 64) = toBeBytes n := by
  unfold toBeBytes
  refine List.map_congr_left (fun i hi => ?_)
  have hlt : i < 8 := List.mem_range.mp hi
  have hpow : 2 ^ 64 = 256 ^ (7 - i) * (256 * 256 ^ i) := by
    rw [← pow_succ', ← pow_add, show 7 - i + (i + 1) = 8 by omega]
    norm_num
  rw [hpow, Nat.mod_mul_right_div_self, Nat.mod_mod_of_dvd _ (Dvd.intro _ rfl)]

/-- A word is read modulo `2^64`. -/
theorem u256ToUsize_abiWord (n : Nat) : u256ToUsize (abiWord n) = n % 2 ^ 64 := by
  have hdrop : (abiWord n).drop 24 = toBeBytes n := by
    unfold abiWord
    rw [List.drop_append_of_le_length (by simp), List.drop_eq_nil_of_le (by simp)]
    rfl
  rw [u256ToUsize, hdrop, ← toBeBytes_mod, fromBeBytes_toBeBytes (Nat.mod_lt _ (by decide))]

theorem u256ToUsize_offset : u256ToUsize (abiWord 64) = 64 := by
  rw [u256ToUsize_abiWord]
  rfl

theorem hexDecode_encodes {data : LogData} {commitHash : String} {activatesAt : Nat}
    (h : Encodes data commitHash activatesAt) :
    hexDecode (stripHexPrefix data.text) =
      some (abiEncode (asBytes commitHash) activatesAt) := by
  rw [h, stripHexPrefix_prefixed, hexDecode_hexEncode]

theorem length_abiEncode_le (commitHash : Bytes) (activatesAt : Nat) :
    commitHash.length + 96 ≤ (abiEncode commitHash activatesAt).length := by
  simp only [abiEncode, abiPad, List.length_append, abiWord_length]
  omega

/-- A string that is not empty fills a word at least. -/
theorem length_abiEncode_ge (commitHash : Bytes) (activatesAt : Nat) (h : commitHash ≠ []) :
    128 ≤ (abiEncode commitHash activatesAt).length := by
  have hpos : 0 < commitHash.length := List.length_pos_of_ne_nil h
  simp only [abiEncode, abiPad, List.length_append, abiWord_length, List.length_replicate]
  omega

theorem take_abiEncode (commitHash : Bytes) (activatesAt : Nat) :
    (abiEncode commitHash activatesAt).take 32 = abiWord 64 := by
  unfold abiEncode
  rw [List.append_assoc, List.append_assoc,
    List.take_append_of_le_length (by simp [abiWord_length]),
    List.take_of_length_le (by simp [abiWord_length])]

theorem drop32_abiEncode (commitHash : Bytes) (activatesAt : Nat) :
    ((abiEncode commitHash activatesAt).drop 32).take 32 = abiWord activatesAt := by
  unfold abiEncode
  rw [List.append_assoc, List.append_assoc,
    List.drop_append_of_le_length (by simp [abiWord_length]),
    List.drop_eq_nil_of_le (by simp [abiWord_length]), List.nil_append,
    List.take_append_of_le_length (by simp [abiWord_length]),
    List.take_of_length_le (by simp [abiWord_length])]

theorem drop64_abiEncode (commitHash : Bytes) (activatesAt : Nat) :
    (abiEncode commitHash activatesAt).drop 64 =
      abiWord commitHash.length ++ abiPad commitHash := by
  unfold abiEncode
  rw [List.append_assoc]
  exact List.drop_left' (by simp [abiWord_length])

theorem strLen_abiEncode (commitHash : Bytes) (activatesAt : Nat)
    (h : commitHash.length ≤ isizeMax) :
    u256ToUsize (((abiEncode commitHash activatesAt).drop 64).take 32) = commitHash.length := by
  rw [drop64_abiEncode, List.take_append_of_le_length (by simp [abiWord_length]),
    List.take_of_length_le (by simp [abiWord_length]), u256ToUsize_abiWord]
  exact Nat.mod_eq_of_lt (by unfold isizeMax at h; omega)

theorem text_abiEncode (commitHash : Bytes) (activatesAt : Nat) :
    ((abiEncode commitHash activatesAt).drop 96).take commitHash.length = commitHash := by
  have hdrop : (abiEncode commitHash activatesAt).drop 96 = abiPad commitHash := by
    have htwice := congrArg (List.drop 32) (drop64_abiEncode commitHash activatesAt)
    rw [List.drop_drop, List.drop_left' (abiWord_length _)] at htwice
    exact htwice
  rw [hdrop]
  exact List.take_left' rfl

/-- The data of an event points into itself. -/
theorem addressable_encodes {data : LogData} {commitHash : String} {activatesAt : Nat}
    (h : Encodes data commitHash activatesAt) : Addressable data := by
  have hdecode := hexDecode_encodes h
  have hfits := (hexDecode_length hdecode).trans data.fits
  have hlength := length_abiEncode_le (asBytes commitHash) activatesAt
  intro bytes hbytes _
  obtain rfl : abiEncode (asBytes commitHash) activatesAt = bytes := by
    rw [hdecode] at hbytes
    exact Option.some.inj hbytes
  rw [take_abiEncode, u256ToUsize_offset, strLen_abiEncode _ activatesAt (by omega)]
  unfold isizeMax at hfits
  unfold u64Max
  omega

/-- The commit hash of an event is read back. -/
theorem decodeCommitHash_encodes {data : LogData} {commitHash : String} {activatesAt : Nat}
    (checks : Bool) (hne : commitHash ≠ "") (h : Encodes data commitHash activatesAt) :
    data.decodeCommitHashFromLogData checks = .ok (some commitHash) := by
  rw [decodeCommitHash_eq (addressable_encodes h)]
  have hdecode := hexDecode_encodes h
  have hfits := (hexDecode_length hdecode).trans data.fits
  have hlength := length_abiEncode_le (asBytes commitHash) activatesAt
  have hbytes : asBytes commitHash ≠ [] := fun hnil => hne (asBytes_inj hnil)
  have hlong := length_abiEncode_ge (asBytes commitHash) activatesAt hbytes
  have hstrLen := strLen_abiEncode (asBytes commitHash) activatesAt (by omega)
  unfold Contract.decodeCommitHashFromLogData
  rw [hdecode]
  simp only [Option.bind_eq_bind, Option.bind_some, take_abiEncode, u256ToUsize_offset, hstrLen]
  rw [if_neg (by omega), if_neg (by omega), if_neg (by omega), text_abiEncode, fromUtf8_asBytes]

/-- A word tells the whole number. -/
theorem abiWord_injective {a b : Nat} (ha : a < 2 ^ 256) (hb : b < 2 ^ 256)
    (h : abiWord a = abiWord b) : a = b := by
  have hbyte : ∀ m n : Nat, UInt8.ofNat (m % 256) = UInt8.ofNat (n % 256) → m % 256 = n % 256 := by
    intro m n hmn
    have hnat := congrArg UInt8.toNat hmn
    rw [UInt8.toNat_ofNat', UInt8.toNat_ofNat'] at hnat
    omega
  obtain ⟨hhigh, hlow⟩ := List.append_inj h (by simp)
  have hdigit : ∀ k < 32, a / 256 ^ k % 256 = b / 256 ^ k % 256 := by
    intro k hk
    refine hbyte _ _ ?_
    by_cases hk8 : k < 8
    · have hget := List.map_inj_left.mp hlow (7 - k) (List.mem_range.mpr (by omega))
      rwa [show 7 - (7 - k) = k by omega] at hget
    · have hget := List.map_inj_left.mp hhigh (31 - k) (List.mem_range.mpr (by omega))
      rwa [show 31 - (31 - k) = k by omega] at hget
  have hmod : ∀ k ≤ 32, a % 256 ^ k = b % 256 ^ k := by
    intro k
    induction k with
    | zero => simp [Nat.mod_one]
    | succ k ih =>
        intro hk
        rw [Nat.mod_pow_succ, Nat.mod_pow_succ, ih (by omega), hdigit k (by omega)]
  have hall := hmod 32 (le_refl _)
  rwa [Nat.mod_eq_of_lt (by norm_num at ha ⊢; omega),
    Nat.mod_eq_of_lt (by norm_num at hb ⊢; omega)] at hall

/-- The data of an event tells its time. -/
theorem activatesAt_of_encodes {data : LogData} {s t : String} {a b : Nat} (ha : a < 2 ^ 256)
    (hb : b < 2 ^ 256) (hs : Encodes data s a) (ht : Encodes data t b) : a = b := by
  have hbytes : abiEncode (asBytes s) a = abiEncode (asBytes t) b := by
    have hdecoded := hexDecode_encodes hs
    rw [hexDecode_encodes ht] at hdecoded
    exact (Option.some.inj hdecoded).symm
  have hwords := congrArg (fun bytes => (bytes.drop 32).take 32) hbytes
  simp only [drop32_abiEncode] at hwords
  exact abiWord_injective ha hb hwords

theorem decodeActivatesAt_encodes {data : LogData} {commitHash : String} {activatesAt : Nat}
    (world : TrustWorld) (h : Encodes data commitHash activatesAt) :
    data.decodeImageProposedActivatesAt world = .ok (world.toRfc3339 (asI64 activatesAt)) := by
  rw [decodeActivatesAt_eq]
  have hdecode := hexDecode_encodes h
  have hlength := length_abiEncode_le (asBytes commitHash) activatesAt
  unfold Contract.decodeImageProposedActivatesAt
  rw [hdecode]
  simp only [Option.bind_eq_bind, Option.bind_some, drop32_abiEncode, u256ToUsize_abiWord]
  rw [if_neg (by omega)]
  rfl

/-- The time is told exactly, or not at all, when its last 64 bits are the time or no date. -/
theorem exactOrNone_iff {world : TrustWorld} {minTimestamp maxTimestamp : Int}
    (hrenders : RendersInstants world minTimestamp maxTimestamp) (activatesAt : Nat) :
    ExactOrNone world activatesAt (.ok (world.toRfc3339 (asI64 activatesAt))) ↔
      TimeSurvives minTimestamp maxTimestamp activatesAt := by
  have hsome := hrenders.isSome_iff (asI64 activatesAt)
  have hexact : asI64 activatesAt = activatesAt ↔ activatesAt < 2 ^ 63 := by
    unfold asI64
    split <;> omega
  unfold ExactOrNone TimeSurvives
  cases htext : world.toRfc3339 (asI64 activatesAt) with
  | none =>
      rw [htext] at hsome
      have hout : ¬ (minTimestamp ≤ asI64 activatesAt ∧ asI64 activatesAt ≤ maxTimestamp) :=
        fun hin => by simpa using hsome.mpr hin
      exact iff_of_true (.inl rfl) (.inr (by omega))
  | some text =>
      rw [htext] at hsome
      have hin := hsome.mp rfl
      constructor
      · rintro (hnone | hsame)
        · cases hnone
        · have heq := hrenders.inj _ _ text htext (Except.ok.inj hsame).symm
          exact .inl (hexact.mp heq)
      · rintro (hlt | hout)
        · refine .inr ?_
          rw [← hexact.mpr hlt, htext]
        · omega

end Encoding

/-! ## Exact decoding -/

/-- The decoders are exact on the data whose words can be addressed and whose time survives. -/
theorem decodesExactly_iff {world : TrustWorld} {minTimestamp maxTimestamp : Int}
    (hrenders : RendersInstants world minTimestamp maxTimestamp) (checks : Bool)
    (data : LogData) :
    DecodesExactly world checks data ↔ Addressable data ∧
      ∀ commitHash activatesAt, commitHash ≠ "" → activatesAt < 2 ^ 256 →
        Encodes data commitHash activatesAt →
          TimeSurvives minTimestamp maxTimestamp activatesAt := by
  unfold DecodesExactly
  rw [returns_decodeCommitHash]
  constructor
  · rintro ⟨haddressable, -, hexact⟩
    refine ⟨haddressable, fun commitHash activatesAt hne hlt h => ?_⟩
    have htime := (hexact commitHash activatesAt hne hlt h).2
    rw [decodeActivatesAt_encodes world h] at htime
    exact (exactOrNone_iff hrenders activatesAt).mp htime
  · rintro ⟨haddressable, hsurvives⟩
    refine ⟨haddressable, ?_, fun commitHash activatesAt hne hlt h => ?_⟩
    · rw [decodeActivatesAt_eq]
      exact returns_ok _
    · refine ⟨decodeCommitHash_encodes checks hne h, ?_⟩
      rw [decodeActivatesAt_encodes world h]
      exact (exactOrNone_iff hrenders activatesAt).mpr (hsurvives commitHash activatesAt hne hlt h)

/-- A date library that writes the instants of its years by their distance from the first. -/
def exampleDates : TrustWorld where
  fetchEventLogs _ _ := []
  checkContractApproval _ := none
  fetchBlockTimestamp _ := none
  toRfc3339 secs :=
    if secs = 1700000000 then some "2023-11-14T22:13:20+00:00"
    else if -8334601228800 ≤ secs ∧ secs ≤ 8210266876799 then
      some (String.ofList (List.replicate (secs + 8334601228800).toNat 's'))
    else none

theorem exampleDates_renders : RendersInstants exampleDates (-8334601228800) 8210266876799 := by
  have hreplicate : ∀ m : Nat,
      String.ofList (List.replicate m 's') ≠ "2023-11-14T22:13:20+00:00" := by
    intro m h
    have hmem : 'T' ∈ List.replicate m 's' := by
      have hlist := congrArg String.toList h
      rw [String.toList_ofList] at hlist
      rw [hlist]
      decide
    exact absurd (List.eq_of_mem_replicate hmem) (by decide)
  constructor
  · intro secs
    unfold exampleDates
    simp only
    split
    next hsecs => simp [hsecs]
    next => split <;> simp_all
  · intro a b text ha hb
    unfold exampleDates at ha hb
    simp only at ha hb
    split at ha <;> split at hb
    next hsame hsame' => rw [hsame, hsame']
    next hsame hother =>
      cases ha
      split at hb
      next => exact (hreplicate _ (Option.some.inj hb)).elim
      next => cases hb
    next hother hsame =>
      cases hb
      split at ha
      next => exact (hreplicate _ (Option.some.inj ha)).elim
      next => cases ha
    next =>
      split at ha
      next hin =>
        split at hb
        next hin' =>
          have hlength := congrArg (fun s => s.toList.length)
            ((Option.some.inj ha).trans (Option.some.inj hb).symm)
          simp only [String.toList_ofList, List.length_replicate] at hlength
          omega
        next => cases hb
      next => cases ha

theorem length_hexEncode (bytes : Bytes) : (hexEncode bytes).length = 2 * bytes.length := by
  rw [hexEncode, String.length_ofList]
  induction bytes with
  | nil => rfl
  | cons b rest ih =>
      rw [List.flatMap_cons, List.length_append, ih]
      simp only [List.length_cons, List.length_nil]
      omega

theorem length_eventData {commitHash : Bytes} (activatesAt : Nat) (h : commitHash.length ≤ 64) :
    ("0x" ++ hexEncode (abiEncode commitHash activatesAt)).length ≤ isizeMax := by
  rw [String.length_append, length_hexEncode]
  simp only [abiEncode, abiPad, List.length_append, abiWord_length, List.length_replicate]
  have hstarts : "0x".length = 2 := rfl
  unfold isizeMax
  omega

/-- The data of an event. -/
def eventData (commitHash : Bytes) (activatesAt : Nat) (h : commitHash.length ≤ 64) : LogData :=
  ⟨"0x" ++ hexEncode (abiEncode commitHash activatesAt), length_eventData activatesAt h⟩

theorem length_exampleCommit : (asBytes "9c1f2ab").length ≤ 64 := by decide

theorem decodesExactly_commit :
    DecodesExactly exampleDates true
      (eventData (asBytes "9c1f2ab") 1700000000 length_exampleCommit) := by
  have hencodes : Encodes (eventData (asBytes "9c1f2ab") 1700000000 length_exampleCommit)
      "9c1f2ab" 1700000000 := rfl
  refine (decodesExactly_iff exampleDates_renders true _).mpr
    ⟨addressable_encodes hencodes, fun s a _ ha h => .inl ?_⟩
  have hsame := activatesAt_of_encodes ha (by decide) h hencodes
  omega

theorem length_ones : (hexEncode (List.replicate 96 (UInt8.ofNat 255))).length ≤ isizeMax := by
  rw [length_hexEncode, List.length_replicate]
  decide

/-- The data of a node that reports 96 bytes of ones. -/
def onesData : LogData := ⟨hexEncode (List.replicate 96 (UInt8.ofNat 255)), length_ones⟩

/-- The ones stop the page in either build, and the time `2 ^ 64 + 1700000000` is told as a day
of 2023. -/
theorem decodes_inexactly :
    ¬ DecodesExactly exampleDates true onesData ∧
    ¬ DecodesExactly exampleDates false onesData ∧
    ¬ DecodesExactly exampleDates true
      (eventData (asBytes "9c1f2ab") (2 ^ 64 + 1700000000) length_exampleCommit) := by
  have hones : ¬ Addressable onesData := by
    have hstrip : stripHexPrefix onesData.text = onesData.text := by decide +kernel
    intro h
    have hwords := h (List.replicate 96 (UInt8.ofNat 255))
      (by rw [hstrip]; exact hexDecode_hexEncode _) (by decide)
    exact absurd hwords.1 (by decide)
  refine ⟨fun h => hones ((returns_decodeCommitHash _ _).mp h.1),
    fun h => hones ((returns_decodeCommitHash _ _).mp h.1), fun h => ?_⟩
  have hencodes : Encodes (eventData (asBytes "9c1f2ab") (2 ^ 64 + 1700000000)
      length_exampleCommit) "9c1f2ab" (2 ^ 64 + 1700000000) := rfl
  have htime := (h.2.2 _ _ (by decide) (by decide) hencodes).2
  rw [decodeActivatesAt_encodes exampleDates hencodes] at htime
  have hsurvives := (exactOrNone_iff exampleDates_renders _).mp htime
  revert hsurvives
  unfold TimeSurvives asI64
  decide

end Lightfriend.Contract
