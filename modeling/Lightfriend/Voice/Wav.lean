import Lightfriend.Core.Fault

/-! # WAV files

Samples are sent to be transcribed as a file of one channel. Its header holds two
lengths and two rates, and what strips the header looks for the name of the
chunk behind it.
-/

namespace Lightfriend.Voice.Audio

/-! ## Numbers in a file -/

/-- `u32::to_le_bytes`. -/
def leBytes32 (n : Nat) : Bytes :=
  [UInt8.ofNat n, UInt8.ofNat (n / 256), UInt8.ofNat (n / 65536), UInt8.ofNat (n / 16777216)]

/-- `u16::to_le_bytes`. -/
def leBytes16 (n : Nat) : Bytes := [UInt8.ofNat n, UInt8.ofNat (n / 256)]

/-- `i16::to_le_bytes`. -/
def sampleBytes (sample : Int16) : Bytes := leBytes16 sample.toUInt16.toNat

/-- `i16::from_le_bytes`. -/
def sampleOf (low high : UInt8) : Int16 := (UInt16.ofNat (low.toNat + 256 * high.toNat)).toInt16

/-- `chunks_exact(2)`, each read as a sample. -/
def pcmSamples : Bytes → List Int16
  | low :: high :: rest => sampleOf low high :: pcmSamples rest
  | _ => []

/-- A result of `u32` arithmetic. -/
def resultU32 (overflowChecks : Bool) (n : Nat) : Checked Nat :=
  if n < 2 ^ 32 then .ok n else if overflowChecks then .error .overflow else .ok (n % 2 ^ 32)

/-! ## The code -/

def riffId : Bytes := [0x52, 0x49, 0x46, 0x46]

def waveId : Bytes := [0x57, 0x41, 0x56, 0x45]

def fmtId : Bytes := [0x66, 0x6D, 0x74, 0x20]

def dataId : Bytes := [0x64, 0x61, 0x74, 0x61]

/-- What stands in front of the samples. -/
def header (fileLen sampleRate byteRate dataLen : Nat) : Bytes :=
  riffId ++ leBytes32 fileLen ++ waveId ++ fmtId ++ leBytes32 16 ++ leBytes16 1 ++ leBytes16 1 ++
    leBytes32 sampleRate ++ leBytes32 byteRate ++ leBytes16 2 ++ leBytes16 16 ++ dataId ++
      leBytes32 dataLen

def encodeWav16bitMono (overflowChecks : Bool) (samples : List Int16) (sampleRate : UInt32) :
    Checked Bytes := do
  -- `as u32` keeps the last 32 bits
  let dataLen := samples.length * 2 % 2 ^ 32
  let fileLen ← resultU32 overflowChecks (36 + dataLen)
  let byteRate ← resultU32 overflowChecks (sampleRate.toNat * 2)
  .ok (header fileLen sampleRate.toNat byteRate dataLen ++ samples.flatMap sampleBytes)

/-- The name of the chunk starts at the offset. -/
def DataAt (wav : Bytes) (i : Nat) : Prop := (wav.drop i).take 4 = dataId ∧ i + 8 ≤ wav.length

instance (wav : Bytes) (i : Nat) : Decidable (DataAt wav i) := inferInstanceAs (Decidable (_ ∧ _))

def stripWavHeader (wav : Bytes) : Bytes :=
  match (List.range (wav.length - 8)).find? (fun i => decide (DataAt wav i)) with
  | some i => wav.drop (i + 8)
  | none => if 44 < wav.length then wav.drop 44 else []

/-! ## Reading a file -/

/-- The number that bytes stand for, the lowest byte first. -/
def fromLeBytes : Bytes → Nat
  | [] => 0
  | b :: rest => b.toNat + 256 * fromLeBytes rest

/-- The chunks of a file: a name, a length, a body of this length and a byte to fill up. -/
def readChunks : Nat → Bytes → Option (List (Bytes × Bytes))
  | 0, bytes => if bytes.isEmpty then some [] else none
  | fuel + 1, bytes =>
      let size := fromLeBytes ((bytes.drop 4).take 4)
      let rest := bytes.drop 8
      if bytes.isEmpty then some []
      else if bytes.length < 8 ∨ rest.length < size then none
      else (readChunks fuel (rest.drop (size + size % 2))).map
        ((bytes.take 4, rest.take size) :: ·)

/-- Sixteen-bit samples of one channel, and how many of them are played in a second. -/
structure Wav where
  sampleRate : Nat
  samples : List Int16
deriving DecidableEq

/-- The format: uncompressed, one channel, two bytes a sample. -/
def readFormat (body : Bytes) : Option Nat :=
  let sampleRate := fromLeBytes ((body.drop 4).take 4)
  if body.length = 16 ∧ body.take 4 = leBytes16 1 ++ leBytes16 1 ∧
      fromLeBytes ((body.drop 8).take 4) = sampleRate * 2 ∧
      body.drop 12 = leBytes16 2 ++ leBytes16 16 then some sampleRate
  else none

/-- A file as what plays it reads it. -/
def readWav (file : Bytes) : Option Wav := do
  if file.take 4 = riffId ∧ fromLeBytes ((file.drop 4).take 4) + 8 = file.length ∧
      (file.drop 8).take 4 = waveId then
    let chunks ← readChunks file.length (file.drop 12)
    let format ← chunks.lookup fmtId
    let sampleRate ← readFormat format
    let body ← chunks.lookup dataId
    some ⟨sampleRate, pcmSamples body⟩
  else none

/-! ## Samples and bytes -/

theorem sampleOf_sampleBytes (sample : Int16) (rest : Bytes) :
    pcmSamples (sampleBytes sample ++ rest) = sample :: pcmSamples rest := by
  have hlt : sample.toUInt16.toNat < 65536 := sample.toUInt16.toNat_lt
  have hlow : (UInt8.ofNat sample.toUInt16.toNat).toNat = sample.toUInt16.toNat % 256 :=
    UInt8.toNat_ofNat'
  have hhigh : (UInt8.ofNat (sample.toUInt16.toNat / 256)).toNat =
      sample.toUInt16.toNat / 256 % 256 := UInt8.toNat_ofNat'
  have hsample : sampleOf (UInt8.ofNat sample.toUInt16.toNat)
      (UInt8.ofNat (sample.toUInt16.toNat / 256)) = sample := by
    have hsum : sample.toUInt16.toNat % 256 + 256 * (sample.toUInt16.toNat / 256 % 256) =
        sample.toUInt16.toNat := by omega
    rw [sampleOf, hlow, hhigh, hsum, UInt16.ofNat_toNat]
    rfl
  simp only [sampleBytes, leBytes16, List.cons_append, List.nil_append, pcmSamples, hsample]

theorem pcmSamples_flatMap (samples : List Int16) :
    pcmSamples (samples.flatMap sampleBytes) = samples := by
  induction samples with
  | nil => rfl
  | cons sample rest ih => rw [List.flatMap_cons, sampleOf_sampleBytes, ih]

theorem length_flatMap (samples : List Int16) :
    (samples.flatMap sampleBytes).length = samples.length * 2 := by
  induction samples with
  | nil => rfl
  | cons sample rest ih =>
      rw [List.flatMap_cons, List.length_append, ih, List.length_cons]
      simp only [sampleBytes, leBytes16, List.length_cons, List.length_nil]
      omega

theorem length_pcmSamples (bytes : Bytes) : (pcmSamples bytes).length = bytes.length / 2 := by
  fun_induction pcmSamples bytes with
  | case1 low high rest ih =>
      simp only [List.length_cons, ih]
      omega
  | case2 bytes hnot =>
      match bytes, hnot with
      | [], _ => rfl
      | [_], _ => simp
      | low :: high :: rest, hnot => exact absurd rfl (hnot low high rest)

theorem fromLeBytes_leBytes32 {n : Nat} (h : n < 2 ^ 32) : fromLeBytes (leBytes32 n) = n := by
  simp only [leBytes32, fromLeBytes, UInt8.toNat_ofNat']
  omega

theorem length_leBytes32 (n : Nat) : (leBytes32 n).length = 4 := rfl

/-! ## The chunks -/

theorem readChunks_nil (fuel : Nat) : readChunks fuel [] = some [] := by
  cases fuel <;> rfl

/-- A chunk of even length is read, and what is behind it is read then. -/
theorem readChunks_cons {fuel size : Nat} {id body : Bytes} (rest : Bytes) (hid : id.length = 4)
    (hsize : size < 2 ^ 32) (hbody : body.length = size) (heven : size % 2 = 0) :
    readChunks (fuel + 1) (id ++ leBytes32 size ++ (body ++ rest)) =
      (readChunks fuel rest).map ((id, body) :: ·) := by
  have htake : (id ++ leBytes32 size ++ (body ++ rest)).take 4 = id := by
    rw [List.append_assoc, List.take_left' hid]
  have hnumber : ((id ++ leBytes32 size ++ (body ++ rest)).drop 4).take 4 = leBytes32 size := by
    rw [List.append_assoc, List.drop_left' hid, List.take_left' (length_leBytes32 size)]
  have hdrop : (id ++ leBytes32 size ++ (body ++ rest)).drop 8 = body ++ rest :=
    List.drop_left' (by rw [List.length_append, hid, length_leBytes32])
  have hlength : ¬ ((id ++ leBytes32 size ++ (body ++ rest)).length < 8 ∨
      (body ++ rest).length < size) := by
    rw [List.length_append, List.length_append, List.length_append, hid, length_leBytes32, hbody]
    omega
  have hempty : (id ++ leBytes32 size ++ (body ++ rest)).isEmpty = false := by
    rw [List.isEmpty_eq_false_iff_exists_mem]
    exact ⟨UInt8.ofNat size, by simp [leBytes32]⟩
  rw [readChunks]
  simp only [hempty, hnumber, fromLeBytes_leBytes32 hsize, hdrop, htake, if_neg hlength, heven,
    Nat.add_zero, List.take_left' hbody, List.drop_left' hbody, Bool.false_eq_true, if_false]

/-- The body of the chunk with the format. -/
def formatBody (sampleRate byteRate : Nat) : Bytes :=
  leBytes16 1 ++ leBytes16 1 ++ leBytes32 sampleRate ++ leBytes32 byteRate ++
    (leBytes16 2 ++ leBytes16 16)

theorem readFormat_formatBody {sampleRate byteRate : Nat} (hsample : sampleRate < 2 ^ 32)
    (hbyte : byteRate < 2 ^ 32) :
    readFormat (formatBody sampleRate byteRate) =
      if byteRate = sampleRate * 2 then some sampleRate else none := by
  have hrate : ((formatBody sampleRate byteRate).drop 4).take 4 = leBytes32 sampleRate := rfl
  have hbytes : ((formatBody sampleRate byteRate).drop 8).take 4 = leBytes32 byteRate := rfl
  have hends : (formatBody sampleRate byteRate).length = 16 ∧
      (formatBody sampleRate byteRate).take 4 = leBytes16 1 ++ leBytes16 1 ∧
        (formatBody sampleRate byteRate).drop 12 = leBytes16 2 ++ leBytes16 16 := ⟨rfl, rfl, rfl⟩
  simp only [readFormat, hrate, hbytes, fromLeBytes_leBytes32 hsample, fromLeBytes_leBytes32 hbyte,
    hends, true_and, and_true]

section Files

variable {fileLen sampleRate byteRate : Nat} {samples : List Int16}

theorem header_append (dataLen : Nat) (body : Bytes) :
    header fileLen sampleRate byteRate dataLen ++ body =
      riffId ++ leBytes32 fileLen ++ waveId ++
        (fmtId ++ leBytes32 16 ++ (formatBody sampleRate byteRate ++
          (dataId ++ leBytes32 dataLen ++ (body ++ [])))) := by
  simp [header, formatBody]

/-- A file with the right lengths is read, if its rates agree. -/
theorem readWav_header (hfile : fileLen = 36 + samples.length * 2) (hfits : fileLen < 2 ^ 32)
    (hsample : sampleRate < 2 ^ 32) (hbyte : byteRate < 2 ^ 32) :
    readWav (header fileLen sampleRate byteRate (samples.length * 2) ++
        samples.flatMap sampleBytes) =
      if byteRate = sampleRate * 2 then some ⟨sampleRate, samples⟩ else none := by
  have hbody := length_flatMap samples
  have hlength : (header fileLen sampleRate byteRate (samples.length * 2) ++
      samples.flatMap sampleBytes).length = 42 + samples.length * 2 + 1 + 1 := by
    rw [List.length_append, hbody]
    simp only [header, riffId, waveId, fmtId, dataId, leBytes32, leBytes16, List.length_append,
      List.length_cons, List.length_nil]
    omega
  have hchunks : readChunks (42 + samples.length * 2 + 1 + 1)
      ((header fileLen sampleRate byteRate (samples.length * 2) ++
        samples.flatMap sampleBytes).drop 12) =
      some [(fmtId, formatBody sampleRate byteRate), (dataId, samples.flatMap sampleBytes)] := by
    have hfront : (riffId ++ leBytes32 fileLen ++ waveId).length = 12 := rfl
    have hformat : (formatBody sampleRate byteRate).length = 16 := rfl
    rw [header_append, List.drop_left' hfront,
      readChunks_cons _ rfl (by decide) hformat (by decide),
      readChunks_cons _ rfl (by omega) hbody (by omega), readChunks_nil]
    rfl
  have hriff : (header fileLen sampleRate byteRate (samples.length * 2) ++
      samples.flatMap sampleBytes).take 4 = riffId := rfl
  have hlen : ((header fileLen sampleRate byteRate (samples.length * 2) ++
      samples.flatMap sampleBytes).drop 4).take 4 = leBytes32 fileLen := rfl
  have hwave : ((header fileLen sampleRate byteRate (samples.length * 2) ++
      samples.flatMap sampleBytes).drop 8).take 4 = waveId := rfl
  have hsum : fileLen + 8 = 42 + samples.length * 2 + 1 + 1 := by omega
  simp only [readWav, hriff, hlen, hwave, hlength, hchunks, fromLeBytes_leBytes32 hfits, hsum,
    and_self, if_true, Option.bind_eq_bind, Option.bind_some]
  have hformat : [(fmtId, formatBody sampleRate byteRate),
      (dataId, samples.flatMap sampleBytes)].lookup fmtId = some (formatBody sampleRate byteRate) :=
    rfl
  have hdata : [(fmtId, formatBody sampleRate byteRate),
      (dataId, samples.flatMap sampleBytes)].lookup dataId = some (samples.flatMap sampleBytes) :=
    rfl
  rw [hformat, hdata, Option.bind_some, readFormat_formatBody hsample hbyte]
  split
  · rw [Option.bind_some, Option.bind_some, pcmSamples_flatMap]
  · rfl

end Files

/-- A file whose lengths are right. -/
def wavFile (samples : List Int16) (sampleRate : Nat) : Bytes :=
  header (36 + samples.length * 2) sampleRate (sampleRate * 2) (samples.length * 2) ++
    samples.flatMap sampleBytes

theorem resultU32_eq_ok {overflowChecks : Bool} {n result : Nat}
    (h : resultU32 overflowChecks n = .ok result) : result = n % 2 ^ 32 := by
  unfold resultU32 at h
  split at h
  next hlt =>
    cases h
    exact (Nat.mod_eq_of_lt hlt).symm
  next =>
    cases overflowChecks with
    | true => cases h
    | false =>
        cases h
        rfl

theorem encodeWav16bitMono_eq_ok {overflowChecks : Bool} {samples : List Int16}
    {sampleRate : UInt32} {file : Bytes}
    (h : encodeWav16bitMono overflowChecks samples sampleRate = .ok file) :
    file = header ((36 + samples.length * 2 % 2 ^ 32) % 2 ^ 32) sampleRate.toNat
      (sampleRate.toNat * 2 % 2 ^ 32) (samples.length * 2 % 2 ^ 32) ++
        samples.flatMap sampleBytes := by
  obtain ⟨fileLen, hfile, h⟩ := bind_eq_ok.mp h
  obtain ⟨byteRate, hbyte, h⟩ := bind_eq_ok.mp h
  cases h
  rw [resultU32_eq_ok hfile, resultU32_eq_ok hbyte]

theorem encodeWav16bitMono_of_fits (overflowChecks : Bool) {samples : List Int16}
    {sampleRate : UInt32} (hsize : 36 + samples.length * 2 < 2 ^ 32)
    (hrate : sampleRate.toNat < 2 ^ 31) :
    encodeWav16bitMono overflowChecks samples sampleRate =
      .ok (wavFile samples sampleRate.toNat) := by
  have hdata : samples.length * 2 % 2 ^ 32 = samples.length * 2 := Nat.mod_eq_of_lt (by omega)
  have hbyte : sampleRate.toNat * 2 < 2 ^ 32 := by omega
  simp only [encodeWav16bitMono, hdata, resultU32, if_pos hsize, if_pos hbyte]
  rfl

/-- A file is read where its lengths and its rates fit into their fields. -/
theorem readWav_encode {overflowChecks : Bool} {samples : List Int16} {sampleRate : UInt32}
    {file : Bytes} {wav : Wav}
    (h : encodeWav16bitMono overflowChecks samples sampleRate = .ok file) :
    readWav file = some wav ↔ 36 + samples.length * 2 < 2 ^ 32 ∧ sampleRate.toNat < 2 ^ 31 ∧
      wav = ⟨sampleRate.toNat, samples⟩ := by
  have hrate := sampleRate.toNat_lt
  by_cases hsize : 36 + samples.length * 2 < 2 ^ 32
  · have hdata : samples.length * 2 % 2 ^ 32 = samples.length * 2 := Nat.mod_eq_of_lt (by omega)
    have hfile : (36 + samples.length * 2) % 2 ^ 32 = 36 + samples.length * 2 :=
      Nat.mod_eq_of_lt hsize
    rw [encodeWav16bitMono_eq_ok h, hdata, hfile,
      readWav_header rfl hsize hrate (Nat.mod_lt _ (by decide))]
    by_cases hbyte : sampleRate.toNat < 2 ^ 31
    · rw [if_pos (Nat.mod_eq_of_lt (by omega)), Option.some.injEq, eq_comm]
      exact ⟨fun h => ⟨hsize, hbyte, h⟩, fun h => h.2.2⟩
    · rw [if_neg (by omega)]
      exact ⟨fun h => absurd h (by simp), fun h => absurd h.2.1 hbyte⟩
  · -- the length in the file is less than the length of the file
    have hnone : readWav file = none := by
      have hlen : (file.drop 4).take 4 =
          leBytes32 ((36 + samples.length * 2 % 2 ^ 32) % 2 ^ 32) := by
        rw [encodeWav16bitMono_eq_ok h]
        rfl
      have hlength : file.length = 44 + samples.length * 2 := by
        rw [encodeWav16bitMono_eq_ok h, List.length_append, length_flatMap]
        rfl
      have hlt : (36 + samples.length * 2 % 2 ^ 32) % 2 ^ 32 < 2 ^ 32 := Nat.mod_lt _ (by decide)
      unfold readWav
      rw [if_neg]
      rintro ⟨-, heq, -⟩
      rw [hlen, fromLeBytes_leBytes32 hlt, hlength] at heq
      omega
    rw [hnone]
    exact ⟨fun h => absurd h (by simp), fun h => absurd h.1 hsize⟩

/-! ## Stripping the header -/

theorem byte_eq_iff (n : Nat) (b : UInt8) : UInt8.ofNat n = b ↔ n % 256 = b.toNat := by
  rw [← UInt8.toNat_inj, UInt8.toNat_ofNat']

/-- In the header the name of the chunk starts earlier for a few numbers only: in the length of
the file, in the sample rate, in the byte rate, or from the one into the other. -/
theorem dataId_in_header {fileLen sampleRate : Nat} (hfile : fileLen < 2 ^ 32)
    (hrate : sampleRate < 2 ^ 31) (dataLen : Nat) (body : Bytes) {i : Nat} (hi : i < 36) :
    ((header fileLen sampleRate (sampleRate * 2) dataLen ++ body).drop i).take 4 = dataId ↔
      i = 4 ∧ fileLen = 0x61746164 ∨ i = 24 ∧ sampleRate = 0x61746164 ∨
        i = 26 ∧ (sampleRate = 0x616430BA ∨ sampleRate = 0x6164B0BA) ∨
          i = 28 ∧ sampleRate = 0x30BA30B2 := by
  simp only [header, riffId, waveId, fmtId, leBytes32, leBytes16, List.cons_append,
    List.nil_append, List.append_assoc]
  interval_cases i <;>
    simp only [List.drop_succ_cons, List.drop_zero, List.take_succ_cons, List.take_zero, dataId,
      List.cons.injEq, byte_eq_iff, and_true] <;>
    simp <;> omega

/-- The search ends at the first offset where the name stands. -/
theorem stripWavHeader_of_dataAt {wav : Bytes} {i : Nat} (hi : i < wav.length - 8)
    (hat : DataAt wav i) :
    ∃ first ≤ i, DataAt wav first ∧ stripWavHeader wav = wav.drop (first + 8) := by
  cases hfind : (List.range (wav.length - 8)).find? (fun i => decide (DataAt wav i)) with
  | none =>
      have hnone := List.find?_eq_none.mp hfind i (List.mem_range.mpr hi)
      exact absurd (decide_eq_true hat) hnone
  | some first =>
      have hfirst := List.find?_some hfind
      refine ⟨first, ?_, of_decide_eq_true hfirst, by rw [stripWavHeader, hfind]⟩
      have hmin := (List.find?_range_eq_some.mp hfind).2.2
      by_contra hlt
      simpa [hat] using hmin i (by omega)

/-- The numbers that the header has room for, and that do not spell the name of the chunk. -/
structure WavFits (count sampleRate : Nat) : Prop where
  size : 36 + count * 2 < 2 ^ 32
  rate : sampleRate < 2 ^ 31
  length_free : count ≠ 817508512
  rate_free : sampleRate ∉ [0x61746164, 0x616430BA, 0x6164B0BA, 0x30BA30B2]

section Strip

variable {samples : List Int16} {sampleRate : Nat}

theorem length_wavFile (samples : List Int16) (sampleRate : Nat) :
    (wavFile samples sampleRate).length = 44 + samples.length * 2 := by
  rw [wavFile, List.length_append, length_flatMap]
  rfl

theorem dataAt_wavFile (hsize : 36 + samples.length * 2 < 2 ^ 32) (hrate : sampleRate < 2 ^ 31)
    {i : Nat} (hi : i < 36) : DataAt (wavFile samples sampleRate) i ↔
      i = 4 ∧ 36 + samples.length * 2 = 0x61746164 ∨ i = 24 ∧ sampleRate = 0x61746164 ∨
        i = 26 ∧ (sampleRate = 0x616430BA ∨ sampleRate = 0x6164B0BA) ∨
          i = 28 ∧ sampleRate = 0x30BA30B2 := by
  have hlength := length_wavFile samples sampleRate
  rw [DataAt, wavFile, dataId_in_header hsize hrate _ _ hi, ← wavFile]
  exact and_iff_left (by omega)

/-- Bytes of the header read as samples are samples too many. -/
theorem not_dataAt_of_strip (h : pcmSamples (stripWavHeader (wavFile samples sampleRate)) = samples)
    {i : Nat} (hi : i ≤ 28) : ¬ DataAt (wavFile samples sampleRate) i := by
  intro hat
  have hlength := length_wavFile samples sampleRate
  obtain ⟨first, hle, -, hstrip⟩ := stripWavHeader_of_dataAt (by omega) hat
  have hcount := congrArg List.length h
  rw [hstrip, length_pcmSamples, List.length_drop, hlength] at hcount
  omega

theorem stripWavHeader_wavFile (hsize : 36 + samples.length * 2 < 2 ^ 32)
    (hrate : sampleRate < 2 ^ 31) :
    pcmSamples (stripWavHeader (wavFile samples sampleRate)) = samples ↔
      WavFits samples.length sampleRate := by
  have hlength := length_wavFile samples sampleRate
  constructor
  · intro h
    refine ⟨hsize, hrate, fun hcount => ?_, fun hmem => ?_⟩
    · exact not_dataAt_of_strip h (by decide)
        ((dataAt_wavFile hsize hrate (by decide)).mpr (.inl ⟨rfl, by omega⟩))
    · simp only [List.mem_cons, List.not_mem_nil, or_false] at hmem
      obtain hmem | hmem | hmem | hmem := hmem
      · exact not_dataAt_of_strip h (by decide)
          ((dataAt_wavFile hsize hrate (by decide)).mpr (.inr (.inl ⟨rfl, hmem⟩)))
      · exact not_dataAt_of_strip h (by decide)
          ((dataAt_wavFile hsize hrate (by decide)).mpr (.inr (.inr (.inl ⟨rfl, .inl hmem⟩))))
      · exact not_dataAt_of_strip h (by decide)
          ((dataAt_wavFile hsize hrate (by decide)).mpr (.inr (.inr (.inl ⟨rfl, .inr hmem⟩))))
      · exact not_dataAt_of_strip h (by decide)
          ((dataAt_wavFile hsize hrate (by decide)).mpr (.inr (.inr (.inr ⟨rfl, hmem⟩))))
  · intro h
    have hfree : ∀ i < 36, ¬ DataAt (wavFile samples sampleRate) i := by
      intro i hi hat
      have hcount := h.length_free
      have hspelt := h.rate_free
      simp only [List.mem_cons, List.not_mem_nil, or_false, not_or] at hspelt
      rw [dataAt_wavFile hsize hrate hi] at hat
      omega
    by_cases hempty : samples = []
    · subst hempty
      have hfind : (List.range ((wavFile [] sampleRate).length - 8)).find?
          (fun i => decide (DataAt (wavFile [] sampleRate) i)) = none := by
        rw [List.find?_eq_none]
        intro i hi
        rw [List.mem_range, hlength] at hi
        simpa using hfree i hi
      rw [stripWavHeader, hfind, hlength]
      rfl
    · have hpos := List.length_pos_iff.mpr hempty
      have hat : DataAt (wavFile samples sampleRate) 36 := ⟨rfl, by omega⟩
      obtain ⟨first, hle, hfirst, hstrip⟩ := stripWavHeader_of_dataAt (by omega) hat
      have hlast : first = 36 := by
        by_contra hne
        exact hfree first (by omega) hfirst
      subst hlast
      have hbody : (wavFile samples sampleRate).drop (36 + 8) = samples.flatMap sampleBytes := rfl
      rw [hstrip, hbody, pcmSamples_flatMap]

end Strip

/-- A file from which the samples are read back, also when its header is stripped. -/
def WavReadsBack (overflowChecks : Bool) (samples : List Int16) (sampleRate : UInt32) : Prop :=
  ∃ file, encodeWav16bitMono overflowChecks samples sampleRate = .ok file ∧
    readWav file = some ⟨sampleRate.toNat, samples⟩ ∧ pcmSamples (stripWavHeader file) = samples

theorem wavReadsBack_iff (overflowChecks : Bool) (samples : List Int16) (sampleRate : UInt32) :
    WavReadsBack overflowChecks samples sampleRate ↔
      WavFits samples.length sampleRate.toNat := by
  constructor
  · rintro ⟨file, hencode, hread, hstrip⟩
    obtain ⟨hsize, hrate, -⟩ := (readWav_encode hencode).mp hread
    have hfile := encodeWav16bitMono_of_fits overflowChecks hsize hrate
    rw [hencode] at hfile
    cases hfile
    exact (stripWavHeader_wavFile hsize hrate).mp hstrip
  · intro h
    have hencode := encodeWav16bitMono_of_fits overflowChecks h.size h.rate
    exact ⟨_, hencode, (readWav_encode hencode).mpr ⟨h.size, h.rate, rfl⟩,
      (stripWavHeader_wavFile h.size h.rate).mpr h⟩

end Lightfriend.Voice.Audio
