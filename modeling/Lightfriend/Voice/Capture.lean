import Mathlib.Data.Bool.AllAny
import Lightfriend.Voice.Mulaw
import Lightfriend.Voice.Wav

/-! # Utterances of a call

The two transports of a call collect what is said between two silences. What is
collected is resampled, put into a file and sent to be transcribed.
-/

namespace Lightfriend.Voice.Audio

/-! ## Resampling -/

/-- The resampler that is used, and the conversions of samples to its floats and back. -/
structure Resampling (σ α : Type) where
  /-- `FftFixedInOut::new(from_rate, to_rate, 1024, 1)` -/
  create : Nat → Nat → Option σ
  inputFramesMax : σ → Nat
  /-- The frames that come out, if any, and the resampler after them. -/
  process : σ → List α → Option (List α) × σ
  toFloat : Int16 → α
  toSample : α → Int16
  silence : α

section Resample

variable {σ α : Type}

/-- The whole chunks: what comes out of them, the resampler, and what is left. -/
def resampleChunks (lib : Resampling σ α) (chunkSize : Nat) :
    Nat → σ → List α → List Int16 × σ × List α
  | 0, resampler, rest => ([], resampler, rest)
  | fuel + 1, resampler, rest =>
      if rest.length < chunkSize then ([], resampler, rest)
      else
        match lib.process resampler (rest.take chunkSize) with
        | (none, resampler) => ([], resampler, rest)
        | (some result, resampler) =>
            let (output, last) := resampleChunks lib chunkSize fuel resampler (rest.drop chunkSize)
            (result.map lib.toSample ++ output, last)

/-- `Vec::resize`. -/
def resize (xs : List α) (size : Nat) (x : α) : List α :=
  xs.take size ++ List.replicate (size - xs.length) x

def resample (lib : Resampling σ α) (samples : List Int16) (fromRate toRate : Nat) : List Int16 :=
  if fromRate = toRate ∨ samples = [] then samples
  else
    match lib.create fromRate toRate with
    | none => samples
    | some resampler =>
        let chunkSize := lib.inputFramesMax resampler
        -- the loop takes a chunk of at least one sample in every round
        let (output, resampler, rest) := resampleChunks lib chunkSize samples.length resampler
          (samples.map lib.toFloat)
        if rest = [] then output
        else
          match (lib.process resampler (resize rest chunkSize lib.silence)).1 with
          | none => output
          | some result =>
              let expected := rest.length * toRate / fromRate
              output ++ (result.take (min expected result.length)).map lib.toSample

/-- What the resampler promises: it is made for all rates, and every chunk gives a chunk. -/
structure Resampling.Documented (lib : Resampling σ α) (fromRate toRate : Nat) : Prop where
  create : ∃ resampler, lib.create fromRate toRate = some resampler ∧
    0 < lib.inputFramesMax resampler ∧
      ∃ framesOut, framesOut * fromRate = lib.inputFramesMax resampler * toRate ∧
        ∃ ready : σ → Prop, ready resampler ∧
          ∀ state, ready state → ∀ chunk : List α, chunk.length = lib.inputFramesMax resampler →
            ∃ result next, lib.process state chunk = (some result, next) ∧
              result.length = framesOut ∧ ready next

/-- The chunks give what they promise, and less than a chunk is left. -/
theorem resampleChunks_spec {lib : Resampling σ α} {chunkSize framesOut : Nat} {ready : σ → Prop}
    (hpos : 0 < chunkSize)
    (hprocess : ∀ state, ready state → ∀ chunk : List α, chunk.length = chunkSize →
      ∃ result next, lib.process state chunk = (some result, next) ∧
        result.length = framesOut ∧ ready next)
    {fuel : Nat} {state : σ} (hready : ready state) (xs : List α) (hfuel : xs.length ≤ fuel) :
    ∃ rounds output last rest,
      resampleChunks lib chunkSize fuel state xs = (output, last, rest) ∧ ready last ∧
        rest.length < chunkSize ∧ xs.length = rounds * chunkSize + rest.length ∧
          output.length = rounds * framesOut := by
  induction fuel generalizing state xs with
  | zero => exact ⟨0, [], state, xs, rfl, hready, by omega, by omega, by simp⟩
  | succ fuel ih =>
      rw [resampleChunks]
      by_cases hshort : xs.length < chunkSize
      · rw [if_pos hshort]
        exact ⟨0, [], state, xs, rfl, hready, hshort, by omega, by simp⟩
      · obtain ⟨result, next, hresult, hlength, hnext⟩ :=
          hprocess state hready (xs.take chunkSize) (by rw [List.length_take]; omega)
        have hdrop : (xs.drop chunkSize).length ≤ fuel := by
          rw [List.length_drop]
          omega
        obtain ⟨rounds, output, last, rest, hchunks, hlast, hrest, hsum, houtput⟩ :=
          ih hnext _ hdrop
        rw [List.length_drop] at hsum
        refine ⟨rounds + 1, result.map lib.toSample ++ output, last, rest, ?_, hlast, hrest, ?_, ?_⟩
        · rw [if_neg hshort, hresult]
          simp only [hchunks]
        · rw [Nat.succ_mul]
          omega
        · rw [List.length_append, List.length_map, hlength, houtput, Nat.succ_mul, Nat.add_comm]

/-- The number of samples changes by the ratio of the rates. -/
def KeepsTime (resample : List Int16 → Nat → Nat → List Int16) : Prop :=
  ∀ samples fromRate toRate, 0 < fromRate → 0 < toRate →
    (resample samples fromRate toRate).length = samples.length * toRate / fromRate

theorem length_resample {lib : Resampling σ α} {fromRate toRate : Nat} (hfrom : 0 < fromRate)
    (h : lib.Documented fromRate toRate) (samples : List Int16) :
    (resample lib samples fromRate toRate).length = samples.length * toRate / fromRate := by
  obtain ⟨resampler, hcreate, hpos, framesOut, hframes, ready, hready, hprocess⟩ := h.create
  unfold resample
  by_cases hsame : fromRate = toRate ∨ samples = []
  · rw [if_pos hsame]
    rcases hsame with rfl | rfl
    · exact (Nat.mul_div_cancel _ hfrom).symm
    · simp
  obtain ⟨rounds, output, last, rest, hchunks, hlast, hrest, hsum, houtput⟩ :=
    resampleChunks_spec hpos hprocess hready (samples.map lib.toFloat) (List.length_map _).le
  rw [List.length_map] at hsum
  simp only [if_neg hsame, hcreate, hchunks]
  have htotal : samples.length * toRate =
      rest.length * toRate + rounds * framesOut * fromRate := by
    rw [hsum, Nat.add_mul, Nat.mul_assoc, ← hframes, ← Nat.mul_assoc, Nat.add_comm]
  rw [htotal, Nat.add_mul_div_right _ _ hfrom]
  by_cases hempty : rest = []
  · rw [if_pos hempty, houtput, hempty]
    simp
  · have hfull : (resize rest (lib.inputFramesMax resampler) lib.silence).length =
        lib.inputFramesMax resampler := by
      rw [resize, List.length_append, List.length_take, List.length_replicate]
      omega
    obtain ⟨result, next, hresult, hlength, -⟩ := hprocess last hlast _ hfull
    have hexpected : rest.length * toRate / fromRate ≤ framesOut := by
      rw [Nat.div_le_iff_le_mul hfrom]
      have hle := Nat.mul_le_mul_right toRate hrest.le
      omega
    rw [if_neg hempty, hresult]
    simp only [List.length_append, List.length_map, List.length_take, hlength, houtput]
    omega

end Resample

/-! ## The session -/

inductive TransportMode
  /-- Mu-law at 8 kHz. -/
  | twilio
  /-- Samples of two bytes at 16 kHz. -/
  | webCall
deriving DecidableEq

inductive CallState
  | listening
  | processing
  | speaking
deriving DecidableEq

/-- What the session keeps of the audio. The times are in nanoseconds. -/
structure CallSession where
  state : CallState
  transport : TransportMode
  speechAudio : List Int16
  isSpeaking : Bool
  silenceStart : Option Nat
  speechStart : Option Nat

/-- `init_session`. -/
def initSession (transport : TransportMode) : CallSession :=
  ⟨.listening, transport, [], false, none, none⟩

/-- The bytes of a packet of audio, and the clock as it is read for it. -/
structure Packet where
  data : Bytes
  now : Nat
  silenceNow : Nat
  speechNow : Nat

def silenceDurationMs : Nat := 800

def minSpeechDurationMs : Nat := 500

/-- `start.elapsed().as_millis()`. -/
def elapsedMs (start now : Nat) : Nat := (now - start) / 1000000

/-- The samples of a packet. -/
def TransportMode.samples : TransportMode → Bytes → List Int16
  | .twilio, data => data.map mulawDecode
  | .webCall, data => pcmSamples data

/-- The samples that the transport captures in a second. -/
def TransportMode.rate : TransportMode → Nat
  | .twilio => 8000
  | .webCall => 16000

/-- The packets that a session passes over. -/
def CallSession.skips (s : CallSession) : Bool :=
  match s.transport with
  | .twilio => s.state == .processing
  | .webCall => s.state != .listening

/-- The session after the end of a speech. -/
def CallSession.reset (s : CallSession) : CallSession :=
  { s with speechAudio := [], isSpeaking := false, silenceStart := none, speechStart := none }

/-- A packet adds to the speech; after a silence that is long enough the speech is handed on, or
dropped when it is too short. -/
def CallSession.hear (loud : List Int16 → Bool) (s : CallSession) (packet : Packet) :
    CallSession × Option (List Int16) :=
  if s.skips then (s, none)
  else
    let pcm := s.transport.samples packet.data
    if loud pcm then
      ({ s with
          isSpeaking := true
          speechStart := if s.isSpeaking then s.speechStart else some packet.now
          speechAudio := s.speechAudio ++ pcm
          silenceStart := none }, none)
    else if s.isSpeaking then
      let speech := s.speechAudio ++ pcm
      let silenceStart := s.silenceStart.getD packet.now
      if silenceDurationMs ≤ elapsedMs silenceStart packet.silenceNow then
        let speechDuration := (s.speechStart.map (elapsedMs · packet.speechNow)).getD 0
        if minSpeechDurationMs ≤ speechDuration ∧ speech ≠ [] then
          ({ s.reset with state := .processing }, some speech)
        else (s.reset, none)
      else ({ s with speechAudio := speech, silenceStart := some silenceStart }, none)
    else (s, none)

/-- What is sent to be transcribed in `process_utterance`. -/
def processUtterance (resample : List Int16 → Nat → Nat → List Int16) (overflowChecks : Bool)
    (speech : List Int16) : Checked Bytes :=
  encodeWav16bitMono overflowChecks (resample speech 8000 16000) 16000

/-- What was captured, and the file made of it. -/
structure Utterance where
  samples : List Int16
  wav : Checked Bytes

/-- The utterances of a call. After each of them the session listens again, unless it is aborted. -/
def utterances (loud : List Int16 → Bool) (resample : List Int16 → Nat → Nat → List Int16)
    (overflowChecks : Bool) (s : CallSession) : List Packet → List Utterance
  | [] => []
  | packet :: rest =>
      match s.hear loud packet with
      | (s, none) => utterances loud resample overflowChecks s rest
      | (s, some speech) =>
          let wav := processUtterance resample overflowChecks speech
          ⟨speech, wav⟩ ::
            match wav with
            | .ok _ =>
                utterances loud resample overflowChecks { s with state := .listening } rest
            | .error _ => []

/-! ## How long a file plays -/

/-- The seconds that samples take. -/
def playingTime (count rate : Nat) : ℚ := count / rate

/-- The file made of an utterance plays for as long as it was spoken. -/
def PlaysAsLong (transport : TransportMode) (utterance : Utterance) : Prop :=
  ∃ file wav, utterance.wav = .ok file ∧ readWav file = some wav ∧
    playingTime wav.samples.length wav.sampleRate =
      playingTime utterance.samples.length transport.rate

/-! ## Runs of a call -/

section Runs

variable {loud : List Int16 → Bool} {resample : List Int16 → Nat → Nat → List Int16}
  {overflowChecks : Bool} {s : CallSession}

/-- Between two packets the session listens, and holds audio of a speech only. -/
structure CallSession.Ready (s : CallSession) : Prop where
  listening : s.state = .listening
  silent : s.isSpeaking = false → s.speechAudio = []

theorem ready_initSession (transport : TransportMode) : (initSession transport).Ready :=
  ⟨rfl, fun _ => rfl⟩

theorem CallSession.Ready.skips (h : s.Ready) : s.skips = false := by
  unfold CallSession.skips
  rw [h.listening]
  cases s.transport <;> rfl

/-- What a packet does to a session that listens. -/
structure HearSpec (s : CallSession) (pcm : List Int16) (next : CallSession)
    (speech : Option (List Int16)) : Prop where
  transport : next.transport = s.transport
  ready : { next with state := .listening }.Ready
  /-- The speech is kept with the packet, or it is over. -/
  audio : next.speechAudio = s.speechAudio ++ pcm ∨ next.speechAudio = []
  handed : ∀ samples ∈ speech, samples = s.speechAudio ++ pcm ∧ samples ≠ []
  listening : speech = none → next.state = .listening

theorem hear_spec (loud : List Int16 → Bool) (h : s.Ready) (packet : Packet) :
    HearSpec s (s.transport.samples packet.data) (s.hear loud packet).1 (s.hear loud packet).2 := by
  have hnone : ∀ samples ∈ (none : Option (List Int16)),
      samples = s.speechAudio ++ s.transport.samples packet.data ∧ samples ≠ [] :=
    fun _ hmem => by cases hmem
  simp only [CallSession.hear, h.skips, Bool.false_eq_true, if_false]
  by_cases hloud : loud (s.transport.samples packet.data) = true
  · rw [if_pos hloud]
    exact ⟨rfl, ⟨rfl, fun hquiet => by cases hquiet⟩, .inl rfl, hnone, fun _ => h.listening⟩
  rw [if_neg hloud]
  by_cases hspeaking : s.isSpeaking = true
  · rw [if_pos hspeaking]
    split
    next =>
      split
      next hlong =>
        refine ⟨rfl, ⟨rfl, fun _ => rfl⟩, .inr rfl, ?_, fun hspeech => by cases hspeech⟩
        rintro samples ⟨⟩
        exact ⟨rfl, hlong.2⟩
      next => exact ⟨rfl, ⟨rfl, fun _ => rfl⟩, .inr rfl, hnone, fun _ => h.listening⟩
    next =>
      refine ⟨rfl, ⟨rfl, fun hquiet => ?_⟩, .inl rfl, hnone, fun _ => h.listening⟩
      rw [hspeaking] at hquiet
      cases hquiet
  · rw [if_neg hspeaking]
    have hempty := h.silent (by simpa using hspeaking)
    exact ⟨rfl, ⟨rfl, fun _ => hempty⟩, .inr hempty, hnone, fun _ => h.listening⟩

theorem HearSpec.next_ready {pcm : List Int16} {next : CallSession}
    (h : HearSpec s pcm next none) : next.Ready :=
  ⟨h.listening rfl, h.ready.silent⟩

/-- An utterance is a part of what the transport carried, and the file is made of it. -/
theorem mem_utterances (h : s.Ready) {packets : List Packet} {utterance : Utterance}
    (hmem : utterance ∈ utterances loud resample overflowChecks s packets) :
    utterance.samples <:+:
        s.speechAudio ++ packets.flatMap (fun packet => s.transport.samples packet.data) ∧
      utterance.samples ≠ [] ∧
        utterance.wav = processUtterance resample overflowChecks utterance.samples := by
  induction packets generalizing s with
  | nil => cases hmem
  | cons packet rest ih =>
      have hspec := hear_spec loud h packet
      have hpart : ∀ next : CallSession, next.transport = s.transport →
          (next.speechAudio = s.speechAudio ++ s.transport.samples packet.data ∨
            next.speechAudio = []) →
          utterance.samples <:+: next.speechAudio ++
            rest.flatMap (fun packet => next.transport.samples packet.data) →
          utterance.samples <:+: s.speechAudio ++
            (packet :: rest).flatMap (fun packet => s.transport.samples packet.data) := by
        intro next htransport haudio hwithin
        rw [htransport] at hwithin
        rw [List.flatMap_cons, ← List.append_assoc]
        rcases haudio with haudio | haudio
        · rw [haudio] at hwithin
          exact hwithin
        · rw [haudio, List.nil_append] at hwithin
          exact hwithin.trans (List.suffix_append _ _).isInfix
      rw [utterances] at hmem
      generalize s.hear loud packet = result at hspec hmem
      obtain ⟨next, speech⟩ := result
      cases speech with
      | none =>
          obtain ⟨hwithin, hrest⟩ := ih hspec.next_ready hmem
          exact ⟨hpart next hspec.transport hspec.audio hwithin, hrest⟩
      | some speech =>
          obtain ⟨hspeech, hne⟩ := hspec.handed speech rfl
          simp only [List.mem_cons] at hmem
          rcases hmem with rfl | hmem
          · refine ⟨?_, hne, rfl⟩
            rw [List.flatMap_cons, ← List.append_assoc, ← hspeech]
            exact (List.prefix_append _ _).isInfix
          · cases hwav : processUtterance resample overflowChecks speech with
            | error fault =>
                rw [hwav] at hmem
                cases hmem
            | ok file =>
                rw [hwav] at hmem
                obtain ⟨hwithin, hrest⟩ := ih hspec.ready hmem
                exact ⟨hpart { next with state := .listening } hspec.transport hspec.audio hwithin,
                  hrest⟩

end Runs

/-! ## Undistorted audio -/

section Audio

variable {resample : List Int16 → Nat → Nat → List Int16}

/-- The rates fit the phone; what the web captures is stretched to twice its time. -/
theorem playsAsLong_iff (hresample : KeepsTime resample) {overflowChecks : Bool}
    {transport : TransportMode} {utterance : Utterance} (hne : utterance.samples ≠ [])
    (hwav : utterance.wav = processUtterance resample overflowChecks utterance.samples) :
    PlaysAsLong transport utterance ↔
      transport = .twilio ∧ 36 + utterance.samples.length * 4 < 2 ^ 32 := by
  have hpos := List.length_pos_iff.mpr hne
  have hcount : (resample utterance.samples 8000 16000).length = utterance.samples.length * 2 := by
    rw [hresample _ _ _ (by decide) (by decide)]
    omega
  have htime : playingTime (resample utterance.samples 8000 16000).length 16000 =
      playingTime utterance.samples.length transport.rate ↔ transport = .twilio := by
    have hcast : (0 : ℚ) < utterance.samples.length := by exact_mod_cast hpos
    rw [playingTime, playingTime, hcount]
    cases transport with
    | twilio =>
        refine iff_of_true ?_ rfl
        simp only [TransportMode.rate]
        push_cast
        ring
    | webCall =>
        refine iff_of_false ?_ (by decide)
        simp only [TransportMode.rate]
        push_cast
        intro heq
        linarith
  unfold PlaysAsLong
  rw [hwav, processUtterance]
  constructor
  · rintro ⟨file, wav, hfile, hread, heq⟩
    obtain ⟨hsize, -, rfl⟩ := (readWav_encode hfile).mp hread
    rw [hcount] at hsize
    exact ⟨htime.mp heq, by omega⟩
  · rintro ⟨htwilio, hsize⟩
    have hfits : 36 + (resample utterance.samples 8000 16000).length * 2 < 2 ^ 32 := by
      rw [hcount]
      omega
    have hrange : (16000 : UInt32).toNat < 2 ^ 31 := by decide
    have hfile := encodeWav16bitMono_of_fits overflowChecks hfits hrange
    exact ⟨_, _, hfile, (readWav_encode hfile).mpr ⟨hfits, hrange, rfl⟩, htime.mpr htwilio⟩

/-- Which samples the encoder takes, which streams survive the codec, which samples are read back
from their file, and which utterances play for as long as they were spoken. -/
theorem caller_audio_iff (hresample : KeepsTime resample) (overflowChecks : Bool) :
    (∀ sample : Int16, Returns (mulawEncode true sample) ↔ sample ≠ Int16.minValue) ∧
    (∀ samples : List Int16, StreamSurvives overflowChecks samples ↔
      ∀ sample ∈ samples, -8 ≤ sample.toInt ∧ sample.toInt ≤ 8) ∧
    (∀ (samples : List Int16) (sampleRate : UInt32),
      WavReadsBack overflowChecks samples sampleRate ↔
        WavFits samples.length sampleRate.toNat) ∧
    ∀ (loud : List Int16 → Bool) (transport : TransportMode) (packets : List Packet),
      ∀ utterance ∈ utterances loud resample overflowChecks (initSession transport) packets,
        (PlaysAsLong transport utterance ↔
          transport = .twilio ∧ 36 + utterance.samples.length * 4 < 2 ^ 32) := by
  refine ⟨returns_mulawEncode_iff, streamSurvives_iff overflowChecks,
    wavReadsBack_iff overflowChecks, ?_⟩
  intro loud transport packets utterance hmem
  obtain ⟨-, hne, hwav⟩ := mem_utterances (ready_initSession transport) hmem
  exact playsAsLong_iff hresample hne hwav

end Audio

/-- Every sample stands for the time up to the next one. -/
def hold : Resampling (Nat × Nat) Int16 where
  create := fun fromRate toRate =>
    some (fromRate / Nat.gcd fromRate toRate, toRate / Nat.gcd fromRate toRate)
  inputFramesMax := Prod.fst
  process := fun rates chunk =>
    (some ((List.range rates.2).map (fun i => chunk.getD (i * rates.1 / rates.2) 0)), rates)
  toFloat := id
  toSample := id
  silence := 0

theorem documented_hold {fromRate toRate : Nat} (h : 0 < fromRate) :
    hold.Documented fromRate toRate := by
  have hgcd : 0 < Nat.gcd fromRate toRate := Nat.gcd_pos_of_pos_left _ h
  refine ⟨_, rfl, Nat.div_pos (Nat.le_of_dvd h (Nat.gcd_dvd_left _ _)) hgcd,
    toRate / Nat.gcd fromRate toRate, ?_,
    (· = (fromRate / Nat.gcd fromRate toRate, toRate / Nat.gcd fromRate toRate)), rfl, ?_⟩
  · rw [Nat.div_mul_right_comm (Nat.gcd_dvd_right _ _), Nat.mul_comm,
      ← Nat.div_mul_right_comm (Nat.gcd_dvd_left _ _)]
    rfl
  · rintro state rfl chunk -
    exact ⟨_, _, rfl, by simp, rfl⟩

theorem keepsTime_hold : KeepsTime (resample hold) :=
  fun samples _ _ hfrom _ => length_resample hfrom (documented_hold hfrom) samples

/-- A loud packet, and silence for two seconds. -/
def spoken (loud quiet : Bytes) : List Packet :=
  [⟨loud, 0, 0, 0⟩, ⟨quiet, 0, 2000000000, 2000000000⟩]

def isLoud (samples : List Int16) : Bool := samples.any (500 < ·)

theorem caller_audio_phone :
    Returns (mulawEncode true 32767) ∧ StreamSurvives true [-8, 0, 8] ∧
      WavReadsBack true [1000, -1000] 16000 ∧
        ∀ utterance ∈ utterances isLoud (resample hold) true (initSession .twilio)
          (spoken [0x80] [0xFF]), PlaysAsLong .twilio utterance := by
  obtain ⟨hreturns, hstream, hwav, hutterances⟩ := caller_audio_iff keepsTime_hold true
  refine ⟨(hreturns _).mpr (by decide), (hstream _).mpr (List.all_iff_forall_prop.mp (by decide)),
    (hwav _ _).mpr ⟨by decide, by decide, by decide, by decide⟩,
    fun utterance hmem => (hutterances _ _ _ utterance hmem).mpr ⟨rfl, ?_⟩⟩
  have hall : ∀ utterance ∈ utterances isLoud (resample hold) true (initSession .twilio)
      (spoken [0x80] [0xFF]), 36 + utterance.samples.length * 4 < 2 ^ 32 := by decide
  exact hall utterance hmem

/-- A sample that comes back too small, one that overflows, and a web call that is stretched. -/
theorem caller_audio_distorted :
    ¬ StreamSurvives true [1000] ∧ ¬ Returns (mulawEncode true Int16.minValue) ∧
      ∃ utterance ∈ utterances isLoud (resample hold) true (initSession .webCall)
        (spoken [0xE8, 0x03] [0x00, 0x00]), ¬ PlaysAsLong .webCall utterance := by
  refine ⟨fun h => ?_, by decide, ⟨[1000, 0], _⟩, List.mem_cons_self, fun h => ?_⟩
  · exact absurd ((streamSurvives_iff _ _).mp h 1000 List.mem_cons_self) (by decide)
  · have hweb := (playsAsLong_iff keepsTime_hold (by decide) rfl).mp h
    exact absurd hweb.1 (by decide)

end Lightfriend.Voice.Audio
