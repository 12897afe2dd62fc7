import Lightfriend.Core.Hex

/-! # The attestation verifier

Anyone may run the verifier against the deployment. It and the backend ask the
contract about the approval of an image in two programs of their own, the
backend about the hash of the three PCR values.
-/

namespace Lightfriend.Contract

/-! ## The backend's call -/

def parsePcrBytes (hexStr : String) : Option Bytes := hexDecode (stripHexPrefix hexStr)

def prefixedHex (bytes : Bytes) : String := "0x" ++ hexEncode bytes

/-- What is hashed: the flags, the PCR values and the empty PCR 16. -/
def imageIdPreimage (pcr0 pcr1 pcr2 : Bytes) : Bytes :=
  [0x00, 0x01, 0x00, 0x07] ++ pcr0 ++ pcr1 ++ pcr2 ++ List.replicate 48 0

def computeImageId (sha256 : Bytes → Bytes) (pcr0 pcr1 pcr2 : String) : Option String := do
  let pcr0Bytes ← parsePcrBytes pcr0
  let pcr1Bytes ← parsePcrBytes pcr1
  let pcr2Bytes ← parsePcrBytes pcr2
  if pcr0Bytes.length ≠ 48 ∨ pcr1Bytes.length ≠ 48 ∨ pcr2Bytes.length ≠ 48 then none
  else some (prefixedHex (sha256 (imageIdPreimage pcr0Bytes pcr1Bytes pcr2Bytes)))

def oysterKmsVerifySelector : Bytes := [0x1f, 0xe3, 0x65, 0xfa]

def encodeVerifyCall (imageIdHex : String) : Option String := do
  let idBytes ← hexDecode (stripHexPrefix imageIdHex)
  if idBytes.length ≠ 32 then none
  else some (prefixedHex (oysterKmsVerifySelector ++ idBytes))

/-! ## The verifier's call -/

/-- What `parse_pcr` and `parse_bytes32` share; the decoder's own message, the cause of the first
error, is left out. -/
def parseFixed (kind label : String) (width : Nat) (value : String) : Result Bytes := do
  let bytes ← orContext s!"invalid {kind} hex: {value}" (hexDecode (stripHexPrefix value))
  if bytes.length ≠ width then
    bail s!"{label} must decode to {width} bytes, got {bytes.length} for {value}"
  else .ok bytes

def parsePcr : String → Result Bytes := parseFixed "PCR" "PCR" 48

def parseBytes32 : String → Result Bytes := parseFixed "bytes32" "bytes32 value" 32

def selector (keccak256 : Bytes → Bytes) (signature : String) : Bytes :=
  (keccak256 (asBytes signature)).take 4

def encodeBoolCall (keccak256 : Bytes → Bytes) (signature bytes32ArgHex : String) :
    Result String := do
  let arg ← parseBytes32 bytes32ArgHex
  .ok (prefixedHex (selector keccak256 signature ++ arg))

/-! ## The verifier -/

structure Args where
  target : String
  buildMetadataUrl : Option String
  rpcUrl : Option String
  maxAgeMs : Nat

structure LiveMetadata where
  attestationRawUrl : String
  attestationHexUrl : String
  buildMetadataUrl : Option String
  commitSha : Option String
  workflowRunId : Option String
  imageRef : Option String
  eifSha256 : Option String
  pcr0 : Option String
  pcr1 : Option String
  pcr2 : Option String
  kmsContractAddress : Option String

structure BuildMetadata where
  commitSha : Option String
  imageRef : Option String
  eifKey : Option String
  eifSha256 : Option String
  pcr0 : Option String
  pcr1 : Option String
  pcr2 : Option String
  workflowRunId : Option String

structure AttestationExpectations where
  ageMs : Nat × Nat
  userData : Bytes

/-- Of what the SDK decodes, the PCR values. -/
structure AttestationDecoded where
  pcr0 : Bytes
  pcr1 : Bytes
  pcr2 : Bytes

/-- The answer to `eth_call`: the two members of the JSON object that are read. -/
structure RpcAnswer where
  error : Option String
  result : Option String

/-- What the verifier takes from outside: the URL library, the hash function, the network, the
clock, the random challenge and the SDK. -/
structure VerifierWorld where
  keccak256 : Bytes → Bytes
  parseUrl : String → Result String
  joinUrl : String → String → Result String
  appendUserData : String → String → String
  buildClient : Result Unit
  fetchLive : String → Result LiveMetadata
  fetchBuild : String → Result BuildMetadata
  fetchRaw : String → Result Bytes
  challenge : Bytes
  nowMs : Result Nat
  verifyAttestation : Bytes → AttestationExpectations → Result AttestationDecoded
  /-- `eth_call` on `latest`, by the URL of the node, the contract and the data. -/
  ethCall : String → String → String → Result RpcAnswer

def normalizeBaseUrl (world : VerifierWorld) (target : String) : Result String :=
  let withScheme :=
    if startsWithText target "http://" || startsWithText target "https://" then target
    else s!"https://{target}"
  withContext "failed to parse target URL" (world.parseUrl withScheme)

def fetchAttestation (world : VerifierWorld) (metadata : LiveMetadata) (challengeHex : String) :
    Result Bytes := do
  let url ← withContext "invalid attestation_raw_url from metadata endpoint"
    (world.parseUrl metadata.attestationRawUrl)
  world.fetchRaw (world.appendUserData url challengeHex)

def checkContract (world : VerifierWorld) (rpcUrl contract pcr0 : String) : Result Unit := do
  let callData ← encodeBoolCall world.keccak256 "oysterKMSVerify(bytes32)" pcr0
  let value ← world.ethCall rpcUrl contract callData
  match value.error with
  | some err => bail s!"rpc error checking contract approval: {err}"
  | none => do
      let result ← orContext "missing eth_call result" value.result
      if endsWithText result "1" then .ok ()
      else bail s!"contract does not approve pcr0 {pcr0}"

def compareOptional (label : String) (live build : Option String) : Result Unit :=
  match live, build with
  | some live, some build =>
      if live ≠ build then bail s!"{label} mismatch between live metadata and build metadata"
      else .ok ()
  | _, _ => .ok ()

def compareMetadata (live : LiveMetadata) (build : BuildMetadata) : Result Unit := do
  compareOptional "commit_sha" live.commitSha build.commitSha
  compareOptional "workflow_run_id" live.workflowRunId build.workflowRunId
  compareOptional "image_ref" live.imageRef build.imageRef
  compareOptional "eif_sha256" live.eifSha256 build.eifSha256
  compareOptional "pcr0" live.pcr0 build.pcr0
  compareOptional "pcr1" live.pcr1 build.pcr1
  compareOptional "pcr2" live.pcr2 build.pcr2

def checkBuildMetadata (world : VerifierWorld) (args : Args) (live : LiveMetadata) :
    Result Unit :=
  match args.buildMetadataUrl.or live.buildMetadataUrl with
  | none => .ok ()
  | some buildMetadataUrl => do
      let url ← world.parseUrl buildMetadataUrl
      let build ← world.fetchBuild url
      compareMetadata live build

def attest (world : VerifierWorld) (args : Args) (live : LiveMetadata) :
    Result AttestationDecoded := do
  let attestationDoc ← fetchAttestation world live (hexEncode world.challenge)
  let nowMs ← world.nowMs
  withContext "attestation verification failed"
    (world.verifyAttestation attestationDoc ⟨(args.maxAgeMs, nowMs), world.challenge⟩)

def comparePcrs (decoded : AttestationDecoded) (pcr0 pcr1 pcr2 : String) : Result Unit := do
  let expectedPcr0 ← parsePcr pcr0
  let expectedPcr1 ← parsePcr pcr1
  let expectedPcr2 ← parsePcr pcr2
  if decoded.pcr0 ≠ expectedPcr0 then bail "attested PCR0 does not match live metadata"
  else if decoded.pcr1 ≠ expectedPcr1 then bail "attested PCR1 does not match live metadata"
  else if decoded.pcr2 ≠ expectedPcr2 then bail "attested PCR2 does not match live metadata"
  else .ok ()

def fetchLiveMetadata (world : VerifierWorld) (args : Args) : Result LiveMetadata := do
  let baseUrl ← normalizeBaseUrl world args.target
  world.buildClient
  let metadataUrl ← world.joinUrl baseUrl "/.well-known/lightfriend/attestation"
  world.fetchLive metadataUrl

/-- `main`, without what it prints. -/
def verifierMain (world : VerifierWorld) (args : Args) : Result Unit := do
  let live ← fetchLiveMetadata world args
  let pcr0 ← orContext "live metadata missing pcr0" live.pcr0
  let pcr1 ← orContext "live metadata missing pcr1" live.pcr1
  let pcr2 ← orContext "live metadata missing pcr2" live.pcr2
  checkBuildMetadata world args live
  let decoded ← attest world args live
  comparePcrs decoded pcr0 pcr1 pcr2
  match args.rpcUrl, live.kmsContractAddress with
  | some rpcUrl, some contract => checkContract world rpcUrl contract pcr0
  | _, _ => .ok ()

/-! ## What the two programs should agree on -/

/-- A 48-byte PCR value in hex, with or without `0x`. -/
def IsPcr (value : String) : Prop := ∃ bytes, parsePcrBytes value = some bytes ∧ bytes.length = 48

def SameCallData (sha256 keccak256 : Bytes → Bytes) (pcr0 pcr1 pcr2 : String) : Prop :=
  ∃ callData, encodeBoolCall keccak256 "oysterKMSVerify(bytes32)" pcr0 = .ok callData ∧
    (computeImageId sha256 pcr0 pcr1 pcr2).bind encodeVerifyCall = some callData

/-- Both documents have the field only with one value. -/
def FieldAgrees (live build : Option String) : Prop :=
  ∀ l b, live = some l → build = some b → l = b

structure MetadataAgrees (live : LiveMetadata) (build : BuildMetadata) : Prop where
  commitSha : FieldAgrees live.commitSha build.commitSha
  workflowRunId : FieldAgrees live.workflowRunId build.workflowRunId
  imageRef : FieldAgrees live.imageRef build.imageRef
  eifSha256 : FieldAgrees live.eifSha256 build.eifSha256
  pcr0 : FieldAgrees live.pcr0 build.pcr0
  pcr1 : FieldAgrees live.pcr1 build.pcr1
  pcr2 : FieldAgrees live.pcr2 build.pcr2

/-- The answer of the node to the backend's call about the image of the PCR values. -/
def ApprovesImage (sha256 : Bytes → Bytes) (world : VerifierWorld) (rpcUrl contract : String)
    (pcr0 pcr1 pcr2 : String) : Prop :=
  ∃ callData answer result, (computeImageId sha256 pcr0 pcr1 pcr2).bind encodeVerifyCall =
      some callData ∧
    world.ethCall rpcUrl contract callData = .ok answer ∧ answer.error = none ∧
      answer.result = some result ∧ endsWithText result "1"

/-- A genuine deployment: the attested PCR values are the published ones, the two metadata
documents agree and the contract approves the image. -/
structure Genuine (sha256 : Bytes → Bytes) (world : VerifierWorld) (args : Args)
    (live : LiveMetadata) (rpcUrl contract pcr0 pcr1 pcr2 : String) : Prop where
  attested : ∃ decoded, attest world args live = .ok decoded ∧ parsePcr pcr0 = .ok decoded.pcr0 ∧
    parsePcr pcr1 = .ok decoded.pcr1 ∧ parsePcr pcr2 = .ok decoded.pcr2
  built : ∀ buildMetadataUrl, args.buildMetadataUrl.or live.buildMetadataUrl =
    some buildMetadataUrl → ∃ url build, world.parseUrl buildMetadataUrl = .ok url ∧
      world.fetchBuild url = .ok build ∧ MetadataAgrees live build
  approved : ApprovesImage sha256 world rpcUrl contract pcr0 pcr1 pcr2

/-! ## What the programs parse -/

theorem parseFixed_eq_ok {kind label value : String} {width : Nat} {bytes : Bytes} :
    parseFixed kind label width value = .ok bytes ↔
      parsePcrBytes value = some bytes ∧ bytes.length = width := by
  unfold parseFixed
  rw [bind_eq_ok]
  constructor
  · rintro ⟨decoded, hdecoded, h⟩
    split at h
    · cases h
    next hlength =>
      cases h
      exact ⟨orContext_eq_ok.mp hdecoded, not_not.mp hlength⟩
  · rintro ⟨hdecoded, hlength⟩
    exact ⟨bytes, orContext_eq_ok.mpr hdecoded, if_neg (not_not.mpr hlength)⟩

@[simp] theorem parsePcrBytes_prefixedHex (bytes : Bytes) :
    parsePcrBytes (prefixedHex bytes) = some bytes := by
  rw [parsePcrBytes, prefixedHex, stripHexPrefix_prefixed, hexDecode_hexEncode]

/-- No text is both a PCR value and an image id. -/
theorem encodeBoolCall_refuses {keccak256 : Bytes → Bytes} {signature value : String}
    (h : IsPcr value) (callData : String) :
    encodeBoolCall keccak256 signature value ≠ .ok callData := by
  intro hcall
  obtain ⟨bytes, hbytes, hlength⟩ := h
  obtain ⟨arg, harg, _⟩ := bind_eq_ok.mp hcall
  obtain ⟨harg, hargLength⟩ := parseFixed_eq_ok.1 harg
  cases hbytes.symm.trans harg
  omega

theorem comparePcrs_eq_ok {decoded : AttestationDecoded} {pcr0 pcr1 pcr2 : String} :
    comparePcrs decoded pcr0 pcr1 pcr2 = .ok () ↔
      parsePcr pcr0 = .ok decoded.pcr0 ∧ parsePcr pcr1 = .ok decoded.pcr1 ∧
        parsePcr pcr2 = .ok decoded.pcr2 := by
  unfold comparePcrs
  simp only [bind_eq_ok]
  constructor
  · rintro ⟨expected0, h0, expected1, h1, expected2, h2, h⟩
    split_ifs at h with hne0 hne1 hne2
    · cases h
    · cases h
    · cases h
    · rw [not_not.mp hne0, not_not.mp hne1, not_not.mp hne2]
      exact ⟨h0, h1, h2⟩
  · rintro ⟨h0, h1, h2⟩
    exact ⟨_, h0, _, h1, _, h2, by simp⟩

/-- A contract check that succeeds has been given a 32-byte value. -/
theorem checkContract_ok {world : VerifierWorld} {rpcUrl contract pcr0 : String}
    (h : checkContract world rpcUrl contract pcr0 = .ok ()) : ¬ IsPcr pcr0 := by
  intro hpcr
  obtain ⟨callData, hcall, _⟩ := bind_eq_ok.mp h
  exact encodeBoolCall_refuses hpcr callData hcall

/-- The PCR comparison before the contract check lets only 48-byte values through. -/
theorem verifierMain_ne_ok {world : VerifierWorld} {args : Args} {live : LiveMetadata}
    {rpcUrl contract : String} (hlive : fetchLiveMetadata world args = .ok live)
    (hrpc : args.rpcUrl = some rpcUrl) (hcontract : live.kmsContractAddress = some contract) :
    verifierMain world args ≠ .ok () := by
  intro h
  obtain ⟨fetched, hfetched, h⟩ := bind_eq_ok.mp h
  cases hlive.symm.trans hfetched
  obtain ⟨pcr0, _, h⟩ := bind_eq_ok.mp h
  obtain ⟨pcr1, _, h⟩ := bind_eq_ok.mp h
  obtain ⟨pcr2, _, h⟩ := bind_eq_ok.mp h
  obtain ⟨_, _, h⟩ := bind_eq_ok.mp h
  obtain ⟨decoded, _, h⟩ := bind_eq_ok.mp h
  obtain ⟨_, hcompare, h⟩ := bind_eq_ok.mp h
  rw [hrpc, hcontract] at h
  obtain ⟨hpcr0, hlength⟩ := parseFixed_eq_ok.1 (comparePcrs_eq_ok.1 hcompare).1
  exact checkContract_ok h ⟨decoded.pcr0, hpcr0, hlength⟩

/-- The verifier builds no call for any PCR values, and with a node and a contract to ask it
succeeds for no deployment, least of all for a genuine one. -/
theorem verifier_never_checks_the_image (sha256 : Bytes → Bytes) :
    (∀ (keccak256 : Bytes → Bytes) (pcr0 pcr1 pcr2 : String), IsPcr pcr0 → IsPcr pcr1 →
      IsPcr pcr2 → ¬ SameCallData sha256 keccak256 pcr0 pcr1 pcr2) ∧
    ∀ (world : VerifierWorld) (args : Args) (live : LiveMetadata) (rpcUrl contract : String),
      fetchLiveMetadata world args = .ok live → args.rpcUrl = some rpcUrl →
        live.kmsContractAddress = some contract →
          verifierMain world args ≠ .ok () ∧
          ∀ pcr0 pcr1 pcr2, live.pcr0 = some pcr0 → live.pcr1 = some pcr1 →
            live.pcr2 = some pcr2 →
              ((verifierMain world args = .ok () ↔
                Genuine sha256 world args live rpcUrl contract pcr0 pcr1 pcr2) ↔
                ¬ Genuine sha256 world args live rpcUrl contract pcr0 pcr1 pcr2) := by
  constructor
  · rintro keccak256 pcr0 pcr1 pcr2 hpcr0 _ _ ⟨callData, hcall, _⟩
    exact encodeBoolCall_refuses hpcr0 callData hcall
  · intro world args live rpcUrl contract hlive hrpc hcontract
    have hne := verifierMain_ne_ok hlive hrpc hcontract
    refine ⟨hne, fun pcr0 pcr1 pcr2 _ _ _ => ?_⟩
    rw [iff_false_left hne]

/-! ## A genuine deployment that is rejected -/

def rejectedPcr : String := prefixedHex (List.replicate 48 0)

def rejectedLive : LiveMetadata where
  attestationRawUrl := "https://lightfriend.ai/attestation/raw"
  attestationHexUrl := "https://lightfriend.ai/attestation/hex"
  buildMetadataUrl := none
  commitSha := some "c0ffee"
  workflowRunId := some "1"
  imageRef := none
  eifSha256 := none
  pcr0 := some rejectedPcr
  pcr1 := some rejectedPcr
  pcr2 := some rejectedPcr
  kmsContractAddress := some "0x2222222222222222222222222222222222222222"

/-- The contract approves whatever it is asked about. -/
def rejectedWorld : VerifierWorld where
  keccak256 := fun _ => oysterKmsVerifySelector ++ List.replicate 28 0
  parseUrl := .ok
  joinUrl := fun base path => .ok (base ++ path)
  appendUserData := fun url challengeHex => url ++ "?user_data=" ++ challengeHex
  buildClient := .ok ()
  fetchLive := fun _ => .ok rejectedLive
  fetchBuild := fun _ => .error ["404 Not Found"]
  fetchRaw := fun _ => .ok []
  challenge := List.replicate 16 7
  nowMs := .ok 1700000000000
  verifyAttestation := fun _ _ =>
    .ok ⟨List.replicate 48 0, List.replicate 48 0, List.replicate 48 0⟩
  ethCall := fun _ _ _ =>
    .ok ⟨none, some "0x0000000000000000000000000000000000000000000000000000000000000001"⟩

def rejectedArgs : Args := ⟨"https://lightfriend.ai", none, some "https://arb1.arbitrum.io/rpc",
  300000⟩

/-- SHA-256 of the preimage of three empty PCR values. -/
def rejectedImageId : Bytes :=
  [186, 252, 81, 218, 100, 146, 162, 195, 22, 38, 14, 234, 182, 11, 66, 73, 3, 107, 118, 100, 173,
    70, 23, 245, 17, 120, 38, 219, 170, 29, 69, 46]

theorem genuine_deployment_rejected :
    ¬ SameCallData (fun _ => rejectedImageId) rejectedWorld.keccak256 rejectedPcr rejectedPcr
        rejectedPcr ∧
      ∃ contract, fetchLiveMetadata rejectedWorld rejectedArgs = .ok rejectedLive ∧
        Genuine (fun _ => rejectedImageId) rejectedWorld rejectedArgs rejectedLive
          "https://arb1.arbitrum.io/rpc" contract rejectedPcr rejectedPcr rejectedPcr ∧
        verifierMain rejectedWorld rejectedArgs ≠ .ok () := by
  have hbytes : parsePcrBytes rejectedPcr = some (List.replicate 48 0) :=
    parsePcrBytes_prefixedHex _
  have hpcr : parsePcr rejectedPcr = .ok (List.replicate 48 0) :=
    parseFixed_eq_ok.2 ⟨hbytes, rfl⟩
  have himage : computeImageId (fun _ => rejectedImageId) rejectedPcr rejectedPcr rejectedPcr =
      some (prefixedHex rejectedImageId) := by
    simp [computeImageId, hbytes]
  have hcall : encodeVerifyCall (prefixedHex rejectedImageId) =
      some (prefixedHex (oysterKmsVerifySelector ++ rejectedImageId)) := by
    have hid := parsePcrBytes_prefixedHex rejectedImageId
    rw [parsePcrBytes] at hid
    rw [encodeVerifyCall, hid]
    rfl
  have hlive : fetchLiveMetadata rejectedWorld rejectedArgs = .ok rejectedLive := rfl
  refine ⟨?_, "0x2222222222222222222222222222222222222222", hlive, ?_,
    verifierMain_ne_ok hlive rfl rfl⟩
  · rintro ⟨callData, hcallData, _⟩
    exact encodeBoolCall_refuses ⟨_, hbytes, rfl⟩ callData hcallData
  · exact
      { attested := ⟨_, rfl, hpcr, hpcr, hpcr⟩
        built := fun _ hnone => nomatch hnone
        approved := ⟨_, _, _, by rw [himage, Option.bind_some, hcall], rfl, rfl, rfl, by decide⟩ }

end Lightfriend.Contract
