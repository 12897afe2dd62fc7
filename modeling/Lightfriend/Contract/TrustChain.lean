import Lightfriend.Contract.Proposals
import Lightfriend.Contract.Verifier
import Lightfriend.Core.Table
import Mathlib.Data.String.Basic

/-! # The published trust chain

The backend shows the proposals and activations of the contract as the logs of
a node tell them. It joins the two kinds of logs by the image id alone.
-/

namespace Lightfriend.Contract

/-! ## Logs -/

/-- `keccak256("ImageProposed(bytes32,string,uint256)")`. -/
def imageProposedTopic : String :=
  "0x97878f3f42042ec2f400b9e9ae0f231760829b25910474c62dbbee1adfb5dcfc"

/-- `keccak256("ImageActivated(bytes32)")`. -/
def imageActivatedTopic : String :=
  "0x4f887831a5a2a01a8f0fbffb2dcc0b047560a93fda3377e25b2ce8228455cc0e"

/-- The members of a log that are read, each where it has the expected JSON type. -/
structure RpcLog where
  topics : Option (List (Option String))
  transactionHash : Option String
  blockNumber : Option String
  logIndex : Option String
  blockTimestamp : Option String
  data : Option String
deriving DecidableEq

/-- `topics.get(1).and_then(as_str)`. -/
def RpcLog.topic1 (log : RpcLog) : Option String :=
  log.topics.bind (fun topics => (topics[1]?).join)

/-! ## The handlers -/

structure HistoryOrderKey where
  blockNumber : Option Nat
  logIndex : Option Nat
  timestamp : Option String
deriving DecidableEq

structure HistoricalBuild where
  imageId : String
  commitHash : String
  proposeTx : String
  proposeTimestamp : Option String
  activateTx : Option String
  activateTimestamp : Option String
  isCurrent : Bool
deriving DecidableEq

structure BlockchainInfo where
  approved : Bool
  proposeTx : Option String
  proposeTimestamp : Option String
  activateTx : Option String
  activateTimestamp : Option String
deriving DecidableEq

/-- What the handlers take from outside: the logs and the approval that the node reports, the
timestamps of its blocks, and the date library. -/
structure TrustWorld where
  fetchEventLogs : String → Option String → List RpcLog
  checkContractApproval : String → Option Bool
  fetchBlockTimestamp : String → Option String
  toRfc3339 : Int → Option String

def logHexFieldU64 (field : Option String) : Option Nat :=
  field.bind (fun value => u64FromHex (stripHexPrefix value))

/-- `ts_secs as i64` is the number itself below `2^63`. -/
def timestampFromUnixSecs (world : TrustWorld) (tsSecs : Nat) : Option String :=
  world.toRfc3339 (if tsSecs < 2 ^ 63 then tsSecs else (tsSecs : Int) - 2 ^ 64)

def timestampFromLogBlockTimestamp (world : TrustWorld) (log : RpcLog) : Option String := do
  let tsSecs ← logHexFieldU64 log.blockTimestamp
  if tsSecs = 0 then none else timestampFromUnixSecs world tsSecs

/-- The last eight of 32 bytes. -/
def u256ToUsize (bytes : Bytes) : Nat := fromBeBytes (bytes.drop 24)

def decodeImageProposedActivatesAt (world : TrustWorld) (dataHex : String) : Option String := do
  let bytes ← hexDecode (stripHexPrefix dataHex)
  if bytes.length < 64 then none
  else timestampFromUnixSecs world (u256ToUsize ((bytes.drop 32).take 32))

/-- The sums are exact: offsets and lengths near `2^64` do not occur in the logs of the
contract. -/
def decodeCommitHashFromLogData (dataHex : String) : Option String := do
  let bytes ← hexDecode (stripHexPrefix dataHex)
  if bytes.length < 96 then none
  else
    let offset := u256ToUsize (bytes.take 32)
    if bytes.length < offset + 64 then none
    else
      let strLen := u256ToUsize ((bytes.drop offset).take 32)
      if bytes.length < offset + 32 + strLen then none
      else fromUtf8 ((bytes.drop (offset + 32)).take strLen)

def compareHistoryOrderDesc (a b : HistoryOrderKey) : Ordering :=
  match a.blockNumber, b.blockNumber with
  | some aBlock, some bBlock =>
      (compare bBlock aBlock).then (compare (b.logIndex.getD 0) (a.logIndex.getD 0))
  | some _, none => .lt
  | none, some _ => .gt
  | none, none => compare (b.timestamp.getD "") (a.timestamp.getD "")

def maybeFetchTimestamp (world : TrustWorld) (blockHex : Option String) : Option String :=
  blockHex.bind world.fetchBlockTimestamp

def fetchCurrentBlockchainInfo (world : TrustWorld) (currentImageId : String) :
    Option BlockchainInfo :=
  let approved := (world.checkContractApproval currentImageId).getD false
  let proposed := (world.fetchEventLogs imageProposedTopic (some currentImageId)).head?
  let activated := (world.fetchEventLogs imageActivatedTopic (some currentImageId)).head?
  let proposeTx := proposed.bind RpcLog.transactionHash
  let activateTx := activated.bind RpcLog.transactionHash
  if proposeTx.isNone && activateTx.isNone && !approved then none
  else some {
    approved
    proposeTx
    proposeTimestamp := maybeFetchTimestamp world (proposed.bind RpcLog.blockNumber)
    activateTx
    activateTimestamp := maybeFetchTimestamp world (activated.bind RpcLog.blockNumber) }

structure ActivationEntry where
  tx : String
  block : Option String
  timestampHint : Option String
deriving DecidableEq

/-- The hash map from image ids; an insertion hides an older entry. -/
def activatedMap (world : TrustWorld) (activatedLogs : List RpcLog) :
    List (String × ActivationEntry) :=
  activatedLogs.foldl (fun map log =>
    match log.topic1, log.transactionHash with
    | some imageId, some tx =>
        (imageId, ⟨tx, log.blockNumber, timestampFromLogBlockTimestamp world log⟩) :: map
    | _, _ => map) []

structure OrderedHistoricalBuild where
  build : HistoricalBuild
  orderKey : HistoryOrderKey

/-- The build of an `ImageProposed` log. -/
def buildOf (world : TrustWorld) (currentImageId : String)
    (activated : List (String × ActivationEntry)) (log : RpcLog) (imageId : String) :
    OrderedHistoricalBuild :=
  let data := log.data.getD ""
  let activation := activated.lookup imageId
  let proposeTimestamp := (maybeFetchTimestamp world log.blockNumber).or
    ((timestampFromLogBlockTimestamp world log).or (decodeImageProposedActivatesAt world data))
  { build := {
      imageId
      commitHash := (decodeCommitHashFromLogData data).getD ""
      proposeTx := log.transactionHash.getD ""
      proposeTimestamp
      activateTx := activation.map ActivationEntry.tx
      activateTimestamp := (maybeFetchTimestamp world (activation.bind ActivationEntry.block)).or
        (activation.bind ActivationEntry.timestampHint)
      isCurrent := imageId == currentImageId }
    orderKey := {
      blockNumber := logHexFieldU64 log.blockNumber
      logIndex := logHexFieldU64 log.logIndex
      timestamp := proposeTimestamp } }

/-- A log that names no image is passed over. -/
def orderedBuild (world : TrustWorld) (currentImageId : String)
    (activated : List (String × ActivationEntry)) (log : RpcLog) : Option OrderedHistoricalBuild :=
  if log.topics.isNone then none
  else
    let imageId := log.topic1.getD ""
    if imageId.isEmpty then none
    else some (buildOf world currentImageId activated log imageId)

def eventsCacheTtl : Nat := 300

structure CachedEvents where
  fetchedAt : Nat
  builds : List HistoricalBuild

/-- `sort_by` with `compare_history_order_desc`. -/
def sortHistory (ordered : List OrderedHistoricalBuild) : List OrderedHistoricalBuild :=
  orderBy (fun a b => compareHistoryOrderDesc a.orderKey b.orderKey ≠ .gt) ordered

def buildsFromLogs (world : TrustWorld) (currentImageId : String) : List HistoricalBuild :=
  let activated := activatedMap world (world.fetchEventLogs imageActivatedTopic none)
  let ordered := (world.fetchEventLogs imageProposedTopic none).filterMap
    (orderedBuild world currentImageId activated)
  (sortHistory ordered).map OrderedHistoricalBuild.build

/-- `fetched_at.elapsed() < EVENTS_CACHE_TTL`, in seconds. -/
def CachedEvents.isFresh (cached : CachedEvents) (now : Nat) : Bool :=
  now - cached.fetchedAt < eventsCacheTtl

/-- The builds, and the cache that is left. -/
def getAllHistoricalBuilds (world : TrustWorld) (cache : Option CachedEvents) (now : Nat)
    (currentImageId : String) : List HistoricalBuild × Option CachedEvents :=
  match cache.filter (fun cached => cached.isFresh now) with
  | some cached => (cached.builds, cache)
  | none =>
      let builds := buildsFromLogs world currentImageId
      (builds, some ⟨now, builds⟩)

/-! ## What a node answers -/

/-- What a node puts into the logs of a transaction besides their place and topics. -/
structure Node where
  data : Transaction → String
  blockTimestamp : Transaction → Option String

def renderLog (node : Node) (topic : String) (t : Transaction) (index : Nat) (imageId : Bytes32) :
    RpcLog where
  topics := some [some topic, some (prefixedHex imageId.val)]
  transactionHash := some (prefixedHex t.hash.val)
  blockNumber := some (hexQuantity t.blockNumber)
  logIndex := some (hexQuantity (t.logIndex + index))
  blockTimestamp := node.blockTimestamp t
  data := some (node.data t)

/-- The two kinds of logs that are asked for; the other events have other topics. -/
def logsOf (node : Node) (e : Entry) : List RpcLog :=
  e.events.zipIdx.filterMap fun (event, index) =>
    match event with
    | .imageProposed imageId _ _ =>
        some (renderLog node imageProposedTopic e.transaction index imageId)
    | .imageActivated imageId =>
        some (renderLog node imageActivatedTopic e.transaction index imageId)
    | _ => none

def RpcLog.matches (topic : String) (imageIdTopic : Option String) (log : RpcLog) : Bool :=
  log.topics.any (fun topics => topics.head? == some (some topic)) &&
    imageIdTopic.all (fun id => log.topic1 == some id)

/-- `eth_getLogs`, complete and in the order of the chain. -/
def ethGetLogs (node : Node) (log : List Entry) (topic : String) (imageIdTopic : Option String) :
    List RpcLog :=
  (log.reverse.flatMap (logsOf node)).filter (RpcLog.matches topic imageIdTopic)

/-- The entries are at later and later places of the chain, and places are `u64`. -/
def InChainOrder (log : List Entry) : Prop :=
  log.Pairwise (fun newer older =>
    older.transaction.blockNumber < newer.transaction.blockNumber ∨
      older.transaction.blockNumber = newer.transaction.blockNumber ∧
        older.transaction.logIndex < newer.transaction.logIndex) ∧
  ∀ e ∈ log, e.transaction.blockNumber ≤ u64Max ∧ e.transaction.logIndex ≤ u64Max

end Lightfriend.Contract
