import Lightfriend.Purge.Api
import Mathlib.Data.String.Basic

/-! # The server room inventory

The inventory pages through the room list of the homeserver. Rooms may come or
go between two pages, so the totals and the offsets that the pages report need
not fit together; an inventory that cannot be trusted is refused as a whole.
-/

namespace Lightfriend.Purge

/-- `ServerRoomListResponse`; a `ServerRoomSummary` is its room id. -/
structure ServerRoomListResponse where
  rooms : List String
  offset : Nat
  totalRooms : Nat
  nextBatch : Option Nat
deriving DecidableEq

structure ServerRoomInventory where
  roomIds : List String
  totalRooms : Nat
  pages : Nat
deriving DecidableEq

/-- The JSON decoder of a page, and how a status and a string in quotes are displayed. -/
structure RoomListCodec where
  decodePage : String → Option ServerRoomListResponse
  displayStatus : Nat → String
  debugText : String → String

def checkRoomId (codec : RoomListCodec) (roomId : String) : Except String String :=
  if !startsWithChar '!' roomId || roomId.toList.any isControl then
    .error s!"Tuwunel server room census returned invalid room id {codec.debugText roomId}"
  else .ok roomId

def parseServerRoomListPage (codec : RoomListCodec) (body : String) :
    Except String ServerRoomListResponse :=
  match codec.decodePage body with
  | none => .error s!"invalid Tuwunel server room census JSON: {takeChars 500 body}"
  | some response => do
      let roomIds ← response.rooms.mapM (checkRoomId codec)
      .ok { response with rooms := roomIds }

/-- `trim_end_matches('/')`. -/
def trimEndSlashes (s : String) : String :=
  String.ofList (s.toList.reverse.dropWhile (· = '/')).reverse

def buildServerRoomsUrl (homeserverUrl : String) (offset limit : Nat) : String :=
  s!"{trimEndSlashes homeserverUrl}/_synapse/admin/v1/rooms?from={offset}&limit={limit}"

/-- The answer to a request, as far as its page. -/
def readServerRoomListPage (codec : RoomListCodec) (url : String) :
    HttpOutcome → Except String ServerRoomListResponse
  | .transportError _ => .error s!"Tuwunel server room census request failed for {url}"
  | .response _ (.error _) => .error "could not read Tuwunel server room census response"
  | .response status (.ok body) =>
      if isSuccess status then parseServerRoomListPage codec body
      else
        .error (s!"Tuwunel server room census returned {codec.displayStatus status}: " ++
          takeChars 2000 body)

structure InventoryState where
  offset : Nat
  seenOffsets : List Nat
  roomIds : List String
  totalRooms : Nat

def InventoryState.start : InventoryState := ⟨0, [0], [], 0⟩

/-- `room_ids.extend(page_rooms)`. -/
def extendRooms (roomIds pageRooms : List String) : List String :=
  pageRooms.foldl (fun roomIds roomId => roomIds.insert roomId) roomIds

/-- The end of the list. -/
def finishInventory (s : InventoryState) (pages : Nat) : Except String ServerRoomInventory :=
  let roomIds := s.roomIds.mergeSort (· ≤ ·)
  if roomIds.length ≠ s.totalRooms then
    .error (s!"Tuwunel server room census was incomplete: collected {roomIds.length} unique " ++
      s!"rooms but server reported {s.totalRooms}")
  else .ok { roomIds, totalRooms := s.totalRooms, pages }

/-- One page: the loop goes on from a state, or ends with an inventory. -/
def inventoryPage (s : InventoryState) (pageIndex : Nat) (page : ServerRoomListResponse) :
    Except String (InventoryState ⊕ ServerRoomInventory) :=
  if page.offset ≠ s.offset then
    .error s!"Tuwunel server room census offset mismatch: requested {s.offset} got {page.offset}"
  else
    let taken := { s with
      totalRooms := max s.totalRooms page.totalRooms
      roomIds := extendRooms s.roomIds page.rooms }
    match page.nextBatch with
    | none => (finishInventory taken (pageIndex + 1)).map .inr
    | some nextOffset =>
        if nextOffset ≤ s.offset ∨ nextOffset ∈ s.seenOffsets then
          .error s!"Tuwunel server room census returned invalid repeated offset {nextOffset}"
        else
          .ok (.inl { taken with
            offset := nextOffset
            seenOffsets := nextOffset :: s.seenOffsets })

section Loop

variable (codec : RoomListCodec) (homeserverUrl : String) (pageSize maxPages : Nat)
  (answers : Nat → HttpOutcome)

/-- The answer to the request for the page at the state's offset. -/
def requestPage (s : InventoryState) (pageIndex : Nat) : Except String ServerRoomListResponse :=
  readServerRoomListPage codec (buildServerRoomsUrl homeserverUrl s.offset pageSize)
    (answers pageIndex)

/-- The pages of `for page_index in 0..max_pages` that are left. -/
def inventoryLoop : Nat → Nat → InventoryState → Except String ServerRoomInventory
  | 0, _, _ =>
      .error s!"Tuwunel server room census exceeded {maxPages} pages before completion"
  | remaining + 1, pageIndex, s => do
      let page ← requestPage codec homeserverUrl pageSize answers s pageIndex
      match ← inventoryPage s pageIndex page with
      | .inl next => inventoryLoop remaining (pageIndex + 1) next
      | .inr inventory => .ok inventory

/-- `answers` are what the homeserver answers, request by request. -/
def fetchServerRoomInventory : Except String ServerRoomInventory :=
  inventoryLoop codec homeserverUrl pageSize maxPages answers maxPages 0 .start

/-- The offsets that the loop requests. -/
def requestedFrom : Nat → Nat → InventoryState → List Nat
  | 0, _, _ => []
  | remaining + 1, pageIndex, s =>
      s.offset ::
        match requestPage codec homeserverUrl pageSize answers s pageIndex >>=
          inventoryPage s pageIndex with
        | .ok (.inl next) => requestedFrom remaining (pageIndex + 1) next
        | _ => []

def requestedOffsets : List Nat :=
  requestedFrom codec homeserverUrl pageSize answers maxPages 0 .start

end Loop

/-! ## The census -/

/-- What the census gets from outside: the resolved admin room, the answers of the homeserver and
whether the two writes behind the inventory are carried out. -/
structure ServerCensusWorld where
  adminRoomId : Except String String
  answers : Nat → HttpOutcome
  recordRooms : Except String Unit
  recordScan : Except String Unit

structure ServerCensusConfig where
  adminUserId : Int
  homeserverUrl : String
  retentionSecs : Nat
  serverCensusPageSize : Nat
  serverCensusMaxPages : Nat

def serverCensusService : String := "server_all_rooms"

/-- `newly_queued`: the rows that the insertion added. -/
def runServerRoomCensus (codec : RoomListCodec) (config : ServerCensusConfig)
    (world : ServerCensusWorld) (now : Int) (t : RoomHistoryTable) :
    RoomHistoryTable × Except String (Nat × Nat) :=
  match world.adminRoomId with
  | .error e => (t, .error e)
  | .ok adminRoomId =>
  match fetchServerRoomInventory codec config.homeserverUrl config.serverCensusPageSize
      config.serverCensusMaxPages world.answers with
  | .error e => (t, .error e)
  | .ok inventory =>
      let discovered := inventory.roomIds.length
      let purgeRooms := inventory.roomIds.filter (fun roomId => roomId != adminRoomId)
      if discovered - purgeRooms.length ≠ 1 then
        (t, .error s!"Tuwunel room inventory did not contain the resolved admin room {adminRoomId}")
      else
        let cutoffTs := saturatingSub now (secsAsI32 config.retentionSecs)
        match world.recordRooms with
        | .error e => (t, .error e)
        | .ok _ =>
            let recorded := t.recordServerCensusRoomsOnce config.adminUserId serverCensusService
              purgeRooms cutoffTs now
            (recorded, do
              world.recordScan
              .ok (discovered, recorded.rows.length - t.rows.length))

/-! ## What one page does -/

theorem mem_extendRooms {roomIds pageRooms : List String} {roomId : String} :
    roomId ∈ extendRooms roomIds pageRooms ↔ roomId ∈ roomIds ∨ roomId ∈ pageRooms := by
  unfold extendRooms
  induction pageRooms generalizing roomIds with
  | nil => simp
  | cons head rest ih =>
      rw [List.foldl_cons, ih, List.mem_insert_iff, List.mem_cons]
      tauto

theorem extendRooms_nodup {roomIds : List String} (h : roomIds.Nodup) (pageRooms : List String) :
    (extendRooms roomIds pageRooms).Nodup := by
  unfold extendRooms
  induction pageRooms generalizing roomIds with
  | nil => exact h
  | cons head rest ih => exact ih (List.Nodup.insert h)

section Page

variable {s next : InventoryState} {pageIndex : Nat} {page : ServerRoomListResponse}
  {inventory : ServerRoomInventory}

theorem inventoryPage_next (h : inventoryPage s pageIndex page = .ok (.inl next)) :
    page.offset = s.offset ∧ page.nextBatch = some next.offset ∧ s.offset < next.offset ∧
      next.roomIds = extendRooms s.roomIds page.rooms ∧
        next.totalRooms = max s.totalRooms page.totalRooms := by
  unfold inventoryPage at h
  split at h
  · cases h
  next hoffset =>
    split at h
    next hnone =>
      unfold finishInventory at h
      simp only at h
      split at h <;> cases h
    next nextOffset hsome =>
      split at h
      · cases h
      next hnew =>
        push Not at hnew
        cases h
        exact ⟨not_not.mp hoffset, hsome, hnew.1, rfl, rfl⟩

theorem inventoryPage_last (h : inventoryPage s pageIndex page = .ok (.inr inventory)) :
    page.offset = s.offset ∧ page.nextBatch = none ∧
      inventory.roomIds.Perm (extendRooms s.roomIds page.rooms) ∧
        inventory.totalRooms = max s.totalRooms page.totalRooms ∧
          inventory.roomIds.length = inventory.totalRooms := by
  unfold inventoryPage at h
  split at h
  · cases h
  next hoffset =>
    split at h
    next hnone =>
      unfold finishInventory at h
      simp only at h
      split at h
      · cases h
      next hlength =>
        cases h
        exact ⟨not_not.mp hoffset, hnone, List.mergeSort_perm _ _, rfl, not_not.mp hlength⟩
    next nextOffset hsome =>
      split at h <;> cases h

end Page

/-! ## What the loop does -/

section Requests

variable {codec : RoomListCodec} {homeserverUrl : String} {pageSize maxPages : Nat}
  {answers : Nat → HttpOutcome}

theorem requestedFrom_length (remaining pageIndex : Nat) (s : InventoryState) :
    (requestedFrom codec homeserverUrl pageSize answers remaining pageIndex s).length ≤
      remaining := by
  induction remaining generalizing pageIndex s with
  | zero => exact Nat.le_refl 0
  | succ remaining ih =>
      rw [requestedFrom, List.length_cons]
      split
      next next hnext => exact Nat.succ_le_succ (ih (pageIndex + 1) next)
      next => simp

/-- Every request asks for a later offset than the one before it. -/
theorem requestedFrom_increasing (remaining pageIndex : Nat) (s : InventoryState) :
    (requestedFrom codec homeserverUrl pageSize answers remaining pageIndex s).Pairwise (· < ·) ∧
      ∀ offset ∈ requestedFrom codec homeserverUrl pageSize answers remaining pageIndex s,
        s.offset ≤ offset := by
  induction remaining generalizing pageIndex s with
  | zero => exact ⟨List.Pairwise.nil, fun offset h => nomatch h⟩
  | succ remaining ih =>
      rw [requestedFrom]
      split
      next next hnext =>
        obtain ⟨page, _, hpage⟩ := bind_eq_ok.mp hnext
        obtain ⟨_, _, hlater, _⟩ := inventoryPage_next hpage
        obtain ⟨hincreasing, hbelow⟩ := ih (pageIndex + 1) next
        constructor
        · exact List.pairwise_cons.mpr
            ⟨fun offset h => Nat.lt_of_lt_of_le hlater (hbelow offset h), hincreasing⟩
        · intro offset h
          rcases List.mem_cons.mp h with rfl | h
          · exact Nat.le_refl _
          · exact (Nat.le_of_lt hlater).trans (hbelow offset h)
      next =>
        refine ⟨List.pairwise_singleton _ _, ?_⟩
        intro offset h
        rw [List.mem_singleton.mp h]

/-- The pages behind an inventory that the loop returns from a state. -/
structure ListedFrom (s : InventoryState) (offsets : List Nat)
    (pages : List ServerRoomListResponse) (inventory : ServerRoomInventory) : Prop where
  distinct : s.roomIds.Nodup → inventory.roomIds.Nodup
  counted : inventory.roomIds.length = inventory.totalRooms
  largest : inventory.totalRooms =
    (pages.map ServerRoomListResponse.totalRooms).foldl max s.totalRooms
  rooms : ∀ roomId, roomId ∈ inventory.roomIds ↔
    roomId ∈ s.roomIds ∨ ∃ page ∈ pages, roomId ∈ page.rooms
  requested : pages.map ServerRoomListResponse.offset = offsets
  follows : pages.map ServerRoomListResponse.nextBatch = offsets.tail.map some ++ [none]

theorem ListedFrom.last {s : InventoryState} {pageIndex : Nat} {page : ServerRoomListResponse}
    {inventory : ServerRoomInventory}
    (h : inventoryPage s pageIndex page = .ok (.inr inventory)) :
    ListedFrom s [s.offset] [page] inventory := by
  obtain ⟨hoffset, hnone, hperm, htotal, hlength⟩ := inventoryPage_last h
  exact
    { distinct := fun hs => hperm.nodup_iff.mpr (extendRooms_nodup hs page.rooms)
      counted := hlength
      largest := htotal
      rooms := by
        intro roomId
        rw [hperm.mem_iff, mem_extendRooms]
        simp
      requested := by rw [List.map_singleton, hoffset]
      follows := by rw [List.map_singleton, hnone]; rfl }

theorem ListedFrom.cons {s next : InventoryState} {pageIndex : Nat}
    {page : ServerRoomListResponse} {offsets : List Nat} {pages : List ServerRoomListResponse}
    {inventory : ServerRoomInventory}
    (h : inventoryPage s pageIndex page = .ok (.inl next)) (hoffsets : offsets.head? = some next.offset)
    (hrest : ListedFrom next offsets pages inventory) :
    ListedFrom s (s.offset :: offsets) (page :: pages) inventory := by
  obtain ⟨hoffset, hbatch, _, hrooms, htotal⟩ := inventoryPage_next h
  exact
    { distinct := by
        intro hs
        apply hrest.distinct
        rw [hrooms]
        exact extendRooms_nodup hs page.rooms
      counted := hrest.counted
      largest := by rw [hrest.largest, List.map_cons, List.foldl_cons, htotal]
      rooms := by
        intro roomId
        rw [hrest.rooms, hrooms, mem_extendRooms]
        simp only [List.exists_mem_cons_iff]
        tauto
      requested := by rw [List.map_cons, hoffset, hrest.requested]
      follows := by
        rw [List.map_cons, hbatch, hrest.follows, List.tail_cons]
        cases offsets with
        | nil => cases hoffsets
        | cons first rest =>
            cases hoffsets
            rfl }

/-- A loop that returns an inventory has read a page for every request. -/
theorem inventoryLoop_ok {remaining pageIndex : Nat} {s : InventoryState}
    {inventory : ServerRoomInventory}
    (h : inventoryLoop codec homeserverUrl pageSize maxPages answers remaining pageIndex s =
      .ok inventory) :
    ∃ pages, ListedFrom s
        (requestedFrom codec homeserverUrl pageSize answers remaining pageIndex s) pages inventory ∧
      ∀ k page, pages[k]? = some page →
        readServerRoomListPage codec (buildServerRoomsUrl homeserverUrl page.offset pageSize)
          (answers (pageIndex + k)) = .ok page := by
  induction remaining generalizing pageIndex s with
  | zero => cases h
  | succ remaining ih =>
      rw [inventoryLoop] at h
      obtain ⟨page, hread, h⟩ := bind_eq_ok.mp h
      obtain ⟨outcome, hpage, h⟩ := bind_eq_ok.mp h
      rw [requestedFrom, hread]
      cases outcome with
      | inr result =>
          cases h
          have hlast := ListedFrom.last hpage
          refine ⟨[page], ?_, ?_⟩
          · change ListedFrom s (s.offset :: match inventoryPage s pageIndex page with
              | .ok (.inl next) => _
              | _ => []) [page] _
            rw [hpage]
            exact hlast
          · intro k other hk
            cases k with
            | zero =>
                cases hk
                rw [(inventoryPage_last hpage).1]
                exact hread
            | succ k => cases hk
      | inl next =>
          obtain ⟨pages, hlisted, hanswers⟩ := ih h
          have hfirst : (requestedFrom codec homeserverUrl pageSize answers remaining
              (pageIndex + 1) next).head? = some next.offset := by
            cases remaining with
            | zero => cases h
            | succ remaining => rfl
          refine ⟨page :: pages, ?_, ?_⟩
          · change ListedFrom s (s.offset :: match inventoryPage s pageIndex page with
              | .ok (.inl next) => _
              | _ => []) (page :: pages) inventory
            rw [hpage]
            exact ListedFrom.cons hpage hfirst hlisted
          · intro k other hk
            cases k with
            | zero =>
                cases hk
                rw [(inventoryPage_next hpage).1]
                exact hread
            | succ k =>
                rw [show pageIndex + (k + 1) = pageIndex + 1 + k by omega]
                exact hanswers k other hk

end Requests

/-! ## Complete or refused -/

/-- The room ids are all those that the pages list, each of them once, and as many as the page
with the largest total reports. -/
structure CompleteInventory (pages : List ServerRoomListResponse)
    (inventory : ServerRoomInventory) : Prop where
  distinct : inventory.roomIds.Nodup
  largest : (pages.map ServerRoomListResponse.totalRooms).max? = some inventory.roomIds.length
  rooms : ∀ roomId, roomId ∈ inventory.roomIds ↔ ∃ page ∈ pages, roomId ∈ page.rooms

/-- The inventory ends after at most the permitted number of requests, each at a later offset than
the one before. What it returns is complete; where it returns an error no row is queued. -/
theorem server_room_inventory_complete_or_refused (codec : RoomListCodec)
    (config : ServerCensusConfig) (answers : Nat → HttpOutcome) :
    let offsets := requestedOffsets codec config.homeserverUrl config.serverCensusPageSize
      config.serverCensusMaxPages answers
    let fetched := fetchServerRoomInventory codec config.homeserverUrl config.serverCensusPageSize
      config.serverCensusMaxPages answers
    offsets.length ≤ config.serverCensusMaxPages ∧ offsets.Pairwise (· < ·) ∧
    (∀ inventory, fetched = .ok inventory → ∃ pages : List ServerRoomListResponse,
      CompleteInventory pages inventory ∧
      (∀ k page, pages[k]? = some page →
        readServerRoomListPage codec
          (buildServerRoomsUrl config.homeserverUrl page.offset config.serverCensusPageSize)
          (answers k) = .ok page) ∧
      pages.map ServerRoomListResponse.offset = offsets ∧
      pages.map ServerRoomListResponse.nextBatch = offsets.tail.map some ++ [none]) ∧
    ∀ error, fetched = .error error → ∀ (world : ServerCensusWorld) (now : Int)
      (t : RoomHistoryTable), world.answers = answers →
        (runServerRoomCensus codec config world now t).1 = t ∧
          ∃ refusal, (runServerRoomCensus codec config world now t).2 = .error refusal := by
  intro offsets fetched
  refine ⟨requestedFrom_length _ _ _, (requestedFrom_increasing _ _ _).1, ?_, ?_⟩
  · intro inventory hok
    obtain ⟨pages, hlisted, hanswers⟩ := inventoryLoop_ok hok
    refine ⟨pages, ⟨hlisted.distinct List.nodup_nil, ?_, ?_⟩, ?_, hlisted.requested,
      hlisted.follows⟩
    · have hlargest := hlisted.largest
      have hfollows := hlisted.follows
      rw [hlisted.counted, hlargest]
      cases pages with
      | nil => simp at hfollows
      | cons page rest =>
          rw [List.map_cons, List.max?_cons', List.foldl_cons]
          congr 2
    · intro roomId
      simpa [InventoryState.start] using hlisted.rooms roomId
    · intro k page hk
      have hread := hanswers k page hk
      rwa [Nat.zero_add] at hread
  · rintro error herror world now t rfl
    unfold runServerRoomCensus
    split
    next e hadmin => exact ⟨rfl, e, rfl⟩
    next adminRoomId hadmin =>
      simp only [fetched] at herror
      rw [herror]
      exact ⟨rfl, error, rfl⟩

end Lightfriend.Purge
