import Lightfriend.Purge.Event
import Mathlib.Data.String.Basic

/-! # The audit of a room's history

Before history older than a boundary event is removed, the room is read
backwards page by page and every event that should have been taken in is looked
up in the database.
-/

namespace Lightfriend.Purge

/-- The members of an event that the audit reads, each where it is a string. -/
structure EventValue where
  eventId : Option String
  eventType : Option String
  hasStateKey : Bool
deriving DecidableEq

/-- An event that is no JSON value is the error of its decoder. -/
abbrev RawEvent := Except String EventValue

/-- `response.chunk` and `response.end`. -/
structure MessagesPage where
  chunk : List RawEvent
  «end» : Option String

inductive PageOutcome
  | timeout
  | failed (error : String)
  | page (response : MessagesPage)

structure TimelineEvent where
  eventId : String
  eventType : String
  isStateEvent : Bool
deriving DecidableEq

def readEvent : RawEvent → Except String TimelineEvent
  | .error error => .error s!"history_event_decode_failed={error}"
  | .ok event =>
      match event.eventId with
      | none => .error "history_event_missing_event_id"
      | some eventId =>
          match event.eventType with
          | none => .error s!"history_event_missing_type event_id={eventId}"
          | some eventType => .ok ⟨eventId, eventType, event.hasStateKey⟩

def historicalEventRequiresProof (eventType : String) (isStateEvent : Bool) : Bool :=
  if isStateEvent then false else !(eventType == "m.reaction" || eventType == "m.room.redaction")

/-! ## The scan -/

/-- What the events of the pages so far have shown. -/
structure ScanFlags where
  proofEventIds : List String
  boundaryFound : Bool
  roomCreateFound : Bool
  scannedEvents : Nat

def ScanFlags.start : ScanFlags := ⟨[], false, false, 0⟩

def observe (boundary : String) (s : ScanFlags) (event : TimelineEvent) : ScanFlags :=
  if !s.boundaryFound then
    { s with boundaryFound := event.eventId == boundary }
  else
    { s with
      scannedEvents := min (s.scannedEvents + 1) u64Max
      roomCreateFound :=
        s.roomCreateFound || (event.eventType == "m.room.create" && event.isStateEvent)
      proofEventIds :=
        if historicalEventRequiresProof event.eventType event.isStateEvent then
          s.proofEventIds.insert event.eventId
        else s.proofEventIds }

def scanEvent (boundary : String) (s : ScanFlags) (raw : RawEvent) : Except String ScanFlags := do
  let event ← readEvent raw
  .ok (observe boundary s event)

structure AuditScan where
  flags : ScanFlags
  seenTokens : List String
  reachedStart : Bool
  pages : Nat

def AuditScan.start : AuditScan := ⟨.start, [], false, 0⟩

structure BackfillAuditConfig where
  maxPages : Nat
  pageSize : Nat

/-- `UInt::new` accepts what a JSON number can hold. -/
def requestMessages (config : BackfillAuditConfig) (outcome : PageOutcome) :
    Except String MessagesPage :=
  if 9007199254740991 < config.pageSize then .error "invalid_history_page_size"
  else
    match outcome with
    | .timeout => .error "history_page_timeout"
    | .failed error => .error s!"history_page_failed={error}"
    | .page response => .ok response

section Loop

variable (config : BackfillAuditConfig) (boundary : String) (answers : Nat → PageOutcome)

/-- The rounds of `for _ in 0..max_pages` that are left; `from` is the newest seen token. -/
def auditLoop : Nat → AuditScan → Except String AuditScan
  | 0, s => .ok s
  | remaining + 1, s => do
      let response ← requestMessages config (answers s.pages)
      let counted := { s with pages := s.pages + 1 }
      if response.chunk.isEmpty then .ok { counted with reachedStart := true }
      else do
        let flags ← response.chunk.foldlM (scanEvent boundary) s.flags
        match response.end with
        | none => .ok { counted with flags, reachedStart := true }
        | some nextToken =>
            if nextToken ∈ s.seenTokens then .error "history_pagination_token_repeated"
            else
              auditLoop remaining
                { counted with flags, seenTokens := nextToken :: s.seenTokens }

end Loop

/-! ## The verdict -/

/-- The rows of the two tables that are looked up. -/
structure ProofTables where
  messages : List OntMessage
  events : List CleanupEvent

def ProofTables.unproven (tables : ProofTables) (eventIds : List String) : List String :=
  let ontologyProof := (tables.messages.filter (fun m =>
    m.matrixEventId.any eventIds.contains)).filterMap OntMessage.matrixEventId
  let cleanupProof := (tables.events.filter (fun e => eventIds.contains e.eventId &&
    (decide (0 < e.ontologyMessageId) ||
      e.lastCommandKind == some "intentional_discard"))).map CleanupEvent.eventId
  eventIds.filter (fun eventId =>
    !ontologyProof.contains eventId && !cleanupProof.contains eventId)

/-- `tables` may also be the error of a query. -/
def unprovenEventIds (tables : Except String ProofTables) (eventIds : List String) :
    Except String (List String) :=
  if eventIds.isEmpty then .ok [] else tables.map (fun t => t.unproven eventIds)

structure HistoricalBackfillAudit where
  verified : Bool
  summary : String
deriving DecidableEq

def judge (config : BackfillAuditConfig) (tables : Except String ProofTables) (scan : AuditScan) :
    Except String HistoricalBackfillAudit :=
  let pages := scan.pages
  let scannedEvents := scan.flags.scannedEvents
  if !scan.flags.boundaryFound then .ok ⟨false, s!"boundary_not_found pages={pages}"⟩
  else if !scan.reachedStart then
    .ok ⟨false, s!"history_scan_limit_reached pages={pages} max_pages={config.maxPages}"⟩
  else if !scan.flags.roomCreateFound then
    .ok ⟨false, s!"room_creation_not_visible pages={pages} scanned_events={scannedEvents}"⟩
  else do
    let proofEventIds := scan.flags.proofEventIds.mergeSort (· ≤ ·)
    let unproven ← unprovenEventIds tables proofEventIds
    if !unproven.isEmpty then
      let sample := ",".intercalate (unproven.take 5)
      .ok ⟨false, s!"unproven_payload_events={unproven.length} " ++
        s!"proof_required={proofEventIds.length} pages={pages} scanned_events={scannedEvents} " ++
        s!"sample_event_ids={sample}"⟩
    else
      .ok ⟨true, s!"verified_full_history proof_events={proofEventIds.length} pages={pages} " ++
        s!"scanned_events={scannedEvents}"⟩

/-- `answers` are what the homeserver answers, request by request, once the room is open. -/
def auditHistoricalBackfillCandidate (config : BackfillAuditConfig) (boundary : String)
    (room : Except String Unit) (answers : Nat → PageOutcome)
    (tables : Except String ProofTables) : Except String HistoricalBackfillAudit := do
  room
  let scan ← auditLoop config boundary answers config.maxPages .start
  judge config tables scan

/-! ## What the audit is about -/

/-- The events behind the boundary, newest first. -/
def olderThan (boundary : String) (events : List TimelineEvent) : List TimelineEvent :=
  (events.dropWhile (fun event => event.eventId != boundary)).tail

/-- A message row of the event, or a queue row with a message or a decision to discard it. -/
def ProvenIngested (tables : ProofTables) (eventId : String) : Prop :=
  (∃ m ∈ tables.messages, m.matrixEventId = some eventId) ∨
    ∃ e ∈ tables.events, e.eventId = eventId ∧
      (0 < e.ontologyMessageId ∨ e.lastCommandKind = some "intentional_discard")

structure RoomVerified (tables : ProofTables) (boundary : String)
    (events : List TimelineEvent) : Prop where
  reached : ∃ event ∈ events, event.eventId = boundary
  created : ∃ event ∈ olderThan boundary events,
    event.eventType = "m.room.create" ∧ event.isStateEvent
  ingested : ∀ event ∈ olderThan boundary events, ¬ event.isStateEvent →
    event.eventType ≠ "m.reaction" → event.eventType ≠ "m.room.redaction" →
      ProvenIngested tables event.eventId

/-- The pages in which a homeserver hands out a timeline: the last one has no token for a next
one, or is empty. -/
inductive Split : List MessagesPage → List RawEvent → Prop
  | empty (next : Option String) : Split [⟨[], next⟩] []
  | last {chunk : List RawEvent} (hchunk : chunk ≠ []) : Split [⟨chunk, none⟩] chunk
  | more {chunk : List RawEvent} {pages : List MessagesPage} {timeline : List RawEvent}
      (token : String) (hchunk : chunk ≠ []) (hrest : Split pages timeline) :
      Split (⟨chunk, some token⟩ :: pages) (chunk ++ timeline)

/-- The tokens that lead from one page to the next. -/
def pageTokens (pages : List MessagesPage) : List String :=
  (pages.filter (fun page => !page.chunk.isEmpty)).filterMap MessagesPage.end

/-- The homeserver answers the requests with these pages, from some request on. -/
def Follows (answers : Nat → PageOutcome) (first : Nat) (pages : List MessagesPage) : Prop :=
  ∀ k page, pages[k]? = some page → answers (first + k) = .page page

theorem Follows.head {answers : Nat → PageOutcome} {first : Nat} {page : MessagesPage}
    {pages : List MessagesPage} (h : Follows answers first (page :: pages)) :
    answers first = .page page :=
  h 0 page rfl

theorem Follows.tail {answers : Nat → PageOutcome} {first : Nat} {page : MessagesPage}
    {pages : List MessagesPage} (h : Follows answers first (page :: pages)) :
    Follows answers (first + 1) pages := by
  intro k other hk
  rw [show first + 1 + k = first + (k + 1) by omega]
  exact h (k + 1) other hk

/-! ## What the events show -/

theorem foldlM_scanEvent (boundary : String) (chunk : List RawEvent) (s : ScanFlags) :
    chunk.foldlM (scanEvent boundary) s =
      (chunk.mapM readEvent).map (fun events => events.foldl (observe boundary) s) := by
  induction chunk generalizing s with
  | nil => rfl
  | cons raw rest ih =>
      rw [List.foldlM_cons, List.mapM_cons, scanEvent]
      cases readEvent raw with
      | error e => rfl
      | ok event =>
          change rest.foldlM (scanEvent boundary) (observe boundary s event) = _
          rw [ih]
          cases hrest : rest.mapM readEvent with
          | error e => simp [bind, Except.bind, Except.map]
          | ok events => simp [bind, Except.bind, Except.map, pure, Except.pure]

section Observed

variable {boundary : String} {s : ScanFlags}

/-- Behind the boundary every event counts. -/
theorem foldl_observe_of_found (hfound : s.boundaryFound) (events : List TimelineEvent) :
    let last := events.foldl (observe boundary) s
    last.boundaryFound = true ∧
      (last.roomCreateFound ↔ s.roomCreateFound ∨ ∃ event ∈ events,
        event.eventType = "m.room.create" ∧ event.isStateEvent) ∧
      ∀ eventId, eventId ∈ last.proofEventIds ↔ eventId ∈ s.proofEventIds ∨ ∃ event ∈ events,
        historicalEventRequiresProof event.eventType event.isStateEvent ∧
          event.eventId = eventId := by
  induction events generalizing s with
  | nil => simp [hfound]
  | cons event rest ih =>
      have hstep : observe boundary s event =
          { s with
            scannedEvents := min (s.scannedEvents + 1) u64Max
            roomCreateFound :=
              s.roomCreateFound || (event.eventType == "m.room.create" && event.isStateEvent)
            proofEventIds :=
              if historicalEventRequiresProof event.eventType event.isStateEvent then
                s.proofEventIds.insert event.eventId
              else s.proofEventIds } := by
        simp [observe, hfound]
      obtain ⟨hboundary, hcreate, hproof⟩ := @ih (observe boundary s event) (by rw [hstep]; exact hfound)
      refine ⟨hboundary, ?_, ?_⟩
      · rw [List.foldl_cons, hcreate, hstep]
        simp only [Bool.or_eq_true, Bool.and_eq_true, beq_iff_eq, List.exists_mem_cons_iff]
        tauto
      · intro eventId
        rw [List.foldl_cons, hproof, hstep]
        simp only [List.exists_mem_cons_iff]
        by_cases hrequires : historicalEventRequiresProof event.eventType event.isStateEvent
        · simp only [hrequires, if_true, List.mem_insert_iff, true_and]
          rw [eq_comm (a := eventId)]
          tauto
        · simp [hrequires]

/-- Up to the boundary no event counts. -/
theorem foldl_observe (hfound : s.boundaryFound = false) (events : List TimelineEvent) :
    events.foldl (observe boundary) s =
      if ∃ event ∈ events, event.eventId = boundary then
        (olderThan boundary events).foldl (observe boundary) { s with boundaryFound := true }
      else s := by
  induction events with
  | nil => simp
  | cons event rest ih =>
      have hstep : observe boundary s event =
          { s with boundaryFound := event.eventId == boundary } := by
        simp [observe, hfound]
      rw [List.foldl_cons, hstep]
      by_cases hid : event.eventId = boundary
      · rw [if_pos ⟨event, List.mem_cons_self, hid⟩]
        simp [olderThan, hid]
      · have hsame : { s with boundaryFound := event.eventId == boundary } = s := by
          rw [beq_eq_false_iff_ne.mpr hid, ← hfound]
        rw [hsame, ih]
        simp [olderThan, hid]

/-- What the scan of a timeline has found. -/
theorem foldl_observe_start (boundary : String) (events : List TimelineEvent) :
    let last := events.foldl (observe boundary) .start
    (last.boundaryFound ↔ ∃ event ∈ events, event.eventId = boundary) ∧
      (last.boundaryFound →
        (last.roomCreateFound ↔ ∃ event ∈ olderThan boundary events,
          event.eventType = "m.room.create" ∧ event.isStateEvent) ∧
        ∀ eventId, eventId ∈ last.proofEventIds ↔ ∃ event ∈ olderThan boundary events,
          historicalEventRequiresProof event.eventType event.isStateEvent ∧
            event.eventId = eventId) := by
  intro last
  have hlast : last = _ := foldl_observe (s := .start) rfl events
  by_cases hboundary : ∃ event ∈ events, event.eventId = boundary
  · rw [if_pos hboundary] at hlast
    obtain ⟨hfound, hcreate, hproof⟩ := @foldl_observe_of_found boundary
      { ScanFlags.start with boundaryFound := true } rfl (olderThan boundary events)
    rw [← hlast] at hfound hcreate hproof
    refine ⟨iff_of_true hfound hboundary, fun _ => ⟨?_, ?_⟩⟩
    · simpa [ScanFlags.start] using hcreate
    · intro eventId
      simpa [ScanFlags.start] using hproof eventId
  · rw [if_neg hboundary] at hlast
    rw [hlast]
    exact ⟨iff_of_false (by simp [ScanFlags.start]) hboundary, fun h => nomatch h⟩

end Observed

/-! ## What the loop does -/

section Pages

variable {config : BackfillAuditConfig} {boundary : String} {answers : Nat → PageOutcome}

theorem requestMessages_page {response : MessagesPage} (hsize : config.pageSize ≤ 9007199254740991) :
    requestMessages config (.page response) = .ok response :=
  if_neg (not_lt.mpr hsize)

theorem requestMessages_oversized (hsize : 9007199254740991 < config.pageSize)
    (outcome : PageOutcome) :
    requestMessages config outcome = .error "invalid_history_page_size" :=
  if_pos hsize

/-- One round, on a page with events. -/
theorem auditLoop_succ {page : MessagesPage} {remaining : Nat} {s : AuditScan}
    (hsize : config.pageSize ≤ 9007199254740991) (hpage : answers s.pages = .page page)
    (hchunk : page.chunk ≠ []) :
    auditLoop config boundary answers (remaining + 1) s =
      (page.chunk.mapM readEvent).bind fun events =>
        let flags := events.foldl (observe boundary) s.flags
        match page.end with
        | none => .ok { s with flags, reachedStart := true, pages := s.pages + 1 }
        | some nextToken =>
            if nextToken ∈ s.seenTokens then .error "history_pagination_token_repeated"
            else
              auditLoop config boundary answers remaining
                { s with flags, seenTokens := nextToken :: s.seenTokens, pages := s.pages + 1 } := by
  rw [auditLoop, hpage, requestMessages_page hsize]
  simp only [bind, Except.bind, List.isEmpty_eq_false_iff.mpr hchunk, Bool.false_eq_true, if_false]
  rw [foldlM_scanEvent]
  cases page.chunk.mapM readEvent <;> rfl

theorem auditLoop_empty {next : Option String} {remaining : Nat} {s : AuditScan}
    (hsize : config.pageSize ≤ 9007199254740991) (hpage : answers s.pages = .page ⟨[], next⟩) :
    auditLoop config boundary answers (remaining + 1) s =
      .ok { s with reachedStart := true, pages := s.pages + 1 } := by
  rw [auditLoop, hpage, requestMessages_page hsize]
  rfl

theorem pageTokens_more {chunk : List RawEvent} {token : String} {pages : List MessagesPage}
    (hchunk : chunk ≠ []) :
    pageTokens (⟨chunk, some token⟩ :: pages) = token :: pageTokens pages := by
  have hempty : chunk.isEmpty = false := List.isEmpty_eq_false_iff.mpr hchunk
  simp [pageTokens, hempty]

theorem mapM_append_readEvent (xs ys : List RawEvent) :
    (xs ++ ys).mapM readEvent =
      (xs.mapM readEvent).bind fun first => (ys.mapM readEvent).map (first ++ ·) := by
  rw [List.mapM_append]
  cases xs.mapM readEvent with
  | error e => rfl
  | ok first => cases ys.mapM readEvent <;> rfl

/-- A scan that may read all pages of a split sees its timeline, whatever the pages are. -/
theorem auditLoop_split {pages : List MessagesPage} {timeline : List RawEvent}
    (hsplit : Split pages timeline) (hsize : config.pageSize ≤ 9007199254740991)
    {remaining : Nat} {s : AuditScan} (hremaining : pages.length ≤ remaining)
    (hanswers : Follows answers s.pages pages)
    (htokens : (pageTokens pages).Nodup) (hseen : ∀ token ∈ pageTokens pages, token ∉ s.seenTokens) :
    (auditLoop config boundary answers remaining s).map
        (fun scan => (scan.flags, scan.reachedStart)) =
      (timeline.mapM readEvent).map fun events =>
        (events.foldl (observe boundary) s.flags, true) := by
  induction hsplit generalizing remaining s with
  | empty next =>
      obtain ⟨remaining, rfl⟩ := Nat.exists_eq_add_of_le' hremaining
      rw [List.length_singleton, auditLoop_empty hsize hanswers.head]
      rfl
  | last hchunk =>
      obtain ⟨remaining, rfl⟩ := Nat.exists_eq_add_of_le' hremaining
      rw [List.length_singleton, auditLoop_succ hsize hanswers.head hchunk]
      cases List.mapM readEvent _ <;> rfl
  | more token hchunk hrest ih =>
      rw [pageTokens_more hchunk] at htokens hseen
      obtain ⟨remaining, rfl⟩ : ∃ n, remaining = n + 1 := by
        cases remaining with
        | zero => simp at hremaining
        | succ n => exact ⟨n, rfl⟩
      rw [List.length_cons] at hremaining
      rw [auditLoop_succ hsize hanswers.head hchunk, mapM_append_readEvent]
      cases List.mapM readEvent _ with
      | error e => rfl
      | ok first =>
          simp only [Except.bind, if_neg (hseen token List.mem_cons_self)]
          rw [ih (Nat.le_of_succ_le_succ hremaining) hanswers.tail htokens.of_cons]
          · cases List.mapM readEvent _ with
            | error e => rfl
            | ok events => simp [Except.map]
          · intro other hother
            rw [List.mem_cons, not_or]
            exact ⟨fun h => (List.nodup_cons.mp htokens).1 (h ▸ hother),
              hseen other (List.mem_cons_of_mem _ hother)⟩

/-- A scan that ends before the pages do has not reached the start. -/
theorem auditLoop_limit {pages : List MessagesPage} {timeline : List RawEvent}
    (hsplit : Split pages timeline) {remaining : Nat} {s scan : AuditScan}
    (hremaining : remaining < pages.length) (hanswers : Follows answers s.pages pages)
    (hstart : s.reachedStart = false)
    (h : auditLoop config boundary answers remaining s = .ok scan) : scan.reachedStart = false := by
  induction hsplit generalizing remaining s with
  | empty next =>
      cases Nat.lt_one_iff.mp hremaining
      cases h
      exact hstart
  | last hchunk =>
      cases Nat.lt_one_iff.mp hremaining
      cases h
      exact hstart
  | more token hchunk hrest ih =>
      cases remaining with
      | zero =>
          cases h
          exact hstart
      | succ remaining =>
          have hsize : config.pageSize ≤ 9007199254740991 := by
            by_contra hlarge
            rw [auditLoop, requestMessages_oversized (not_le.mp hlarge)] at h
            cases h
          rw [auditLoop_succ hsize hanswers.head hchunk] at h
          obtain ⟨events, _, h⟩ := bind_eq_ok.mp h
          simp only at h
          split at h
          · cases h
          · refine ih (Nat.lt_of_succ_lt_succ hremaining) ?_ ?_ h
            · exact hanswers.tail
            · exact hstart

/-- A token that comes a second time ends the scan with an error. -/
theorem auditLoop_repeated {pages : List MessagesPage}
    (hpages : ∀ page ∈ pages, page.chunk ≠ [] ∧ page.end ≠ none) {remaining : Nat} {s : AuditScan}
    (hremaining : pages.length ≤ remaining) (hanswers : Follows answers s.pages pages)
    (hrepeated : ¬ (s.seenTokens.reverse ++ pages.filterMap MessagesPage.end).Nodup)
    (hseen : s.seenTokens.Nodup) :
    ∃ error, auditLoop config boundary answers remaining s = .error error := by
  induction pages generalizing remaining s with
  | nil =>
      rw [List.filterMap_nil, List.append_nil, List.nodup_reverse] at hrepeated
      exact absurd hseen hrepeated
  | cons page rest ih =>
      obtain ⟨hchunk, hend⟩ := hpages page List.mem_cons_self
      obtain ⟨token, htoken⟩ := Option.ne_none_iff_exists'.mp hend
      obtain ⟨remaining, rfl⟩ : ∃ n, remaining = n + 1 := by
        cases remaining with
        | zero => simp at hremaining
        | succ n => exact ⟨n, rfl⟩
      rw [List.length_cons] at hremaining
      rcases le_or_gt config.pageSize 9007199254740991 with hsize | hsize
      · rw [auditLoop_succ hsize hanswers.head hchunk, htoken]
        cases List.mapM readEvent _ with
        | error e => exact ⟨e, rfl⟩
        | ok events =>
            simp only [Except.bind]
            split
            · exact ⟨_, rfl⟩
            next hnew =>
              apply ih (fun other hother => hpages other (List.mem_cons_of_mem _ hother))
                (Nat.le_of_succ_le_succ hremaining) hanswers.tail
              · rw [List.reverse_cons, List.append_assoc]
                rwa [List.filterMap_cons_some htoken] at hrepeated
              · exact List.nodup_cons.mpr ⟨hnew, hseen⟩
      · rw [auditLoop, requestMessages_oversized hsize]
        exact ⟨_, rfl⟩

/-- The scan reads no more than the permitted number of answers. -/
theorem auditLoop_congr {answers' : Nat → PageOutcome} {remaining : Nat} {s : AuditScan}
    (h : ∀ k, s.pages ≤ k → k < s.pages + remaining → answers k = answers' k) :
    auditLoop config boundary answers remaining s =
      auditLoop config boundary answers' remaining s := by
  induction remaining generalizing s with
  | zero => rfl
  | succ remaining ih =>
      have hrest : ∀ next : AuditScan, next.pages = s.pages + 1 →
          auditLoop config boundary answers remaining next =
            auditLoop config boundary answers' remaining next := by
        intro next hnext
        apply ih
        intro k hk hlt
        exact h k (by omega) (by omega)
      rw [auditLoop, auditLoop, h s.pages (Nat.le_refl _) (by omega)]
      congr 1
      funext response
      split
      · rfl
      · dsimp only
        congr 1
        funext flags
        split
        · rfl
        · split
          · rfl
          · exact hrest _ rfl

end Pages

/-! ## The verdict of a scan -/

theorem mem_unproven {tables : ProofTables} {eventIds : List String} {eventId : String} :
    eventId ∈ tables.unproven eventIds ↔ eventId ∈ eventIds ∧ ¬ ProvenIngested tables eventId := by
  unfold ProofTables.unproven
  rw [List.mem_filter, and_congr_right_iff]
  intro hid
  have hmessage : eventId ∈ (tables.messages.filter (fun m =>
      m.matrixEventId.any eventIds.contains)).filterMap OntMessage.matrixEventId ↔
        ∃ m ∈ tables.messages, m.matrixEventId = some eventId := by
    simp only [List.mem_filterMap, List.mem_filter]
    constructor
    · rintro ⟨m, ⟨hm, _⟩, hmatrix⟩
      exact ⟨m, hm, hmatrix⟩
    · rintro ⟨m, hm, hmatrix⟩
      exact ⟨m, ⟨hm, by simp [hmatrix, hid]⟩, hmatrix⟩
  have hevent : eventId ∈ (tables.events.filter (fun e => eventIds.contains e.eventId &&
      (decide (0 < e.ontologyMessageId) ||
        e.lastCommandKind == some "intentional_discard"))).map CleanupEvent.eventId ↔
      ∃ e ∈ tables.events, e.eventId = eventId ∧
        (0 < e.ontologyMessageId ∨ e.lastCommandKind = some "intentional_discard") := by
    simp only [List.mem_map, List.mem_filter, Bool.and_eq_true, Bool.or_eq_true,
      decide_eq_true_eq, beq_iff_eq, List.contains_iff_mem]
    constructor
    · rintro ⟨e, ⟨he, _, hproof⟩, heq⟩
      exact ⟨e, he, heq, hproof⟩
    · rintro ⟨e, he, heq, hproof⟩
      exact ⟨e, ⟨he, heq ▸ hid, hproof⟩, heq⟩
  rw [ProvenIngested, not_or, ← hmessage, ← hevent]
  simp

theorem unprovenEventIds_ok (tables : ProofTables) (eventIds : List String) :
    unprovenEventIds (.ok tables) eventIds = .ok (tables.unproven eventIds) := by
  unfold unprovenEventIds
  split
  next hempty =>
    rw [List.isEmpty_iff.mp hempty]
    rfl
  next => rfl

theorem judge_verified {config : BackfillAuditConfig} {tables : ProofTables} {scan : AuditScan} :
    (∃ summary, judge config (.ok tables) scan = .ok ⟨true, summary⟩) ↔
      scan.flags.boundaryFound ∧ scan.reachedStart ∧ scan.flags.roomCreateFound ∧
        ∀ eventId ∈ scan.flags.proofEventIds, ProvenIngested tables eventId := by
  have hids : (∀ eventId ∈ scan.flags.proofEventIds, ProvenIngested tables eventId) ↔
      tables.unproven (scan.flags.proofEventIds.mergeSort (· ≤ ·)) = [] := by
    rw [List.eq_nil_iff_forall_not_mem]
    apply forall_congr'
    intro eventId
    rw [mem_unproven, List.mem_mergeSort, not_and, not_not]
  unfold judge
  simp only [unprovenEventIds_ok]
  rw [hids]
  cases scan.flags.boundaryFound with
  | false => simp
  | true =>
      cases scan.reachedStart with
      | false => simp
      | true =>
          cases scan.flags.roomCreateFound with
          | false => simp
          | true =>
              cases tables.unproven (scan.flags.proofEventIds.mergeSort (· ≤ ·)) with
              | nil => simp [bind, Except.bind]
              | cons first rest => simp [bind, Except.bind]

/-! ## Sound and complete -/

theorem historicalEventRequiresProof_iff {eventType : String} {isStateEvent : Bool} :
    historicalEventRequiresProof eventType isStateEvent ↔
      ¬ isStateEvent ∧ eventType ≠ "m.reaction" ∧ eventType ≠ "m.room.redaction" := by
  unfold historicalEventRequiresProof
  cases isStateEvent <;> simp

theorem roomVerified_iff {tables : ProofTables} {boundary : String} {events : List TimelineEvent} :
    let last := events.foldl (observe boundary) .start
    RoomVerified tables boundary events ↔
      last.boundaryFound ∧ last.roomCreateFound ∧
        ∀ eventId ∈ last.proofEventIds, ProvenIngested tables eventId := by
  intro last
  obtain ⟨hfound, hshown⟩ := foldl_observe_start boundary events
  constructor
  · intro h
    have hlast := hfound.mpr h.reached
    obtain ⟨hcreate, hproof⟩ := hshown hlast
    refine ⟨hlast, hcreate.mpr h.created, ?_⟩
    intro eventId hid
    obtain ⟨event, hevent, hrequires, rfl⟩ := (hproof eventId).mp hid
    obtain ⟨hstate, hreaction, hredaction⟩ := historicalEventRequiresProof_iff.1 hrequires
    exact h.ingested event hevent hstate hreaction hredaction
  · rintro ⟨hlast, hroom, hproven⟩
    obtain ⟨hcreate, hproof⟩ := hshown hlast
    refine ⟨hfound.mp hlast, hcreate.mp hroom, ?_⟩
    intro event hevent hstate hreaction hredaction
    exact hproven _ ((hproof _).mpr ⟨event, hevent,
      historicalEventRequiresProof_iff.2 ⟨hstate, hreaction, hredaction⟩, rfl⟩)

/-- The configuration admits the pages: their size, and their number. -/
def Admits (config : BackfillAuditConfig) (pages : List MessagesPage) : Prop :=
  config.pageSize ≤ 9007199254740991 ∧ pages.length ≤ config.maxPages

def limitedBoundary : TimelineEvent := ⟨"$boundary", "m.room.message", false⟩

def limitedCreate : TimelineEvent := ⟨"$create", "m.room.create", true⟩

def rawOf (event : TimelineEvent) : RawEvent :=
  .ok ⟨some event.eventId, some event.eventType, event.isStateEvent⟩

def limitedPages : List MessagesPage :=
  [⟨[rawOf limitedBoundary], some "t1"⟩, ⟨[rawOf limitedCreate], none⟩]

def limitedAnswers (k : Nat) : PageOutcome :=
  match limitedPages[k]? with
  | some page => .page page
  | none => .timeout

end Lightfriend.Purge
