import Lightfriend.Core.JsonValue
import Lightfriend.Core.Saturation
import Lightfriend.Core.Sort
import Lightfriend.Core.Split
import Lightfriend.Core.Trim
import Mathlib.Data.Char
import Mathlib.Data.List.Lex
import Mathlib.Data.Prod.Lex

/-! # The database-files report

The diagnostics worker asks the chat server for its storage table, and reads the
answer out of the admin room: the replies of the server that answer the command,
directly or through one another, are put together in their order, and the first
table with a row in them is the report.
-/

namespace Lightfriend.Diagnostics

open Text

/-! ## Reply events -/

/-- `Value::as_u64`. -/
def asU64 : JsonValue → Option Nat
  | .int n => if 0 ≤ n ∧ n < 18446744073709551616 then some n.toNat else none
  | _ => none

structure ReplyEvent where
  eventId : List Char
  originServerTs : Nat
  body : List Char
  relationTarget : List Char
deriving DecidableEq

/-- The event that a reply answers, or else the root of its thread. -/
def relationTarget (relatesTo : JsonValue) : Option (List Char) :=
  ((relatesTo.get "m.in_reply_to").bind (·.getString "event_id")).or
    (if relatesTo.getString "rel_type" = some "m.thread".toList then
      relatesTo.getString "event_id"
    else none)

def parseReplyEvent (serverUser : List Char) (event : JsonValue) : Option ReplyEvent := do
  let type ← event.getString "type"
  guard (type = "m.room.message".toList)
  let sender ← event.getString "sender"
  guard (sender = serverUser)
  let content ← event.get "content"
  let msgtype ← content.getString "msgtype"
  guard (msgtype = "m.notice".toList ∨ msgtype = "m.text".toList)
  let relatesTo ← content.get "m.relates_to"
  let target ← relationTarget relatesTo
  let eventId ← event.getString "event_id"
  let originServerTs ← (event.get "origin_server_ts").bind asU64
  let body ← content.getString "body"
  some ⟨eventId, originServerTs, body, target⟩

/-- `replies.entry(event_id).or_insert(reply)` for every event. -/
def repliesOf (serverUser : List Char) (events : List JsonValue) : List ReplyEvent :=
  firstPerGroup ReplyEvent.eventId (events.filterMap (parseReplyEvent serverUser))

/-- The segments of a report are put in the order of their time stamps, then of their ids. -/
def sortKey (reply : ReplyEvent) : Nat ×ₗ List Char :=
  toLex (reply.originServerTs, reply.eventId)

/-! ## The table -/

/-- `str::trim_matches`. -/
def trimMatches (c : Char) (text : List Char) : List Char :=
  trimEndMatches (fun d => d = c) (text.dropWhile (fun d => d = c))

def markdownFields (line : List Char) : List (List Char) :=
  ((trimMatches '|' (trimText line)).splitOn '|').map trimText

/-- `parse` of an unsigned number that is less than `bound`. -/
def parseUnsigned (bound : Nat) (text : List Char) : Option Nat :=
  let digits := if text.head? = some '+' then text.tail else text
  let value := digits.foldl (fun n c => n * 10 + (c.toNat - '0'.toNat)) 0
  if digits ≠ [] ∧ digits.all Char.isDigit ∧ value < bound then some value else none

def isU32 (text : List Char) : Bool := (parseUnsigned 4294967296 text).isSome

def isU64 (text : List Char) : Bool := (parseUnsigned 18446744073709551616 text).isSome

def tableHeader : List (List Char) :=
  ["lev".toList, "sst".toList, "keys".toList, "dels".toList, "size".toList, "column".toList]

def isMarkdownSeparator (fields : List (List Char)) : Bool :=
  fields.length = 6 && fields.all (fun field =>
    3 ≤ (trimMatches ':' field).length && (trimMatches ':' field).all (fun c => c = '-'))

/-- A number with a sign behind it. -/
def isCounted (sign : Char) (field : List Char) : Bool :=
  (field.dropSuffix? [sign]).any (fun value => isU64 (trimText value))

def isDatabaseFileRow : List (List Char) → Bool
  | [lev, sst, keys, dels, size, column] =>
      isU32 lev && !sst.isEmpty && isCounted '+' keys && isCounted '-' dels && isU64 size &&
        !column.isEmpty
  | _ => false

/-- The lines behind a header: separators before the first row, rows, and the end at the
first line after a row that is none. -/
def readTable (report : List (List Char)) (dataRows : Nat) :
    List (List Char) → List (List Char) × Nat
  | [] => (report, dataRows)
  | line :: rest =>
      if isMarkdownSeparator (markdownFields line) ∧ dataRows = 0 then
        readTable (report ++ [trimText line]) dataRows rest
      else if isDatabaseFileRow (markdownFields line) then
        readTable (report ++ [trimText line]) (dataRows + 1) rest
      else if 0 < dataRows then (report, dataRows)
      else readTable report dataRows rest

def extractFrom : List (List Char) → Option (List Char)
  | [] => none
  | line :: rest =>
      if markdownFields line = tableHeader then
        if 0 < (readTable [trimText line] 0 rest).2 then
          some (joinWith '\n' (readTable [trimText line] 0 rest).1 ++ ['\n'])
        else extractFrom rest
      else extractFrom rest

def extractDatabaseFilesTable (text : List Char) : Option (List Char) := extractFrom (lines text)

/-! ## The report -/

/-- `order` is the order in which the map gives its values, which nothing fixes. -/
def selectedReplies (order : List ReplyEvent → List ReplyEvent) (commandEventId : List Char)
    (replies : List ReplyEvent) : List ReplyEvent :=
  match Saturation.saturate ReplyEvent.eventId ReplyEvent.relationTarget (order replies)
      (replies.length + 1) (Saturation.start commandEventId) with
  | none => []
  | some s => orderBy (fun left right => sortKey left ≤ sortKey right)
      ((order replies).filter (fun r => s.selected.contains r.eventId))

def extractCorrelatedDatabaseFilesReport (order : List ReplyEvent → List ReplyEvent)
    (events : List JsonValue) (commandEventId serverUser : List Char) : Option (List Char) :=
  extractDatabaseFilesTable (joinWith '\n'
    ((selectedReplies order commandEventId (repliesOf serverUser events)).map ReplyEvent.body))

/-! ## What is read of a table -/

theorem markdownFields_trimText (line : List Char) :
    markdownFields (trimText line) = markdownFields line := by
  unfold markdownFields
  rw [trimText_trimText]

/-- A blank line has one field. -/
theorem markdownFields_of_blank {line : List Char} (h : trimText line = []) :
    markdownFields line = [[]] := by
  unfold markdownFields
  rw [h]
  rfl

theorem mem_trimMatches {c d : Char} {text : List Char} (hmem : c ∈ text) (hne : c ≠ d) :
    c ∈ trimMatches d text := by
  have hdrop : ∀ t : List Char, c ∈ t → c ∈ t.dropWhile (fun e => e = d) := by
    intro t ht
    rw [← @List.takeWhile_append_dropWhile _ (fun e => decide (e = d)) t, List.mem_append] at ht
    exact ht.resolve_left (fun htake => hne (by simpa using List.mem_takeWhile_imp htake))
  unfold trimMatches trimEndMatches List.rdropWhile
  exact List.mem_reverse.mpr (hdrop _ (List.mem_reverse.mpr (hdrop _ hmem)))

/-- A field of dashes is no number, so that no line is a separator and a row. -/
theorem not_isU32_of_dashes {field : List Char}
    (h : (trimMatches ':' field).all (fun c => c = '-') = true) : isU32 field = false := by
  rw [List.all_eq_true] at h
  have hchars : ∀ c ∈ field, c = ':' ∨ c = '-' := by
    intro c hc
    by_cases hcolon : c = ':'
    · exact .inl hcolon
    · exact .inr (by simpa using h c (mem_trimMatches hc hcolon))
  unfold isU32 parseUnsigned
  cases field with
  | nil => rfl
  | cons c rest =>
      have hc := hchars c List.mem_cons_self
      have hplus : (c :: rest).head? ≠ some '+' := by
        rintro heq
        rcases hc with rfl | rfl <;> cases heq
      have hdigit : c.isDigit = false := by
        rcases hc with rfl | rfl <;> rfl
      simp only [if_neg hplus, List.all_cons, hdigit, Bool.false_and, Bool.false_eq_true, false_and,
        and_false, if_false, Option.isSome_none]

def IsSeparator (line : List Char) : Prop := isMarkdownSeparator (markdownFields line) = true

def IsRow (line : List Char) : Prop := isDatabaseFileRow (markdownFields line) = true

theorem IsRow.fields {line : List Char} (h : IsRow line) :
    ∃ lev sst keys dels size column, isU32 lev = true ∧
      markdownFields line = [lev, sst, keys, dels, size, column] := by
  unfold IsRow isDatabaseFileRow at h
  split at h
  next lev sst keys dels size column heq =>
    simp only [Bool.and_eq_true] at h
    exact ⟨lev, sst, keys, dels, size, column, h.1.1.1.1.1, heq⟩
  next => cases h

theorem IsRow.not_isSeparator {line : List Char} (h : IsRow line) : ¬ IsSeparator line := by
  intro hsep
  obtain ⟨lev, sst, keys, dels, size, column, hlev, hfields⟩ := h.fields
  unfold IsSeparator isMarkdownSeparator at hsep
  rw [hfields, Bool.and_eq_true, List.all_cons, Bool.and_eq_true, Bool.and_eq_true] at hsep
  rw [not_isU32_of_dashes hsep.2.1.2] at hlev
  cases hlev

/-- What is taken behind a header: separators, then rows. -/
structure TableBody (separators rows : List (List Char)) : Prop where
  separators : ∀ line ∈ separators, IsSeparator line
  rows : ∀ line ∈ rows, IsRow line

theorem readTable_cons_separator {line : List Char} (h : IsSeparator line)
    (taken rest : List (List Char)) :
    readTable taken 0 (line :: rest) = readTable (taken ++ [trimText line]) 0 rest :=
  if_pos ⟨h, rfl⟩

theorem readTable_cons_row {line : List Char} (h : IsRow line) (taken rest : List (List Char))
    (n : Nat) :
    readTable taken n (line :: rest) = readTable (taken ++ [trimText line]) (n + 1) rest :=
  (if_neg (fun hsep => h.not_isSeparator hsep.1)).trans (if_pos h)

theorem readTable_rows {rows : List (List Char)} (h : ∀ line ∈ rows, IsRow line)
    (taken : List (List Char)) (n : Nat) :
    readTable taken n rows = (taken ++ rows.map trimText, n + rows.length) := by
  induction rows generalizing taken n with
  | nil => simp [readTable]
  | cons line rest ih =>
      obtain ⟨hline, hrest⟩ := List.forall_mem_cons.mp h
      rw [readTable_cons_row hline, ih hrest]
      simp only [List.map_cons, List.append_assoc, List.singleton_append, List.length_cons]
      rw [Nat.add_right_comm, Nat.add_assoc]

/-- Separators and rows are read back. -/
theorem readTable_body {separators rows : List (List Char)} (h : TableBody separators rows)
    (taken : List (List Char)) :
    readTable taken 0 (separators ++ rows) =
      (taken ++ (separators ++ rows).map trimText, rows.length) := by
  obtain ⟨hseparators, hrows⟩ := h
  induction separators generalizing taken with
  | nil => rw [List.nil_append, readTable_rows hrows, Nat.zero_add]
  | cons line rest ih =>
      obtain ⟨hline, hrest⟩ := List.forall_mem_cons.mp hseparators
      rw [List.cons_append, readTable_cons_separator hline, ih _ hrest]
      simp

/-- What is read behind the first row. -/
theorem readTable_succ (taken ls : List (List Char)) (n : Nat) :
    ∃ rows : List (List Char), (∀ line ∈ rows, IsRow line) ∧ rows.Sublist ls ∧
      readTable taken (n + 1) ls = (taken ++ rows.map trimText, n + 1 + rows.length) := by
  induction ls generalizing taken n with
  | nil => exact ⟨[], by simp, List.Sublist.refl _, by simp [readTable]⟩
  | cons line rest ih =>
      by_cases hrow : IsRow line
      · obtain ⟨rows, hrows, hsub, hread⟩ := ih (taken ++ [trimText line]) (n + 1)
        refine ⟨line :: rows, List.forall_mem_cons.mpr ⟨hrow, hrows⟩, hsub.cons_cons line, ?_⟩
        rw [readTable_cons_row hrow, hread]
        simp only [List.map_cons, List.append_assoc, List.singleton_append, List.length_cons]
        rw [Nat.add_right_comm, Nat.add_assoc]
      · refine ⟨[], by simp, List.nil_sublist _, ?_⟩
        have hstop : readTable taken (n + 1) (line :: rest) = (taken, n + 1) :=
          (if_neg (fun hsep => Nat.succ_ne_zero n hsep.2)).trans
            ((if_neg hrow).trans (if_pos (Nat.succ_pos n)))
        rw [hstop]
        simp

theorem readTable_spec (taken ls : List (List Char)) :
    ∃ separators rows : List (List Char), TableBody separators rows ∧
      (separators ++ rows).Sublist ls ∧ (rows = [] ↔ ∀ line ∈ ls, ¬ IsRow line) ∧
      readTable taken 0 ls = (taken ++ (separators ++ rows).map trimText, rows.length) := by
  induction ls generalizing taken with
  | nil =>
      exact ⟨[], [], ⟨by simp, by simp⟩, List.Sublist.refl _, by simp, by simp [readTable]⟩
  | cons line rest ih =>
      by_cases hsep : IsSeparator line
      · obtain ⟨separators, rows, hbody, hsub, hrows, hread⟩ := ih (taken ++ [trimText line])
        refine ⟨line :: separators, rows,
          ⟨List.forall_mem_cons.mpr ⟨hsep, hbody.separators⟩, hbody.rows⟩, hsub.cons_cons line,
          ?_, ?_⟩
        · rw [hrows, List.forall_mem_cons]
          exact ⟨fun h => ⟨fun hrow => hrow.not_isSeparator hsep, h⟩, fun h => h.2⟩
        · rw [readTable_cons_separator hsep, hread]
          simp
      · by_cases hrow : IsRow line
        · obtain ⟨rows, hrows, hsub, hread⟩ := readTable_succ (taken ++ [trimText line]) rest 0
          refine ⟨[], line :: rows, ⟨by simp, List.forall_mem_cons.mpr ⟨hrow, hrows⟩⟩,
            hsub.cons_cons line, ?_, ?_⟩
          · constructor
            · intro h
              cases h
            · exact fun h => absurd hrow (h line List.mem_cons_self)
          · rw [readTable_cons_row hrow, hread]
            simp [Nat.add_comm]
        · obtain ⟨separators, rows, hbody, hsub, hrows, hread⟩ := ih taken
          refine ⟨separators, rows, hbody, hsub.cons line, ?_, ?_⟩
          · rw [hrows, List.forall_mem_cons]
            exact ⟨fun h => ⟨hrow, h⟩, fun h => h.2⟩
          · have hskip : readTable taken 0 (line :: rest) = readTable taken 0 rest :=
              (if_neg (fun h => hsep h.1)).trans
                ((if_neg hrow).trans (if_neg (Nat.lt_irrefl 0)))
            rw [hskip, hread]

/-! ## What a report is -/

/-- A header, separators and rows, at least one, in the order of the lines. -/
structure IsTable (header : List Char) (separators rows : List (List Char)) : Prop where
  fields : markdownFields header = tableHeader
  body : TableBody separators rows
  nonempty : rows ≠ []

def printTable (header : List Char) (separators rows : List (List Char)) : List Char :=
  joinWith '\n' ((header :: (separators ++ rows)).map trimText) ++ ['\n']

theorem extractFrom_skip {line : List Char} {rest : List (List Char)}
    (h : markdownFields line ≠ tableHeader) : extractFrom (line :: rest) = extractFrom rest :=
  if_neg h

theorem extractFrom_header {line : List Char} {rest : List (List Char)}
    (h : markdownFields line = tableHeader) :
    extractFrom (line :: rest) =
      if 0 < (readTable [trimText line] 0 rest).2 then
        some (joinWith '\n' (readTable [trimText line] 0 rest).1 ++ ['\n'])
      else extractFrom rest :=
  if_pos h

/-- There is a report just when a row comes after a header. -/
theorem extractFrom_spec (ls : List (List Char)) :
    (∃ header separators rows, IsTable header separators rows ∧
        (header :: (separators ++ rows)).Sublist ls ∧
        extractFrom ls = some (printTable header separators rows)) ∨
      extractFrom ls = none ∧ ∀ front header back, ls = front ++ header :: back →
        markdownFields header = tableHeader → ∀ line ∈ back, ¬ IsRow line := by
  induction ls with
  | nil =>
      refine .inr ⟨rfl, ?_⟩
      intro front header back hsplit
      simp at hsplit
  | cons line rest ih =>
      -- a line at which no table is read leaves the search where it was
      have hlater : extractFrom (line :: rest) = extractFrom rest →
          (markdownFields line = tableHeader → ∀ l ∈ rest, ¬ IsRow l) →
          (∃ header separators rows, IsTable header separators rows ∧
              (header :: (separators ++ rows)).Sublist (line :: rest) ∧
              extractFrom (line :: rest) = some (printTable header separators rows)) ∨
            extractFrom (line :: rest) = none ∧
              ∀ front header back, line :: rest = front ++ header :: back →
                markdownFields header = tableHeader → ∀ l ∈ back, ¬ IsRow l := by
        intro hskip hline
        rcases ih with ⟨header, separators, rows, htable, hsub, hread⟩ | ⟨hnone, hrest⟩
        · exact .inl ⟨header, separators, rows, htable, hsub.cons line, hskip.trans hread⟩
        · refine .inr ⟨hskip.trans hnone, ?_⟩
          intro front header back hsplit hheader
          cases front with
          | nil =>
              obtain ⟨rfl, rfl⟩ := List.cons.inj hsplit
              exact hline hheader
          | cons first front => exact hrest front header back (List.cons.inj hsplit).2 hheader
      by_cases hheader : markdownFields line = tableHeader
      · obtain ⟨separators, rows, hbody, hsub, hrows, hread⟩ := readTable_spec [trimText line] rest
        have hextract := @extractFrom_header line rest hheader
        rw [hread] at hextract
        by_cases hnil : rows = []
        · refine hlater ?_ (fun _ => hrows.1 hnil)
          rw [hextract, if_neg (by simp [hnil])]
        · refine .inl ⟨line, separators, rows, ⟨hheader, hbody, hnil⟩, hsub.cons_cons line, ?_⟩
          rw [hextract, if_pos (List.length_pos_iff.mpr hnil)]
          rfl
      · exact hlater (extractFrom_skip hheader) (fun h => absurd h hheader)

/-- The lines of a table, trimmed, are the lines of its report. -/
theorem lines_printTable {header : List Char} {separators rows ls : List (List Char)}
    (hsub : (header :: (separators ++ rows)).Sublist ls) (hls : ∀ l ∈ ls, '\n' ∉ l) :
    lines (printTable header separators rows) =
      (header :: (separators ++ rows)).map trimText := by
  refine lines_joinWith_newline ?_ (List.cons_ne_nil _ _)
  intro l hl
  obtain ⟨line, hline, rfl⟩ := List.mem_map.mp hl
  refine ⟨fun hmem => hls line (hsub.subset hline) ((trimText_isInfix line).subset hmem), ?_⟩
  intro hlast
  have hblank := getLast_trimText '\r' hlast
  exact absurd hblank (by decide)

theorem extractFrom_table {header : List Char} {separators rows : List (List Char)}
    (htable : IsTable header separators rows) :
    extractFrom (header :: (separators ++ rows)) = some (printTable header separators rows) := by
  rw [extractFrom_header htable.fields, readTable_body htable.body,
    if_pos (List.length_pos_iff.mpr htable.nonempty)]
  rfl

/-- No line of a table is blank. -/
theorem IsTable.not_blank {header line : List Char} {separators rows : List (List Char)}
    (htable : IsTable header separators rows) (hline : line ∈ header :: (separators ++ rows)) :
    trimText line ≠ [] := by
  intro hblank
  have hfields := markdownFields_of_blank hblank
  rcases List.mem_cons.mp hline with rfl | hline
  · exact absurd (hfields.symm.trans htable.fields) (by decide)
  · rcases List.mem_append.mp hline with hmem | hmem
    · have hsep := htable.body.separators line hmem
      unfold IsSeparator at hsep
      rw [hfields] at hsep
      exact absurd hsep (by decide)
    · have hrow := htable.body.rows line hmem
      unfold IsRow at hrow
      rw [hfields] at hrow
      exact absurd hrow (by decide)

theorem IsTable.trimmed {header : List Char} {separators rows : List (List Char)}
    (htable : IsTable header separators rows) :
    IsTable (trimText header) (separators.map trimText) (rows.map trimText) where
  fields := (markdownFields_trimText header).trans htable.fields
  nonempty := fun h => htable.nonempty (List.map_eq_nil_iff.mp h)
  body := by
    constructor
    · intro l hl
      obtain ⟨line, hline, rfl⟩ := List.mem_map.mp hl
      unfold IsSeparator
      rw [markdownFields_trimText]
      exact htable.body.separators line hline
    · intro l hl
      obtain ⟨line, hline, rfl⟩ := List.mem_map.mp hl
      unfold IsRow
      rw [markdownFields_trimText]
      exact htable.body.rows line hline

theorem printTable_trimmed (header : List Char) (separators rows : List (List Char)) :
    printTable (trimText header) (separators.map trimText) (rows.map trimText) =
      printTable header separators rows := by
  unfold printTable
  rw [← List.map_append, ← List.map_cons, List.map_map]
  congr 2
  exact List.map_congr_left (fun l _ => trimText_trimText l)

/-- A report that is read is a table of its text. -/
theorem extractDatabaseFilesTable_eq_some {text report : List Char}
    (h : extractDatabaseFilesTable text = some report) :
    ∃ header separators rows, IsTable header separators rows ∧
      (header :: (separators ++ rows)).Sublist (lines text) ∧
      lines report = (header :: (separators ++ rows)).map trimText ∧
      report = printTable header separators rows := by
  unfold extractDatabaseFilesTable at h
  rcases extractFrom_spec (lines text) with
    ⟨header, separators, rows, htable, hsub, hread⟩ | ⟨hnone, -⟩
  · rw [hread] at h
    cases h
    exact ⟨header, separators, rows, htable, hsub,
      lines_printTable hsub (fun l hl => newline_not_mem_lines hl), rfl⟩
  · rw [hnone] at h
    cases h

/-- A report is a table of its text, and is read back as it is. -/
theorem extractDatabaseFilesTable_spec (text : List Char) :
    ((extractDatabaseFilesTable text).isSome ↔
      ∃ front header back, lines text = front ++ header :: back ∧
        markdownFields header = tableHeader ∧ ∃ line ∈ back, IsRow line) ∧
    ∀ report, extractDatabaseFilesTable text = some report →
      extractDatabaseFilesTable report = some report ∧
      ∃ header separators rows, IsTable header separators rows ∧
        (header :: (separators ++ rows)).Sublist (lines text) ∧
        lines report = (header :: (separators ++ rows)).map trimText := by
  constructor
  · unfold extractDatabaseFilesTable
    rcases extractFrom_spec (lines text) with
      ⟨header, separators, rows, htable, hsub, hread⟩ | ⟨hnone, hrest⟩
    · rw [hread]
      refine ⟨fun _ => ?_, fun _ => rfl⟩
      obtain ⟨front, back, hsplit, hfront, hback⟩ := List.cons_sublist_iff.mp hsub
      obtain ⟨before, between, rfl⟩ := List.mem_iff_append.mp hfront
      obtain ⟨row, hrow⟩ := List.exists_mem_of_ne_nil rows htable.nonempty
      refine ⟨before, header, between ++ back, by simp [hsplit], htable.fields, row, ?_,
        htable.body.rows row hrow⟩
      exact List.mem_append_right _ (hback.subset (List.mem_append_right _ hrow))
    · rw [hnone]
      refine ⟨fun h => (Bool.false_ne_true h).elim, ?_⟩
      rintro ⟨front, header, back, hsplit, hheader, line, hline, hrow⟩
      exact absurd hrow (hrest front header back hsplit hheader line hline)
  · intro report h
    obtain ⟨header, separators, rows, htable, hsub, hlines, hprint⟩ :=
      extractDatabaseFilesTable_eq_some h
    refine ⟨?_, header, separators, rows, htable, hsub, hlines⟩
    unfold extractDatabaseFilesTable
    rw [hlines, List.map_cons, List.map_append, extractFrom_table htable.trimmed,
      printTable_trimmed, hprint]

/-! ## The selected replies -/

open Saturation (Leads saturate_spec)

variable {order order' : List ReplyEvent → List ReplyEvent} {replies replies' : List ReplyEvent}
  {events events' : List JsonValue} {commandEventId serverUser text report : List Char}
  {r : ReplyEvent}

/-- A reply answers the command when a chain of replies leads from it to the command. -/
def Answers (commandEventId : List Char) (replies : List ReplyEvent) (r : ReplyEvent) : Prop :=
  Leads ReplyEvent.eventId ReplyEvent.relationTarget replies commandEventId r

theorem answers_perm (hperm : replies.Perm replies') :
    Answers commandEventId replies r ↔ Answers commandEventId replies' r :=
  ⟨Leads.mono hperm.subset, Leads.mono hperm.symm.subset⟩

theorem repliesOf_nodup : ((repliesOf serverUser events).map ReplyEvent.eventId).Nodup :=
  firstPerGroup_nodup _

theorem repliesOf_perm (hperm : events.Perm events')
    (hids : ((events.filterMap (parseReplyEvent serverUser)).map ReplyEvent.eventId).Nodup) :
    (repliesOf serverUser events).Perm (repliesOf serverUser events') := by
  have hmap := hperm.filterMap (parseReplyEvent serverUser)
  have hids' := (hmap.map ReplyEvent.eventId).nodup_iff.mp hids
  unfold repliesOf
  rw [firstPerGroup_of_nodup hids, firstPerGroup_of_nodup hids']
  exact hmap

theorem selectedReplies_spec (horder : (order replies).Perm replies)
    (hids : (replies.map ReplyEvent.eventId).Nodup) :
    (selectedReplies order commandEventId replies).Pairwise
        (fun a b => sortKey a < sortKey b) ∧
      ∀ r, r ∈ selectedReplies order commandEventId replies ↔ Answers commandEventId replies r := by
  obtain ⟨s, hrun, hselected⟩ :=
    saturate_spec ReplyEvent.eventId ReplyEvent.relationTarget (order replies) commandEventId
  rw [horder.length_eq] at hrun
  have hsel : selectedReplies order commandEventId replies =
      orderBy (fun left right => sortKey left ≤ sortKey right)
        ((order replies).filter (fun r => s.selected.contains r.eventId)) := by
    unfold selectedReplies
    rw [hrun]
  have hnodup : ((order replies).map ReplyEvent.eventId).Nodup :=
    (horder.map _).nodup_iff.mpr hids
  rw [hsel]
  constructor
  · have hsorted := pairwise_orderBy (fun a b => le_total (sortKey a) (sortKey b))
      (fun a b c => @le_trans _ _ (sortKey a) (sortKey b) (sortKey c))
      ((order replies).filter (fun r => s.selected.contains r.eventId))
    have hdistinct : ((orderBy (fun left right => sortKey left ≤ sortKey right)
        ((order replies).filter (fun r => s.selected.contains r.eventId))).map
          ReplyEvent.eventId).Nodup :=
      ((perm_orderBy _).map _).nodup_iff.mpr (hnodup.sublist (List.filter_sublist.map _))
    refine (hsorted.and (List.pairwise_map.mp hdistinct)).imp ?_
    rintro a b ⟨hle, hne⟩
    refine lt_of_le_of_ne hle (fun heq => hne ?_)
    exact congrArg (fun k => (ofLex k).2) heq
  · intro r
    rw [mem_orderBy, List.mem_filter, List.contains_iff_mem, hselected, answers_perm horder.symm]
    constructor
    · rintro ⟨hr, x, hleads, hid⟩
      rw [← List.inj_on_of_nodup_map hnodup hleads.mem hr hid]
      exact hleads
    · exact fun hleads => ⟨hleads.mem, r, hleads, rfl⟩

/-- The selection depends on the replies alone, not on the order of the map. -/
theorem selectedReplies_perm (horder : ∀ l, (order l).Perm l) (horder' : ∀ l, (order' l).Perm l)
    (hids : (replies.map ReplyEvent.eventId).Nodup) (hperm : replies.Perm replies') :
    selectedReplies order commandEventId replies =
      selectedReplies order' commandEventId replies' := by
  have hids' : (replies'.map ReplyEvent.eventId).Nodup := (hperm.map _).nodup_iff.mp hids
  obtain ⟨hsorted, hmem⟩ := @selectedReplies_spec order replies commandEventId (horder _) hids
  obtain ⟨hsorted', hmem'⟩ := @selectedReplies_spec order' replies' commandEventId (horder' _) hids'
  refine List.Perm.eq_of_pairwise (fun a b _ _ => fun hab hba => absurd hab hba.asymm) hsorted
    hsorted' ?_
  refine (List.perm_ext_iff_of_nodup ?_ ?_).mpr ?_
  · exact hsorted.imp (fun h => ne_of_apply_ne sortKey h.ne)
  · exact hsorted'.imp (fun h => ne_of_apply_ne sortKey h.ne)
  · intro r
    rw [hmem, hmem', answers_perm hperm]

/-! ## The report of the replies -/

/-- The report is read of the replies that answer the command, the first of each id, in the
order of their time stamps and ids. -/
theorem extractCorrelatedDatabaseFilesReport_spec (horder : ∀ l, (order l).Perm l)
    (events : List JsonValue) (commandEventId serverUser : List Char) :
    ∃ chosen : List ReplyEvent,
      chosen.Pairwise (fun a b => sortKey a < sortKey b) ∧
      (∀ r, r ∈ chosen ↔ Answers commandEventId (repliesOf serverUser events) r) ∧
      extractCorrelatedDatabaseFilesReport order events commandEventId serverUser =
        extractDatabaseFilesTable (joinWith '\n' (chosen.map ReplyEvent.body)) := by
  obtain ⟨hsorted, hmem⟩ :=
    @selectedReplies_spec order _ commandEventId (horder _) (@repliesOf_nodup events serverUser)
  exact ⟨_, hsorted, hmem, rfl⟩

/-- A message of a room in reply to another. -/
def replyMessage (eventId sender target body : String) (originServerTs : Int) : JsonValue :=
  .obj [("type".toList, .str "m.room.message".toList), ("event_id".toList, .str eventId.toList),
    ("sender".toList, .str sender.toList), ("origin_server_ts".toList, .int originServerTs),
    ("content".toList, .obj [("msgtype".toList, .str "m.notice".toList),
      ("body".toList, .str body.toList),
      ("m.relates_to".toList, .obj [("m.in_reply_to".toList,
        .obj [("event_id".toList, .str target.toList)])])])]

/-- The second part of an answer, a message of someone else, and the first part. -/
def answeredInParts : List JsonValue :=
  [replyMessage "$2" "@conduit:h" "$1" "| 0 | 2.sst | 50+ | 5- | 500 | pduid_pdu |" 200,
    replyMessage "$3" "@else:h" "$c" "| 0 | fake.sst | 1+ | 0- | 9 | fake |" 150,
    replyMessage "$1" "@conduit:h" "$c" "| lev | sst | keys | dels | size | column |" 100]

theorem extractCorrelatedDatabaseFilesReport_spec_parts :
    ∃ chosen : List ReplyEvent,
      chosen.Pairwise (fun a b => sortKey a < sortKey b) ∧
      (∀ r, r ∈ chosen ↔
        Answers "$c".toList (repliesOf "@conduit:h".toList answeredInParts) r) ∧
      extractCorrelatedDatabaseFilesReport List.reverse answeredInParts "$c".toList
          "@conduit:h".toList =
        extractDatabaseFilesTable (joinWith '\n' (chosen.map ReplyEvent.body)) :=
  extractCorrelatedDatabaseFilesReport_spec List.reverse_perm answeredInParts "$c".toList
    "@conduit:h".toList

/-- Events with distinct ids give one report, in whatever order they are read and the map
gives them back. -/
theorem extractCorrelatedDatabaseFilesReport_perm (horder : ∀ l, (order l).Perm l)
    (horder' : ∀ l, (order' l).Perm l) (hperm : events.Perm events')
    (hids : ((events.filterMap (parseReplyEvent serverUser)).map ReplyEvent.eventId).Nodup) :
    extractCorrelatedDatabaseFilesReport order events commandEventId serverUser =
      extractCorrelatedDatabaseFilesReport order' events' commandEventId serverUser := by
  unfold extractCorrelatedDatabaseFilesReport
  rw [selectedReplies_perm horder horder' repliesOf_nodup (repliesOf_perm hperm hids)]

theorem extractCorrelatedDatabaseFilesReport_perm_parts :
    extractCorrelatedDatabaseFilesReport id answeredInParts "$c".toList "@conduit:h".toList =
      extractCorrelatedDatabaseFilesReport List.reverse answeredInParts.reverse "$c".toList
        "@conduit:h".toList :=
  extractCorrelatedDatabaseFilesReport_perm List.Perm.refl List.reverse_perm
    (List.reverse_perm answeredInParts).symm (by decide +kernel)

theorem sender_of_parseReplyEvent {event : JsonValue}
    (h : parseReplyEvent serverUser event = some r) :
    event.getString "sender" = some serverUser := by
  simp only [parseReplyEvent, Option.bind_eq_bind, Option.bind_eq_some_iff] at h
  obtain ⟨_, _, _, _, sender, hsender, _, hguard, _⟩ := h
  have heq : sender = serverUser := by
    by_contra hne
    simp [guard, hne] at hguard
  rw [hsender, heq]

/-- Nothing of the report comes from anywhere but a message of the server that answers the
command, itself or through other such messages. -/
theorem extractCorrelatedDatabaseFilesReport_source (horder : ∀ l, (order l).Perm l)
    (h : extractCorrelatedDatabaseFilesReport order events commandEventId serverUser =
      some report) :
    ∀ line ∈ lines report, ∃ event ∈ events, ∃ r, parseReplyEvent serverUser event = some r ∧
      event.getString "sender" = some serverUser ∧
      Answers commandEventId (repliesOf serverUser events) r ∧
      ∃ l ∈ lines r.body, trimText l = line := by
  obtain ⟨-, hmem⟩ :=
    @selectedReplies_spec order _ commandEventId (horder _) (@repliesOf_nodup events serverUser)
  obtain ⟨header, separators, rows, htable, hsub, hlines, -⟩ := extractDatabaseFilesTable_eq_some h
  intro line hline
  rw [hlines] at hline
  obtain ⟨l, hl, rfl⟩ := List.mem_map.mp hline
  obtain ⟨body, hbody, l', hl', htrim⟩ := mem_lines_joinWith (hsub.subset hl) (htable.not_blank hl)
  obtain ⟨r, hr, rfl⟩ := List.mem_map.mp hbody
  have hanswers := (hmem r).1 hr
  obtain ⟨event, hevent, hparse⟩ :=
    List.mem_filterMap.mp (mem_of_mem_firstPerGroup hanswers.mem)
  exact ⟨event, hevent, r, hparse, sender_of_parseReplyEvent hparse, hanswers, l', hl', htrim⟩

theorem extractCorrelatedDatabaseFilesReport_source_parts :
    let report := ("| lev | sst | keys | dels | size | column |\n" ++
      "| 0 | 2.sst | 50+ | 5- | 500 | pduid_pdu |\n").toList
    (lines report).length = 2 ∧
      ∀ line ∈ lines report, ∃ event ∈ answeredInParts, ∃ r,
        parseReplyEvent "@conduit:h".toList event = some r ∧
        event.getString "sender" = some "@conduit:h".toList ∧
        Answers "$c".toList (repliesOf "@conduit:h".toList answeredInParts) r ∧
        ∃ l ∈ lines r.body, trimText l = line :=
  ⟨by decide, extractCorrelatedDatabaseFilesReport_source List.reverse_perm (by decide +kernel)⟩

/-! ## Waiting for the answer -/

/-- One turn of the loop: the time at its head, the events that the scan gives, if it does
not fail, and the time at which the report is looked at. Times are in milliseconds. -/
structure Poll where
  start : Nat
  scan : Option (List JsonValue)
  checked : Nat

def responseSettleTime : Nat := 2000

inductive AwaitOutcome
  | report (text : List Char)
  | scanFailed
  | timedOut
deriving DecidableEq

/-- `candidate` and `candidate_seen_at` are set together. No outcome means that the turns
end before the loop does. -/
def awaitDatabaseFilesReport (extract : List JsonValue → Option (List Char)) (deadline : Nat) :
    Option (List Char × Nat) → List Poll → Option AwaitOutcome
  | _, [] => none
  | candidate, poll :: rest =>
      if deadline ≤ poll.start then
        some ((candidate.map (fun c => AwaitOutcome.report c.1)).getD .timedOut)
      else
        match poll.scan with
        | none => some .scanFailed
        | some events =>
            match extract events with
            | none => awaitDatabaseFilesReport extract deadline candidate rest
            | some report =>
                if candidate.map Prod.fst ≠ some report then
                  awaitDatabaseFilesReport extract deadline (some (report, poll.checked)) rest
                else if candidate.any (fun c => responseSettleTime ≤ poll.checked - c.2) then
                  some (.report report)
                else awaitDatabaseFilesReport extract deadline candidate rest

/-- The report was first seen in a turn that was looked at at `seenAt`, and no turn since
gave another. -/
def Unchanged (extract : List JsonValue → Option (List Char)) (polls : List Poll)
    (report : List Char) (seenAt : Nat) : Prop :=
  ∃ before first after, polls = before ++ first :: after ∧ first.checked = seenAt ∧
    first.scan.bind extract = some report ∧
    ∀ p ∈ after, ∀ other, p.scan.bind extract = some other → other = report

theorem Unchanged.concat {extract : List JsonValue → Option (List Char)} {polls : List Poll}
    {seenAt : Nat} {p : Poll} (h : Unchanged extract polls report seenAt)
    (hp : ∀ other, p.scan.bind extract = some other → other = report) :
    Unchanged extract (polls ++ [p]) report seenAt := by
  obtain ⟨before, first, after, rfl, hseen, hfirst, hafter⟩ := h
  refine ⟨before, first, after ++ [p], by simp, hseen, hfirst, ?_⟩
  intro q hq
  rcases List.mem_append.mp hq with hq | hq
  · exact hafter q hq
  · rw [List.mem_singleton.mp hq]
    exact hp

theorem awaitDatabaseFilesReport_from {extract : List JsonValue → Option (List Char)}
    {deadline : Nat} {candidate : Option (List Char × Nat)} {past polls : List Poll}
    (hcandidate : ∀ c, candidate = some c → Unchanged extract past c.1 c.2)
    (h : awaitDatabaseFilesReport extract deadline candidate polls = some (.report report)) :
    ∃ front last back seenAt, polls = front ++ last :: back ∧
      Unchanged extract (past ++ front) report seenAt ∧
      (deadline ≤ last.start ∨
        last.scan.bind extract = some report ∧ responseSettleTime ≤ last.checked - seenAt) := by
  induction polls generalizing candidate past with
  | nil => cases h
  | cons poll rest ih =>
      -- a turn that does not end the loop joins the turns that are past
      have hnext : ∀ candidate', (∀ c, candidate' = some c →
            Unchanged extract (past ++ [poll]) c.1 c.2) →
          awaitDatabaseFilesReport extract deadline candidate' rest = some (.report report) →
          ∃ front last back seenAt, poll :: rest = front ++ last :: back ∧
            Unchanged extract (past ++ front) report seenAt ∧
            (deadline ≤ last.start ∨
              last.scan.bind extract = some report ∧
                responseSettleTime ≤ last.checked - seenAt) := by
        intro candidate' hcandidate' hrun
        obtain ⟨front, last, back, seenAt, rfl, hunchanged, hend⟩ := ih hcandidate' hrun
        rw [List.append_assoc] at hunchanged
        exact ⟨poll :: front, last, back, seenAt, rfl, hunchanged, hend⟩
      unfold awaitDatabaseFilesReport at h
      split at h
      next hdeadline =>
        cases candidate with
        | none => cases h
        | some c =>
            cases h
            refine ⟨[], poll, rest, c.2, rfl, ?_, .inl hdeadline⟩
            rw [List.append_nil]
            exact hcandidate c rfl
      next =>
        split at h
        next => cases h
        next events hscan =>
          split at h
          next hnone =>
            refine hnext candidate (fun c hc => (hcandidate c hc).concat ?_) h
            intro other hother
            rw [hscan, Option.bind_some, hnone] at hother
            cases hother
          next found hfound =>
            have hpoll : poll.scan.bind extract = some found := by
              rw [hscan, Option.bind_some, hfound]
            split at h
            next =>
              refine hnext _ ?_ h
              rintro c ⟨⟩
              exact ⟨past, poll, [], rfl, rfl, hpoll, fun p hp => by cases hp⟩
            next hsame =>
              obtain ⟨c, hc, heq⟩ := Option.map_eq_some_iff.mp (not_not.mp hsame)
              split at h
              next hsettled =>
                cases h
                rw [hc, Option.any_some, decide_eq_true_eq] at hsettled
                refine ⟨[], poll, rest, c.2, rfl, ?_, .inr ⟨hpoll, hsettled⟩⟩
                rw [List.append_nil, ← heq]
                exact hcandidate c hc
              next =>
                refine hnext candidate (fun c' hc' => (hcandidate c' hc').concat ?_) h
                intro other hother
                rw [hc] at hc'
                cases hc'
                rw [hpoll] at hother
                cases hother
                exact heq.symm

/-- A report that is published before the deadline was read twice, two seconds apart at the
least, and no other was read between; at the deadline it is the last that was read. -/
theorem awaitDatabaseFilesReport_settled {extract : List JsonValue → Option (List Char)}
    {deadline : Nat} {polls : List Poll}
    (h : awaitDatabaseFilesReport extract deadline none polls = some (.report report)) :
    ∃ front last back seenAt, polls = front ++ last :: back ∧
      Unchanged extract front report seenAt ∧
      (deadline ≤ last.start ∨
        last.scan.bind extract = some report ∧ responseSettleTime ≤ last.checked - seenAt) := by
  have hstart : ∀ c, (none : Option (List Char × Nat)) = some c →
      Unchanged extract [] c.1 c.2 := by
    intro c hc
    cases hc
  exact awaitDatabaseFilesReport_from hstart h

/-- No table yet, then the table, an empty page, and the table again two seconds later. -/
def growingAnswer : List Poll :=
  [⟨0, some [replyMessage "$1" "@conduit:h" "$c" "one" 100], 10⟩,
    ⟨1000, some answeredInParts, 1010⟩, ⟨2000, some [], 2010⟩,
    ⟨3000, some answeredInParts, 3010⟩]

def partsReport (events : List JsonValue) : Option (List Char) :=
  extractCorrelatedDatabaseFilesReport id events "$c".toList "@conduit:h".toList

theorem awaitDatabaseFilesReport_settled_parts :
    ∃ front last back seenAt, growingAnswer = front ++ last :: back ∧
      Unchanged partsReport front ("| lev | sst | keys | dels | size | column |\n" ++
        "| 0 | 2.sst | 50+ | 5- | 500 | pduid_pdu |\n").toList seenAt ∧
      (60000 ≤ last.start ∨
        last.scan.bind partsReport = some ("| lev | sst | keys | dels | size | column |\n" ++
          "| 0 | 2.sst | 50+ | 5- | 500 | pduid_pdu |\n").toList ∧
        responseSettleTime ≤ last.checked - seenAt) :=
  awaitDatabaseFilesReport_settled (by decide +kernel)

end Lightfriend.Diagnostics
