import Lightfriend.Core.JsonValue
import Lightfriend.Core.Split
import Lightfriend.Core.Trim

/-! # The answer of the model in pieces

The answer of a model comes as a text of events, each of which adds to it. One
function reads the whole text; the other reads it as it arrives, and decodes each
piece of the network for itself.
-/

namespace Lightfriend.StreamedAnswer

open Text

/-! ## What the events add up to -/

structure ToolCall where
  id : List Char
  type : List Char
  name : List Char
  arguments : List Char
deriving DecidableEq

structure Parts where
  id : List Char
  model : List Char
  content : List Char
  role : List Char
  finishReason : Option (List Char)
  /-- By index, in its order. -/
  toolCalls : List (Int × ToolCall)
  hasData : Bool
  promptTokens : Int
  completionTokens : Int
  totalTokens : Int
deriving DecidableEq

def Parts.start : Parts := ⟨[], [], [], "assistant".toList, none, [], false, 0, 0, 0⟩

/-- `entry(idx).or_insert_with(..)`, and what is then done to the entry. -/
def withEntry (idx : Int) (set : ToolCall → ToolCall) :
    List (Int × ToolCall) → List (Int × ToolCall)
  | [] => [(idx, set ⟨[], "function".toList, [], []⟩)]
  | (i, tc) :: rest =>
      if idx < i then (idx, set ⟨[], "function".toList, [], []⟩) :: (i, tc) :: rest
      else if idx = i then (i, set tc) :: rest
      else (i, tc) :: withEntry idx set rest

/-- What a delta says of a tool call. -/
def addToolDelta (tc : JsonValue) (entry : ToolCall) : ToolCall :=
  let entry := match tc.getString "id" with
    | some id => if entry.id = [] then { entry with id } else entry
    | none => entry
  let entry := match tc.getString "type" with
    | some type => { entry with type }
    | none => entry
  match tc.get "function" with
  | some func =>
      let entry := match func.getString "name" with
        | some name => if entry.name = [] then { entry with name } else entry
        | none => entry
      match func.getString "arguments" with
      | some args => { entry with arguments := entry.arguments ++ args }
      | none => entry
  | none => entry

def addTool (p : Parts) (tc : JsonValue) : Parts :=
  { p with toolCalls := withEntry ((tc.getI64 "index").getD 0) (addToolDelta tc) p.toolCalls }

def addDelta (p : Parts) (delta : JsonValue) : Parts :=
  let p := match delta.getString "role" with
    | some role => { p with role }
    | none => p
  let p := match delta.getString "content" with
    | some c => { p with content := p.content ++ c }
    | none => p
  match (delta.get "tool_calls").bind JsonValue.asArray with
  | some tcs => tcs.foldl addTool p
  | none => p

def addChoice (p : Parts) (choice : JsonValue) : Parts :=
  let p := match choice.get "delta" with
    | some delta => addDelta p delta
    | none => p
  match choice.getString "finish_reason" with
  | some fr => { p with finishReason := some fr }
  | none => p

def addUsage (p : Parts) (usage : JsonValue) : Parts :=
  { p with
    promptTokens := (usage.getI64 "prompt_tokens").getD p.promptTokens
    completionTokens := (usage.getI64 "completion_tokens").getD p.completionTokens
    totalTokens := (usage.getI64 "total_tokens").getD p.totalTokens }

/-- The body of both loops, for a line of data that is JSON. -/
def addChunk (p : Parts) (data : List Char) (chunk : JsonValue) : Except (List Char) Parts :=
  let p := { p with hasData := true }
  let p := match chunk.get "usage" with
    | some usage => addUsage p usage
    | none => p
  if (chunk.get "error").isSome then .error ("Streaming error: ".toList ++ data)
  else
    let p := match chunk.getString "id" with
      | some id => if p.id = [] then { p with id } else p
      | none => p
    let p := match chunk.getString "model" with
      | some model => if p.model = [] then { p with model } else p
      | none => p
    match (chunk.get "choices").bind JsonValue.asArray with
    | some choices => .ok (choices.foldl addChoice p)
    | none => .ok p

/-! ## The answer -/

structure Usage where
  promptTokens : Int
  completionTokens : Int
  totalTokens : Int
deriving DecidableEq

/-- The response as it is put together, with the tool calls in the order of their indices. -/
structure Assembled where
  id : List Char
  model : List Char
  role : List Char
  content : Option (List Char)
  toolCalls : List ToolCall
  finishReason : Option (List Char)
  usage : Usage
deriving DecidableEq

/-- `content.find(..)` and `truncate`. -/
def beforeMarker (marker : List Char) : List Char → List Char
  | [] => []
  | c :: rest =>
      if marker.isPrefixOf (c :: rest) then [] else c :: beforeMarker marker rest

def Parts.assembled (p : Parts) : Assembled :=
  let content := trimText (beforeMarker "<|tool_calls_section_begin|>".toList p.content)
  { id := if p.id = [] then "chatcmpl-stream".toList else p.id
    model := if p.model = [] then "unknown".toList else p.model
    role := p.role
    content := if content = [] then none else some content
    toolCalls := p.toolCalls.map (·.2)
    finishReason := p.finishReason
    usage := ⟨p.promptTokens, p.completionTokens, p.totalTokens⟩ }

section

variable {ρ : Type} (parse : List Char → Option JsonValue)
  (deserialize : Assembled → Except (List Char) ρ)

def finish (p : Parts) : Except (List Char) ρ :=
  if p.hasData then deserialize p.assembled
  else .error "No data received from streaming response".toList

/-! ## The whole text -/

def dataStart : List Char := "data: ".toList

def doneMark : List Char := "[DONE]".toList

def assembleLine (p : Parts) (line : List Char) : Except (List Char) Parts :=
  match (trimText line).dropPrefix? dataStart with
  | some d =>
      if trimText d ≠ doneMark then
        match parse d with
        | some chunk => addChunk p d chunk
        | none => .ok p
      else .ok p
  | none => .ok p

def assembleSseResponse (sseText : List Char) : Except (List Char) ρ := do
  let p ← (lines sseText).foldlM (assembleLine parse) Parts.start
  finish deserialize p

/-! ## The pieces of the network -/

/-- How many bytes of what is no character are replaced together: the start of one, as far as it
goes. -/
def invalidLength : List UInt8 → Nat
  | [] => 0
  | [_] => 1
  | a :: b :: rest =>
      let tail := fun x : UInt8 => decide (0x80 ≤ x ∧ x ≤ 0xBF)
      let second :=
        if a = 0xE0 then decide (0xA0 ≤ b ∧ b ≤ 0xBF)
        else if a = 0xED then decide (0x80 ≤ b ∧ b ≤ 0x9F)
        else if 0xE1 ≤ a ∧ a ≤ 0xEF then tail b
        else if a = 0xF0 then decide (0x90 ≤ b ∧ b ≤ 0xBF)
        else if a = 0xF4 then decide (0x80 ≤ b ∧ b ≤ 0x8F)
        else if 0xF1 ≤ a ∧ a ≤ 0xF3 then tail b
        else false
      if !second then 1
      else if 0xF0 ≤ a ∧ rest.head?.any tail then 3
      else 2

/-- The character that the bytes begin with. -/
def firstChar (bytes : List UInt8) : Option Char := bytes.toByteArray.utf8DecodeChar? 0

def lossyFrom : Nat → List UInt8 → List Char
  | 0, _ => []
  | _ + 1, [] => []
  | fuel + 1, b :: rest =>
      match firstChar (b :: rest) with
      | some c => c :: lossyFrom fuel ((b :: rest).drop c.utf8Size)
      | none =>
          Char.ofNat 0xFFFD :: lossyFrom fuel ((b :: rest).drop (invalidLength (b :: rest)))

/-- `String::from_utf8_lossy`. -/
def fromUtf8Lossy (bytes : List UInt8) : List Char := lossyFrom bytes.length bytes

/-- The lines that end in the buffer, and what is left of it. -/
def cutLines : List Char → List (List Char) × List Char
  | [] => ([], [])
  | c :: rest =>
      if c = '\n' then ([] :: (cutLines rest).1, (cutLines rest).2)
      else
        match (cutLines rest).1 with
        | [] => ([], c :: (cutLines rest).2)
        | line :: more => ((c :: line) :: more, (cutLines rest).2)

def streamLine (p : Parts) (line : List Char) : Except (List Char) Parts :=
  match (trimText line).dropPrefix? dataStart with
  | some d =>
      if trimText d = doneMark then .ok p
      else
        match parse d with
        | some chunk => addChunk p d chunk
        | none => .ok p
  | none => .ok p

/-- A piece of the network: its complete lines are read, and the rest stays in the buffer. -/
def streamPiece (s : Parts × List Char) (bytes : List UInt8) :
    Except (List Char) (Parts × List Char) := do
  let buf := s.2 ++ fromUtf8Lossy bytes
  let p ← (cutLines buf).1.foldlM (streamLine parse) s.1
  return (p, (cutLines buf).2)

/-- An attempt of `chat_completion_streaming_with_attempts`. -/
def streamAttempt (pieces : List (List UInt8)) : Except (List Char) ρ := do
  let s ← pieces.foldlM (streamPiece parse) (Parts.start, [])
  finish deserialize s.1

end

/-! ## The meaning -/

/-- The bytes of a text. -/
def utf8 (text : List Char) : List UInt8 := text.flatMap String.utf8EncodeChar

section

variable (parse : List Char → Option JsonValue)

/-- What a line says: its data, where it is JSON and does not end the stream. -/
def event (line : List Char) : Option (List Char × JsonValue) :=
  match (trimText line).dropPrefix? dataStart with
  | some d => if trimText d = doneMark then none else (parse d).map (fun chunk => (d, chunk))
  | none => none

/-- The events of the text are those of the lines that the decoded pieces complete. -/
def SameEvents (text : List Char) (pieces : List (List UInt8)) : Prop :=
  (cutLines (pieces.flatMap fromUtf8Lossy)).1.filterMap (event parse) =
    (lines text).filterMap (event parse)

/-- No piece ends within a character, and a last line that does not end is no event. -/
structure Whole (text : List Char) (pieces : List (List UInt8)) : Prop where
  characters : ∀ piece ∈ pieces, ∃ part, piece = utf8 part
  lastLine : event parse (cutLines text).2 = none

end

/-- The two answer alike, or both fail. -/
def Agree {ρ : Type} (a b : Except (List Char) ρ) : Prop := a.toOption = b.toOption

/-! ## Lines and events -/

section

variable {parse : List Char → Option JsonValue} {p : Parts} {line text : List Char}

/-- What a line adds is its event. -/
theorem assembleLine_eq :
    assembleLine parse p line =
      match event parse line with
      | some (d, chunk) => addChunk p d chunk
      | none => .ok p := by
  unfold assembleLine event
  cases (trimText line).dropPrefix? dataStart with
  | none => rfl
  | some d =>
      dsimp only
      by_cases hdone : trimText d = doneMark
      · rw [if_neg (by simpa using hdone), if_pos hdone]
      · rw [if_pos hdone, if_neg hdone]
        cases parse d with
        | none => rfl
        | some chunk => rfl

theorem streamLine_eq_assembleLine : streamLine parse p line = assembleLine parse p line := by
  unfold streamLine assembleLine
  cases (trimText line).dropPrefix? dataStart with
  | none => rfl
  | some d =>
      dsimp only
      by_cases hdone : trimText d = doneMark
      · rw [if_pos hdone, if_neg (by simpa using hdone)]
      · rw [if_neg hdone, if_pos hdone]

/-- The events that have been read add up. -/
def addEvents (p : Parts) (es : List (List Char × JsonValue)) : Except (List Char) Parts :=
  es.foldlM (fun p e => addChunk p e.1 e.2) p

theorem foldlM_assembleLine (ls : List (List Char)) :
    ls.foldlM (assembleLine parse) p = addEvents p (ls.filterMap (event parse)) := by
  unfold addEvents
  induction ls generalizing p with
  | nil => rfl
  | cons line rest ih =>
      rw [List.foldlM_cons, assembleLine_eq]
      cases hevent : event parse line with
      | none =>
          rw [List.filterMap_cons_none hevent]
          exact ih
      | some e =>
          rw [List.filterMap_cons_some hevent, List.foldlM_cons]
          exact bind_congr fun p' => ih

theorem foldlM_streamLine (ls : List (List Char)) :
    ls.foldlM (streamLine parse) p = addEvents p (ls.filterMap (event parse)) := by
  rw [← foldlM_assembleLine]
  have hsame : streamLine parse = assembleLine parse := by
    funext p line
    exact streamLine_eq_assembleLine
  rw [hsame]

/-! ## The buffer -/

theorem cutLines_append (a b : List Char) :
    cutLines (a ++ b) =
      ((cutLines a).1 ++ (cutLines ((cutLines a).2 ++ b)).1,
        (cutLines ((cutLines a).2 ++ b)).2) := by
  induction a with
  | nil => rfl
  | cons c rest ih =>
      rw [List.cons_append, cutLines, cutLines, ih]
      by_cases hc : c = '\n'
      · rw [if_pos hc, if_pos hc]
        rfl
      · rw [if_neg hc, if_neg hc]
        cases hlines : (cutLines rest).1 with
        | cons line more => rfl
        | nil =>
            dsimp only
            rw [List.nil_append, List.nil_append, List.cons_append, cutLines, if_neg hc]

theorem cutLines_rest (b : List Char) : cutLines (cutLines b).2 = ([], (cutLines b).2) := by
  induction b with
  | nil => rfl
  | cons c rest ih =>
      rw [cutLines]
      by_cases hc : c = '\n'
      · rw [if_pos hc]
        exact ih
      · rw [if_neg hc]
        cases hlines : (cutLines rest).1 with
        | cons line more => exact ih
        | nil =>
            dsimp only
            rw [cutLines, if_neg hc, ih]

theorem addEvents_append (a b : List (List Char × JsonValue)) :
    addEvents p (a ++ b) = addEvents p a >>= fun p' => addEvents p' b := by
  unfold addEvents
  rw [List.foldlM_append]

/-- The pieces are read as their texts together would be. -/
theorem foldlM_streamPiece (pieces : List (List UInt8)) (b : List Char) :
    pieces.foldlM (streamPiece parse) (p, (cutLines b).2) =
      (addEvents p ((cutLines ((cutLines b).2 ++ pieces.flatMap fromUtf8Lossy)).1.filterMap
        (event parse))) >>=
        fun p' => .ok (p', (cutLines ((cutLines b).2 ++ pieces.flatMap fromUtf8Lossy)).2) := by
  induction pieces generalizing p b with
  | nil =>
      rw [List.flatMap_nil, List.append_nil, cutLines_rest]
      rfl
  | cons bytes rest ih =>
      rw [List.flatMap_cons, ← List.append_assoc, cutLines_append, List.filterMap_append,
        addEvents_append, List.foldlM_cons]
      unfold streamPiece
      dsimp only
      rw [foldlM_streamLine, bind_assoc, bind_assoc]
      refine bind_congr fun p' => ?_
      rw [pure_bind]
      exact ih _

/-- An attempt adds up the events of the lines that the decoded pieces complete. -/
theorem streamAttempt_eq {ρ : Type} (deserialize : Assembled → Except (List Char) ρ)
    (pieces : List (List UInt8)) :
    streamAttempt parse deserialize pieces =
      addEvents Parts.start
        ((cutLines (pieces.flatMap fromUtf8Lossy)).1.filterMap (event parse)) >>=
        finish deserialize := by
  have hpieces := @foldlM_streamPiece parse Parts.start pieces []
  have hstart : (cutLines []).2 = [] := rfl
  rw [hstart, List.nil_append] at hpieces
  unfold streamAttempt
  rw [hpieces, bind_assoc]
  rfl

theorem assembleSseResponse_eq {ρ : Type} (deserialize : Assembled → Except (List Char) ρ)
    (text : List Char) :
    assembleSseResponse parse deserialize text =
      addEvents Parts.start ((lines text).filterMap (event parse)) >>= finish deserialize := by
  unfold assembleSseResponse
  rw [foldlM_assembleLine]

/-! ## Whole pieces -/

theorem trimText_append_return (l : List Char) : trimText (l ++ ['\r']) = trimText l := by
  have hreturn : isWhitespace '\r' = true := by decide
  unfold trimText trimStart
  rw [List.dropWhile_append]
  split
  next hempty =>
    rw [List.isEmpty_iff] at hempty
    rw [hempty, List.dropWhile_cons_of_pos hreturn]
    rfl
  next hsays =>
    unfold trimEndMatches
    rw [List.rdropWhile_concat_pos _ _ _ hreturn]

theorem event_stripCr (line : List Char) : event parse (stripCr line) = event parse line := by
  unfold stripCr
  split
  next hlast =>
    obtain ⟨front, rfl⟩ := List.getLast?_eq_some_iff.mp hlast
    unfold event
    rw [List.dropLast_concat, trimText_append_return]
  next => rfl

theorem cutLines_line {line : List Char} (h : '\n' ∉ line) : cutLines line = ([], line) := by
  induction line with
  | nil => rfl
  | cons c rest ih =>
      rw [List.mem_cons, not_or] at h
      rw [cutLines, if_neg (fun hc => h.1 hc.symm), ih h.2]

theorem cutLines_newline {line : List Char} (h : '\n' ∉ line) (rest : List Char) :
    cutLines (line ++ '\n' :: rest) = (line :: (cutLines rest).1, (cutLines rest).2) := by
  induction line with
  | nil => rw [List.nil_append, cutLines, if_pos rfl]
  | cons c more ih =>
      rw [List.mem_cons, not_or] at h
      rw [List.cons_append, cutLines, if_neg (fun hc => h.1 hc.symm), ih h.2]

theorem event_nil : event parse [] = none := rfl

/-- The events of the lines of a text, with the line that does not end. -/
theorem linesFrom_events (line text : List Char) (hline : '\n' ∉ line) :
    (linesFrom line text).filterMap (event parse) =
      (cutLines (line ++ text)).1.filterMap (event parse) ++
        (event parse (cutLines (line ++ text)).2).toList := by
  induction text generalizing line with
  | nil =>
      rw [List.append_nil, cutLines_line hline, linesFrom, List.filterMap_nil, List.nil_append]
      dsimp only
      split
      next hempty =>
        rw [List.isEmpty_iff.mp hempty, event_nil]
        rfl
      next =>
        cases hevent : event parse line with
        | none => rw [List.filterMap_cons_none hevent]; rfl
        | some e => rw [List.filterMap_cons_some hevent]; rfl
  | cons c rest ih =>
      rw [linesFrom]
      by_cases hc : c = '\n'
      · subst hc
        have hrest := ih [] List.not_mem_nil
        rw [List.nil_append] at hrest
        rw [if_pos rfl, cutLines_newline hline]
        dsimp only
        cases hevent : event parse line with
        | none =>
            rw [List.filterMap_cons_none (event_stripCr line ▸ hevent),
              List.filterMap_cons_none hevent, hrest]
        | some e =>
            rw [List.filterMap_cons_some (event_stripCr line ▸ hevent),
              List.filterMap_cons_some hevent, hrest, List.cons_append]
      · have hnew : '\n' ∉ line ++ [c] := by
          rw [List.mem_append, List.mem_singleton, not_or]
          exact ⟨hline, fun h => hc h.symm⟩
        rw [if_neg hc, ih _ hnew, List.append_assoc, List.singleton_append]

theorem firstChar_encode (c : Char) (rest : List UInt8) :
    firstChar (String.utf8EncodeChar c ++ rest) = some c := by
  unfold firstChar
  rw [List.toByteArray_append]
  exact ByteArray.utf8DecodeChar?_utf8EncodeChar_append

theorem lossyFrom_utf8 (text : List Char) {fuel : Nat} (h : (utf8 text).length ≤ fuel) :
    lossyFrom fuel (utf8 text) = text := by
  induction text generalizing fuel with
  | nil => cases fuel <;> rfl
  | cons c rest ih =>
      have hlength : (String.utf8EncodeChar c).length = c.utf8Size := by simp
      have hpos := c.utf8Size_pos
      unfold utf8 at h ih ⊢
      rw [List.flatMap_cons, List.length_append] at h
      cases fuel with
      | zero => omega
      | succ fuel =>
          cases hbytes : String.utf8EncodeChar c with
          | nil =>
              rw [hbytes] at hlength
              simp at hlength
              omega
          | cons b more =>
              have hfirst := firstChar_encode c (rest.flatMap String.utf8EncodeChar)
              rw [hbytes, List.cons_append] at hfirst
              have hdrop : ((b :: more) ++ rest.flatMap String.utf8EncodeChar).drop c.utf8Size =
                  rest.flatMap String.utf8EncodeChar := by
                rw [← hbytes, ← hlength, List.drop_left]
              rw [List.flatMap_cons, hbytes, List.cons_append, lossyFrom, hfirst]
              dsimp only
              rw [← List.cons_append, hdrop, ih (by omega)]

/-- What is UTF-8 is decoded to its text. -/
theorem fromUtf8Lossy_utf8 (text : List Char) : fromUtf8Lossy (utf8 text) = text :=
  lossyFrom_utf8 text (le_refl _)

theorem utf8_append (a b : List Char) : utf8 (a ++ b) = utf8 a ++ utf8 b := by
  unfold utf8
  rw [List.flatMap_append]

/-- Pieces of whole characters are the text. -/
theorem decoded_of_characters {text : List Char} {pieces : List (List UInt8)}
    (h : ∀ piece ∈ pieces, ∃ part, piece = utf8 part) (hpieces : pieces.flatten = utf8 text) :
    pieces.flatMap fromUtf8Lossy = text := by
  have hparts : ∀ ps : List (List UInt8), (∀ piece ∈ ps, ∃ part, piece = utf8 part) →
      ps.flatten = utf8 (ps.flatMap fromUtf8Lossy) := by
    intro ps hps
    induction ps with
    | nil => rfl
    | cons piece rest ih =>
        rw [List.forall_mem_cons] at hps
        obtain ⟨⟨part, rfl⟩, hrest⟩ := hps
        rw [List.flatten_cons, List.flatMap_cons, fromUtf8Lossy_utf8, utf8_append, ih hrest]
  have hsame := (hparts pieces h).symm.trans hpieces
  rw [← fromUtf8Lossy_utf8 (pieces.flatMap fromUtf8Lossy), hsame, fromUtf8Lossy_utf8]

/-- Pieces that are whole have the events of the text. -/
theorem sameEvents_of_whole {text : List Char} {pieces : List (List UInt8)}
    (h : Whole parse text pieces) (hpieces : pieces.flatten = utf8 text) :
    SameEvents parse text pieces := by
  unfold SameEvents lines
  rw [decoded_of_characters h.characters hpieces, linesFrom_events [] text List.not_mem_nil,
    List.nil_append, h.lastLine, Option.toList_none, List.append_nil]

end

def contentChunk (content : String) : JsonValue :=
  .obj [("choices".toList,
    .arr [.obj [("delta".toList, .obj [("content".toList, .str content.toList)])]])]

def contentData (content : String) : List Char :=
  "\x7b\"choices\":[\x7b\"delta\":\x7b\"content\":\"".toList ++ content.toList ++
    "\"\x7d\x7d]\x7d".toList

/-- The parser on the events with these contents. -/
def parseContents (contents : List String) (data : List Char) : Option JsonValue :=
  (contents.find? (fun c => contentData c = data)).map contentChunk

def contentLine (content : String) : List Char := dataStart ++ contentData content

/-- A text in two pieces. -/
def cutAt (n : Nat) (text : List Char) : List (List UInt8) :=
  [(utf8 text).take n, (utf8 text).drop n]

end Lightfriend.StreamedAnswer
