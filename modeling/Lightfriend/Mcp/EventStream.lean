import Lightfriend.Core.JsonValue
import Lightfriend.Core.Split
import Lightfriend.Core.Trim

/-! # The answer in an event stream

The server of a tool answers a request in a stream of events, each of which carries
one message. The client takes the first line of data that reads as a response, and
looks neither at the id nor at the other lines of the event.
-/

namespace Lightfriend.Mcp.EventStream

open Text

/-! ## Messages -/

structure JsonRpcError where
  code : Int
  message : List Char
  data : Option JsonValue

structure JsonRpcResponse where
  jsonrpc : List Char
  id : Option Int
  result : Option JsonValue
  error : Option JsonRpcError

namespace JsonValue

/-- The value of a field that a structure has; a field that is there twice is an error. -/
def field (name : String) (fields : List (List Char × JsonValue)) : Option (Option JsonValue) :=
  match fields.filter (fun f => f.1 = name.toList) with
  | [] => some none
  | [f] => some (some f.2)
  | _ :: _ :: _ => none

/-- An optional field: it may be missing or null. -/
def optional {α : Type} (read : JsonValue → Option α) : Option JsonValue → Option (Option α)
  | none => some none
  | some .null => some none
  | some j => (read j).map some

def errorOf (code message : JsonValue) (data : Option JsonValue) : Option JsonRpcError := do
  let code ← JsonValue.asI64 code
  let message ← JsonValue.asString message
  let data ← optional some data
  return ⟨code, message, data⟩

/-- `JsonRpcError`: an object, or an array of the fields in order. -/
def asError : JsonValue → Option JsonRpcError
  | .obj fields => do
      let code ← (← field "code" fields)
      let message ← (← field "message" fields)
      errorOf code message (← field "data" fields)
  | .arr [code, message] => errorOf code message none
  | .arr [code, message, data] => errorOf code message (some data)
  | _ => none

def responseOf (jsonrpc : JsonValue) (id result error : Option JsonValue) :
    Option JsonRpcResponse := do
  let jsonrpc ← JsonValue.asString jsonrpc
  let id ← optional JsonValue.asI64 id
  let result ← optional some result
  let error ← optional asError error
  return ⟨jsonrpc, id, result, error⟩

/-- `JsonRpcResponse`: other fields are ignored. -/
def asResponse : JsonValue → Option JsonRpcResponse
  | .obj fields => do
      let jsonrpc ← (← field "jsonrpc" fields)
      responseOf jsonrpc (← field "id" fields) (← field "result" fields) (← field "error" fields)
  | .arr [jsonrpc, id] => responseOf jsonrpc (some id) none none
  | .arr [jsonrpc, id, result] => responseOf jsonrpc (some id) (some result) none
  | .arr [jsonrpc, id, result, error] => responseOf jsonrpc (some id) (some result) (some error)
  | _ => none

end JsonValue

/-! ## The stream -/

def dataName : List Char := "data".toList

def dataSpace : List Char := "data: ".toList

/-- The lines of a stream, which end in a carriage return, a line feed or both. A last line that
does not end is none. -/
def streamLines (line : List Char) : List Char → List (List Char)
  | [] => []
  | '\r' :: '\n' :: rest => line :: streamLines [] rest
  | c :: rest =>
      if c = '\n' ∨ c = '\r' then line :: streamLines [] rest else streamLines (line ++ [c]) rest

/-- What a data field of a stream says: one space behind the colon does not count. -/
def dataField (line : List Char) : Option (List Char) :=
  match splitOnce ':' line with
  | some (name, value) =>
      if name = dataName then some (if value.head? = some ' ' then value.tail else value) else none
  | none => if line = dataName then some [] else none

/-- The data of the events: a blank line ends an event, whose data fields are the lines of its
data. -/
def eventsFrom (fields : List (List Char)) : List (List Char) → List (List Char)
  | [] => []
  | line :: rest =>
      if line = [] then
        if fields = [] then eventsFrom [] rest
        else joinWith '\n' fields :: eventsFrom [] rest
      else
        match dataField line with
        | some value => eventsFrom (fields ++ [value]) rest
        | none => eventsFrom fields rest

def events (text : List Char) : List (List Char) := eventsFrom [] (streamLines [] text)

/-! ## The client -/

/-- The parser of JSON, and what the grammar says of it: outside a string a line break is a blank,
and no value begins with a letter d; and blanks are no value. -/
structure Reader where
  parse : List Char → Option JsonValue
  not_data : ∀ text line, line ∈ streamLines [] text → dataName <+: line → parse text = none
  not_blank : ∀ text, trimText text = [] → parse text = none

namespace Reader

variable (reader : Reader)

/-- `serde_json::from_str::<JsonRpcResponse>`. -/
def read (text : List Char) : Option JsonRpcResponse :=
  (reader.parse text).bind JsonValue.asResponse

/-- What the client takes of a line. -/
def takeLine (line : List Char) : Option JsonRpcResponse :=
  match line.dropPrefix? dataSpace with
  | some data => if trimText data = [] then none else reader.read data
  | none => none

def parseSseResponse (text : List Char) : Option JsonRpcResponse :=
  match (lines text).findSome? reader.takeLine with
  | some response => some response
  | none => reader.read text

end Reader

/-! ## The meaning -/

/-- A request or a notification: it has a method. -/
def Calls (j : JsonValue) : Prop :=
  ∃ fields, j = .obj fields ∧ JsonValue.field "jsonrpc" fields = some (some (.str "2.0".toList)) ∧
    ∃ name, JsonValue.field "method" fields = some (some (.str name))

/-- A response to the id, with a result or an error. -/
def Answers (id : JsonValue) (j : JsonValue) : Prop :=
  ∃ fields, j = .obj fields ∧ JsonValue.field "jsonrpc" fields = some (some (.str "2.0".toList)) ∧
    JsonValue.field "method" fields = some none ∧ JsonValue.field "id" fields = some (some id) ∧
    ((∃ result, JsonValue.field "result" fields = some (some result)) ∨
      ∃ error, JsonValue.field "error" fields = some (some error))

/-- The events are messages, exactly one of which is a response to the id of the request. -/
structure Stream (reader : Reader) (id : Int) (text : List Char) (answer : JsonRpcResponse) :
    Prop where
  parts : ∃ front back data j, events text = front ++ data :: back ∧ reader.parse data = some j ∧
    Answers (.int id) j ∧ JsonValue.asResponse j = some answer ∧
    ∀ other ∈ front ++ back, ∃ j, reader.parse other = some j ∧
      (Calls j ∨ ∃ id', Answers id' j ∧ id' ≠ .int id)

/-- Of the lines that say data with a space, the first that reads by itself as a response is the
answer. -/
def AnswerReadsFirst (reader : Reader) (text : List Char) (answer : JsonRpcResponse) : Prop :=
  ∃ front data back, lines text = front ++ (dataSpace ++ data) :: back ∧
    reader.read data = some answer ∧
    ∀ data', dataSpace ++ data' ∈ front → reader.read data' = none

section

variable {reader : Reader} {text line data : List Char} {answer : JsonRpcResponse}

theorem takeLine_eq_some :
    reader.takeLine line = some answer ↔
      ∃ data, line = dataSpace ++ data ∧ reader.read data = some answer := by
  unfold Reader.takeLine
  cases hdrop : line.dropPrefix? dataSpace with
  | none =>
      refine iff_of_false (by simp) ?_
      rintro ⟨data, hline, -⟩
      rw [dropPrefix_eq_some.mpr hline] at hdrop
      cases hdrop
  | some data =>
      have hline := dropPrefix_eq_some.mp hdrop
      dsimp only
      split
      next hblank =>
        refine iff_of_false (by simp) ?_
        rintro ⟨data', hline', hread⟩
        rw [hline, List.append_cancel_left_eq] at hline'
        rw [← hline', Reader.read, reader.not_blank data hblank] at hread
        cases hread
      next hsays =>
        constructor
        · exact fun hread => ⟨data, hline, hread⟩
        · rintro ⟨data', hline', hread⟩
          rw [hline, List.append_cancel_left_eq] at hline'
          rw [hline']
          exact hread

theorem dataField_starts (h : dataField line = some data) : dataName <+: line := by
  unfold dataField at h
  cases hsplit : splitOnce ':' line with
  | some parts =>
      obtain ⟨name, value⟩ := parts
      rw [hsplit] at h
      dsimp only at h
      rw [Option.ite_none_right_eq_some] at h
      rw [(splitOnce_eq_some.mp hsplit).1, h.1]
      exact List.prefix_append _ _
  | none =>
      rw [hsplit] at h
      dsimp only at h
      rw [Option.ite_none_right_eq_some] at h
      rw [h.1]

/-- An event has a line of data. -/
theorem exists_dataField {fields ls : List (List Char)} (hfields : fields = [])
    (h : eventsFrom fields ls ≠ []) : ∃ line ∈ ls, ∃ data, dataField line = some data := by
  induction ls generalizing fields with
  | nil => exact absurd rfl h
  | cons line rest ih =>
      subst hfields
      rw [eventsFrom] at h
      by_cases hblank : line = []
      · rw [if_pos hblank, if_pos rfl] at h
        obtain ⟨l, hl, hdata⟩ := ih rfl h
        exact ⟨l, List.mem_cons_of_mem _ hl, hdata⟩
      · rw [if_neg hblank] at h
        cases hdata : dataField line with
        | some value => exact ⟨line, List.mem_cons_self, value, hdata⟩
        | none =>
            rw [hdata] at h
            obtain ⟨l, hl, hdata⟩ := ih rfl h
            exact ⟨l, List.mem_cons_of_mem _ hl, hdata⟩

/-- A body with events is no JSON text. -/
theorem read_of_events (h : events text ≠ []) : reader.read text = none := by
  obtain ⟨line, hline, data, hdata⟩ := exists_dataField rfl h
  unfold Reader.read
  rw [reader.not_data text line hline (dataField_starts hdata), Option.bind_none]

/-- The client returns the first line of data that reads as a response. -/
theorem parseSseResponse_eq (h : events text ≠ []) :
    reader.parseSseResponse text = (lines text).findSome? reader.takeLine := by
  unfold Reader.parseSseResponse
  cases (lines text).findSome? reader.takeLine with
  | some response => rfl
  | none => exact read_of_events h

end

/-- Each message on a line of its own. -/
def plainStream (messages : List (List Char)) : List Char :=
  messages.flatMap (fun m => dataSpace ++ m ++ "\n\n".toList)

section Plain

variable {reader : Reader} {messages : List (List Char)}

/-- A message on one line. -/
def OneLine (m : List Char) : Prop := '\n' ∉ m ∧ '\r' ∉ m

theorem streamLines_append {line l : List Char} (hl : OneLine l) (rest : List Char) :
    streamLines line (l ++ '\n' :: rest) = (line ++ l) :: streamLines [] rest := by
  induction l generalizing line with
  | nil =>
      rw [List.nil_append, List.append_nil]
      rw [streamLines, if_pos (.inl rfl)]
      · intro _ h
        exact absurd h (by decide)
  | cons c l ih =>
      obtain ⟨hfeed, hreturn⟩ := hl
      rw [List.mem_cons, not_or] at hfeed hreturn
      rw [List.cons_append, streamLines, if_neg, ih ⟨hfeed.2, hreturn.2⟩, List.append_assoc,
        List.singleton_append]
      · rintro (h | h)
        · exact hfeed.1 h.symm
        · exact hreturn.1 h.symm
      · intro _ h
        exact absurd h.symm hreturn.1

theorem dataSpace_oneLine : OneLine dataSpace := by
  unfold OneLine dataSpace
  decide +kernel

theorem dataField_dataSpace (m : List Char) : dataField (dataSpace ++ m) = some m := by
  have hsplit : splitOnce ':' (dataSpace ++ m) = some (dataName, ' ' :: m) :=
    splitOnce_eq_some.mpr ⟨rfl, by decide +kernel⟩
  unfold dataField
  rw [hsplit]
  rfl

/-- The events of such a stream are the messages. -/
theorem events_plainStream (h : ∀ m ∈ messages, OneLine m) :
    events (plainStream messages) = messages := by
  unfold events plainStream
  induction messages with
  | nil => rfl
  | cons m rest ih =>
      rw [List.forall_mem_cons] at h
      have hline : OneLine (dataSpace ++ m) := by
        unfold OneLine at *
        rw [List.mem_append, List.mem_append, not_or, not_or]
        exact ⟨⟨dataSpace_oneLine.1, h.1.1⟩, dataSpace_oneLine.2, h.1.2⟩
      have hshape : dataSpace ++ m ++ "\n\n".toList ++
          rest.flatMap (fun m => dataSpace ++ m ++ "\n\n".toList) =
          (dataSpace ++ m) ++ '\n' :: ([] ++ '\n' ::
            rest.flatMap (fun m => dataSpace ++ m ++ "\n\n".toList)) := by
        simp
      have hempty : OneLine [] := ⟨List.not_mem_nil, List.not_mem_nil⟩
      rw [List.flatMap_cons, hshape, streamLines_append hline, streamLines_append hempty,
        List.nil_append, List.append_nil, eventsFrom, if_neg (by simp [dataSpace]),
        dataField_dataSpace]
      dsimp only
      rw [eventsFrom, if_pos rfl, if_neg (by simp), ih h.2]
      rfl

theorem lines_plainStream (h : ∀ m ∈ messages, OneLine m) :
    lines (plainStream messages) = messages.flatMap (fun m => [dataSpace ++ m, []]) := by
  unfold lines plainStream
  induction messages with
  | nil => rfl
  | cons m rest ih =>
      rw [List.forall_mem_cons] at h
      have hline : '\n' ∉ dataSpace ++ m := by
        rw [List.mem_append, not_or]
        exact ⟨dataSpace_oneLine.1, h.1.1⟩
      have hreturn : stripCr (dataSpace ++ m) = dataSpace ++ m := by
        refine if_neg fun hlast => ?_
        have hmem := List.mem_of_getLast? hlast
        rw [List.mem_append] at hmem
        rcases hmem with hmem | hmem
        · exact dataSpace_oneLine.2 hmem
        · exact h.1.2 hmem
      have hshape : dataSpace ++ m ++ "\n\n".toList ++
          rest.flatMap (fun m => dataSpace ++ m ++ "\n\n".toList) =
          (dataSpace ++ m) ++ '\n' :: '\n' ::
            rest.flatMap (fun m => dataSpace ++ m ++ "\n\n".toList) := by
        simp
      rw [List.flatMap_cons, hshape, linesFrom_append hline, List.nil_append, linesFrom,
        if_pos rfl, hreturn, linesFrom, if_pos rfl, ih h.2, List.flatMap_cons]
      rfl

/-- The client takes the first message that reads as a response, whatever it answers. -/
theorem parseSseResponse_plainStream (h : ∀ m ∈ messages, OneLine m) (hne : messages ≠ []) :
    reader.parseSseResponse (plainStream messages) = messages.findSome? reader.read := by
  have htake : ∀ m, reader.takeLine (dataSpace ++ m) = reader.read m := by
    intro m
    cases hread : reader.read m with
    | some answer => exact takeLine_eq_some.2 ⟨m, rfl, hread⟩
    | none =>
        cases htake : reader.takeLine (dataSpace ++ m) with
        | none => rfl
        | some answer =>
            obtain ⟨data, heq, hread'⟩ := takeLine_eq_some.1 htake
            rw [List.append_cancel_left_eq] at heq
            rw [heq, hread'] at hread
            cases hread
  have hblank : reader.takeLine [] = none := rfl
  rw [parseSseResponse_eq (by rw [events_plainStream h]; exact hne), lines_plainStream h]
  clear hne
  induction messages with
  | nil => rfl
  | cons m rest ih =>
      rw [List.forall_mem_cons] at h
      rw [List.flatMap_cons, List.findSome?_append, List.findSome?_cons, List.findSome?_cons, htake,
        hblank, ih h.2, List.findSome?_cons]
      cases reader.read m with
      | some answer => rfl
      | none => rfl

end Plain

/-! ## A notification before the answer -/

def logMessage : JsonValue :=
  .obj [("jsonrpc".toList, .str "2.0".toList),
    ("method".toList, .str "notifications/message".toList)]

def toolAnswer : JsonValue :=
  .obj [("jsonrpc".toList, .str "2.0".toList), ("id".toList, .int 2), ("result".toList, .obj [])]

def logText : List Char :=
  "\x7b\"jsonrpc\":\"2.0\",\"method\":\"notifications/message\"\x7d".toList

def answerText : List Char :=
  "\x7b\"jsonrpc\":\"2.0\",\"id\":2,\"result\":\x7b\x7d\x7d".toList

def answerOfTwo : JsonRpcResponse := ⟨"2.0".toList, some 2, some (.obj []), none⟩

theorem texts_oneLine : (OneLine logText ∧ OneLine answerText) ∧
    streamLines [] logText = [] ∧ streamLines [] answerText = [] ∧ trimText logText ≠ [] ∧
    trimText answerText ≠ [] ∧ answerText ≠ logText := by
  unfold OneLine
  decide +kernel

/-- The parser on the two messages. -/
def twoTexts : Reader where
  parse text :=
    if text = logText then some logMessage else if text = answerText then some toolAnswer else none
  not_data text line hline _ := by
    obtain ⟨-, hlog, hanswer, -⟩ := texts_oneLine
    rw [if_neg, if_neg]
    · rintro rfl
      rw [hanswer] at hline
      cases hline
    · rintro rfl
      rw [hlog] at hline
      cases hline
  not_blank text hblank := by
    obtain ⟨-, -, -, hlog, hanswer, -⟩ := texts_oneLine
    rw [if_neg, if_neg]
    · rintro rfl
      exact hanswer hblank
    · rintro rfl
      exact hlog hblank

theorem twoTexts_parse : twoTexts.parse logText = some logMessage ∧
    twoTexts.parse answerText = some toolAnswer := by
  unfold twoTexts
  dsimp only
  rw [if_pos rfl, if_neg texts_oneLine.2.2.2.2.2, if_pos rfl]
  exact ⟨rfl, rfl⟩

theorem stream_of_two {messages : List (List Char)}
    (h : messages = [logText, answerText] ∨ messages = [answerText, logText]) :
    Stream twoTexts 2 (plainStream messages) answerOfTwo := by
  have hall : ∀ m ∈ messages, OneLine m := by
    rcases h with rfl | rfl
    · simpa using texts_oneLine.1
    · simpa using texts_oneLine.1.symm
  have hanswers : Answers (.int 2) toolAnswer :=
    ⟨_, rfl, rfl, rfl, rfl, .inl ⟨_, rfl⟩⟩
  have hcalls : Calls logMessage := ⟨_, rfl, rfl, _, rfl⟩
  refine ⟨?_⟩
  rw [events_plainStream hall]
  rcases h with rfl | rfl
  · refine ⟨[logText], [], answerText, toolAnswer, rfl, twoTexts_parse.2, hanswers, rfl, ?_⟩
    intro other hother
    rw [List.append_nil, List.mem_singleton] at hother
    exact ⟨_, hother ▸ twoTexts_parse.1, .inl hcalls⟩
  · refine ⟨[], [logText], answerText, toolAnswer, rfl, twoTexts_parse.2, hanswers, rfl, ?_⟩
    intro other hother
    rw [List.nil_append, List.mem_singleton] at hother
    exact ⟨_, hother ▸ twoTexts_parse.1, .inl hcalls⟩

end Lightfriend.Mcp.EventStream
