import Lightfriend.Core.Machine
import Lightfriend.Core.Table
import Lightfriend.Core.Transition

/-! # Urgent alerts

The same event can reach a user through several messages. An urgent message is
settled without an alert when the history holds an equivalent one, or when
another classification holds the cooldown of its fingerprint. The entry of a
cooldown is taken before the alert is sent, and given up when sending fails.
-/

namespace Lightfriend.Proactive.UrgentAlert

/-! ## Fingerprints -/

/-- The tables of the standard library for all of Unicode. -/
structure Alphabet where
  lower : String → String
  isAlphanumeric : Char → Bool

/-- The length in UTF-8. -/
def byteLength (s : List Char) : Nat := (s.map Char.utf8Size).sum

/-- `split_whitespace`. -/
def splitWhitespace (s : List Char) : List String :=
  ((s.splitOnP isWhitespace).filter (fun w => !w.isEmpty)).map String.ofList

/-- `5pm` and `5` are one term. -/
def withoutMeridiem (term : String) : String :=
  let stem := term.toList.take (term.length - 2)
  if (endsWithText term "am" || endsWithText term "pm") && stem.all Char.isDigit then
    String.ofList stem
  else term

def commonTerms : List String :=
  ["a", "an", "and", "are", "as", "at", "be", "by", "email", "for", "from", "has", "have", "in",
    "is", "it", "lightfriend", "message", "new", "notification", "of", "on", "reply", "should",
    "signal", "telegram", "the", "this", "to", "until", "via", "wait", "was", "were", "whatsapp",
    "worth", "your"]

def canonicalTerm (alphabet : Alphabet) (term : String) : Option String :=
  let canonical := match withoutMeridiem (alphabet.lower term) with
    | "delayed" | "delays" => "delay"
    | "cancelled" | "canceled" | "cancellation" => "cancel"
    | "rescheduled" | "rescheduling" => "reschedule"
    | "arrived" | "arrives" | "arriving" | "arrival" => "arrive"
    | "departed" | "departs" | "departing" | "departure" => "depart"
    | "payments" | "paid" | "paying" => "payment"
    | "charges" | "charged" | "charging" => "charge"
    | "declined" | "declines" => "decline"
    | other => other
  if byteLength canonical.toList < 2 || decide (canonical ∈ commonTerms) then none
  else some canonical

/-- What stands before the first occurrence of a marker. -/
def beforeMarker (marker : List Char) : List Char → List Char
  | [] => []
  | c :: rest =>
      if marker.isPrefixOf (c :: rest) then [] else c :: beforeMarker marker rest

/-- The alert without what the sender of the notification adds. -/
def semanticPart (alert : String) : List Char :=
  let untilReply := beforeMarker "\n\nReply 1=".toList alert.toList
  let untilRef := beforeMarker " [email_ref ".toList alert.toList
  (trim (String.ofList (if untilReply.length ≤ untilRef.length then untilReply else untilRef))).toList

/-- Drops a short label of the sender. -/
def withoutSender (semantic : List Char) : List Char :=
  let label := semantic.takeWhile (· ≠ ':')
  if ':' ∈ semantic ∧ byteLength label < 32 ∧ (splitWhitespace label).length ≤ 4 ∧
      label.any Char.isDigit = false then
    (trim (String.ofList ((semantic.dropWhile (· ≠ ':')).drop 1))).toList
  else semantic

@[irreducible] def alertEventFingerprint (alphabet : Alphabet) (alert : String) : String :=
  let words := ((withoutSender (semanticPart alert)).splitOnP
    (fun c => !alphabet.isAlphanumeric c)).filter (fun w => !w.isEmpty)
  " ".intercalate (orderBy (· ≤ ·)
    (words.filterMap (fun w => canonicalTerm alphabet (String.ofList w))).dedup)

def hasDigit (term : String) : Bool := term.toList.any Char.isDigit

/-- The ratios of the source are 0.65 and 0.45. -/
def alertsSubstantiallyEquivalent (alphabet : Alphabet) (left right : String) : Bool :=
  let leftFingerprint := alertEventFingerprint alphabet left
  let rightFingerprint := alertEventFingerprint alphabet right
  if leftFingerprint = "" ∨ rightFingerprint = "" then false
  else if leftFingerprint = rightFingerprint then
    decide (2 ≤ (splitWhitespace leftFingerprint.toList).length)
  else
    let leftTerms := (splitWhitespace leftFingerprint.toList).dedup
    let rightTerms := (splitWhitespace rightFingerprint.toList).dedup
    let shared := (leftTerms.filter (fun t => t ∈ rightTerms)).length
    let leftDetails := leftTerms.filter hasDigit
    let rightDetails := rightTerms.filter hasDigit
    if shared < 3 then false
    else if leftDetails ≠ [] ∧ rightDetails ≠ [] ∧ ∀ t ∈ leftDetails, t ∉ rightDetails then false
    else
      let smaller := min leftTerms.length rightTerms.length
      let union := leftTerms.length + rightTerms.length - shared
      decide (65 * smaller ≤ 100 * shared ∧ 45 * union ≤ 100 * shared)

/-! ## The history -/

structure HistoryMessage where
  role : String
  content : String
  createdAt : Int
  hasToolCalls : Bool
  /-- Has the text reached the user? No code reads this. -/
  reached : Bool
deriving DecidableEq, Repr

def cooldownSecs : Int := 3600
def historyWindowSecs : Int := 48 * 3600
def historyMaxMessages : Nat := 200
def historyMaxCharacters : Nat := 40000

/-- The messages that fit in what remains of the characters; the last one is cut. -/
def takeHistory : Nat → List HistoryMessage → List HistoryMessage
  | _, [] => []
  | remaining, m :: rest =>
      if m.role = "assistant" ∧ m.content = "" ∧ m.hasToolCalls = false then
        takeHistory remaining rest
      else if remaining < m.content.length then
        if remaining = 0 then []
        else [{ m with content := String.ofList (m.content.toList.take remaining) }]
      else if remaining = m.content.length then [m]
      else m :: takeHistory (remaining - m.content.length) rest

def getConversationHistory (history : List HistoryMessage) (now : Int) : List HistoryMessage :=
  takeHistory historyMaxCharacters
    ((orderBy (fun a b => b.createdAt ≤ a.createdAt)
      (history.filter (fun m => now - historyWindowSecs ≤ m.createdAt))).take historyMaxMessages)

/-- Is the message an alert of the last hour that says the same? -/
def recentEquivalent (alphabet : Alphabet) (alert : String) (now : Int) (m : HistoryMessage) :
    Bool :=
  decide (m.role = "assistant") && decide (now - cooldownSecs ≤ m.createdAt) &&
    alertsSubstantiallyEquivalent alphabet alert m.content

def hasRecentEquivalentAlert (alphabet : Alphabet) (alert : String)
    (recentHistory : List HistoryMessage) (now : Int) : Bool :=
  recentHistory.any (recentEquivalent alphabet alert now)

/-- The text that the history gets: the notification, the rating, and a reference. -/
def historyNotification (alert reference : String) : String :=
  let outbound := String.ofList (alert.toList.reverse.dropWhile isWhitespace).reverse ++
    "\n\nReply 1=worth it, 2=should wait."
  if trim reference = "" then outbound else outbound ++ " " ++ trim reference

/-! ## The classifications of a user -/

/-- How `send_notification_with_context` ends: quiet mode counts as delivered. -/
inductive Outcome
  | sent
  | suppressed
  | failed
deriving DecidableEq, Repr

/-- A run of `run_urgency_classification` that has not decided yet. -/
structure Call where
  number : Nat
  now : Int
  recentHistory : Option (List HistoryMessage)
deriving DecidableEq, Repr

/-- An alert whose sending has begun. -/
structure Alert where
  number : Nat
  now : Int
  startedAt : Int
  text : String
  outcome : Option Outcome
deriving DecidableEq, Repr

/-- A message that was marked as handled: by the history, or by the entry that was held. -/
structure Settled where
  now : Int
  text : String
  held : Option Int
deriving DecidableEq, Repr

/-- A text that has reached the user. -/
structure Told where
  toldAt : Int
  text : String
deriving DecidableEq, Repr

structure State where
  clock : Int
  history : List HistoryMessage
  /-- `system_notify_cooldowns` of the user. -/
  cooldowns : String → Option Int
  calls : List Call
  nextNumber : Nat
  alerts : List Alert
  settled : List Settled
  told : List Told

def init : State := ⟨0, [], fun _ => none, [], 0, [], [], []⟩

namespace State

def call? (s : State) (number : Nat) : Option Call := s.calls.find? (fun c => c.number = number)

/-- The alert of a number that is still being sent. -/
def sending? (s : State) (number : Nat) : Option Alert :=
  s.alerts.find? (fun a => a.number = number ∧ a.outcome = none)

def start (s : State) : State :=
  { s with calls := s.calls ++ [⟨s.nextNumber, s.clock, none⟩], nextNumber := s.nextNumber + 1 }

def leave (s : State) (c : Call) : State := { s with calls := s.calls.erase c }

/-- The history that a call works with; none of it where the query fails. -/
def readHistory (s : State) (c : Call) (answered : Bool) : State :=
  { s.leave c with
    calls := s.calls.erase c ++ [{ c with
      recentHistory := some (if answered then getConversationHistory s.history s.clock else []) }] }

def settle (s : State) (e : Settled) : State := { s with settled := e :: s.settled }

def hold (s : State) (fingerprint : String) (now : Int) : State :=
  { s with cooldowns := Function.update s.cooldowns fingerprint (some now) }

def send (s : State) (c : Call) (text : String) : State :=
  { s with alerts := s.alerts ++ [⟨c.number, c.now, s.clock, text, none⟩] }

/-- From the check of the history to the begin of sending. -/
def decideAlert (alphabet : Alphabet) (s : State) (c : Call) (recentHistory : List HistoryMessage)
    (text : String) : State :=
  let fingerprint := alertEventFingerprint alphabet text
  if text = "" then s.leave c
  else if hasRecentEquivalentAlert alphabet text recentHistory c.now then
    (s.leave c).settle ⟨c.now, text, none⟩
  else if fingerprint = "" then (s.leave c).send c text
  else
    match s.cooldowns fingerprint with
    | some heldAt =>
        if c.now - heldAt < cooldownSecs then (s.leave c).settle ⟨c.now, text, some heldAt⟩
        else ((s.leave c).hold fingerprint c.now).send c text
    | none => ((s.leave c).hold fingerprint c.now).send c text

def finish (s : State) (a : Alert) (outcome : Outcome) : State :=
  { s with alerts := s.alerts.map (fun b =>
      if b = a then { b with outcome := some outcome } else b) }

def tell (s : State) (text : String) : State := { s with told := ⟨s.clock, text⟩ :: s.told }

def remember (s : State) (m : HistoryMessage) : State := { s with history := s.history ++ [m] }

/-- The end of sending; the history may lack the text. -/
def sendEnds (alphabet : Alphabet) (s : State) (a : Alert) (reference : String) (stored : Bool) :
    Outcome → State
  | .sent =>
      let text := historyNotification a.text reference
      let told := (s.finish a .sent).tell text
      if stored then told.remember ⟨"assistant", text, a.startedAt, false, true⟩ else told
  | .suppressed => s.finish a .suppressed
  | .failed =>
      let fingerprint := alertEventFingerprint alphabet a.text
      if fingerprint = "" then s.finish a .failed
      else { s.finish a .failed with cooldowns := Function.update s.cooldowns fingerprint none }

end State

inductive Action
  | tick (seconds : Nat)
  /-- Another message of the history, which may have reached the user or not. -/
  | converse (m : HistoryMessage)
  | start
  | readHistory (number : Nat) (answered : Bool)
  /-- The message is urgent and unseen. -/
  | decide (number : Nat) (text : String)
  /-- It is not, or the call fails. -/
  | drop (number : Nat)
  | sendEnds (number : Nat) (reference : String) (stored : Bool) (outcome : Outcome)
deriving DecidableEq, Repr

def step (alphabet : Alphabet) (s : State) : Action → Option State
  | .tick seconds => some { s with clock := s.clock + seconds }
  | .converse m =>
      if m.createdAt ≤ s.clock then
        some (if m.reached then (s.remember m).tell m.content else s.remember m)
      else none
  | .start => some s.start
  | .readHistory number answered =>
      (s.call? number).bind (fun c =>
        if c.recentHistory = none then some (s.readHistory c answered) else none)
  | .decide number text =>
      (s.call? number).bind (fun c => c.recentHistory.map (fun h => s.decideAlert alphabet c h text))
  | .drop number => (s.call? number).map s.leave
  | .sendEnds number reference stored outcome =>
      (s.sending? number).map (fun a => s.sendEnds alphabet a reference stored outcome)

/-! ## What is promised -/

/-- Sent, or still being sent. -/
def Alert.live (a : Alert) : Bool := decide (a.outcome = none ∨ a.outcome = some .sent)

def Alert.fingerprint (alphabet : Alphabet) (a : Alert) : String :=
  alertEventFingerprint alphabet a.text

/-- For a message that was settled an equivalent text reached the user within the window, or an
alert with its fingerprint has been sent or is being sent. -/
def Covered (alphabet : Alphabet) (s : State) : Prop :=
  ∀ e ∈ s.settled,
    (∃ t ∈ s.told, e.now - cooldownSecs ≤ t.toldAt ∧
      ∃ n, alertsSubstantiallyEquivalent alphabet e.text (String.ofList (t.text.toList.take n))) ∨
    ∃ a ∈ s.alerts, a.fingerprint alphabet = alertEventFingerprint alphabet e.text ∧
      e.now < a.now + cooldownSecs ∧ a.live

/-- Alerts of one fingerprint that were sent began a window apart. -/
def Spaced (alphabet : Alphabet) (s : State) : Prop :=
  s.alerts.Pairwise (fun a b => a.outcome = some .sent → b.outcome = some .sent →
    a.fingerprint alphabet = b.fingerprint alphabet → a.now + cooldownSecs ≤ b.now)

/-- The alert is a window older than the time, or of another fingerprint, or has ended unsent. -/
def Past (alphabet : Alphabet) (fingerprint : String) (now : Int) (a : Alert) : Prop :=
  a.fingerprint alphabet = fingerprint → a.live → a.now + cooldownSecs ≤ now

instance (alphabet : Alphabet) (fingerprint : String) (now : Int) (a : Alert) :
    Decidable (Past alphabet fingerprint now a) :=
  inferInstanceAs (Decidable (_ → _ → _))

/-- What a call that is about to decide can rely on: an equivalent message of its history has
reached the user; the entry that holds it off is not that of a suppressed alert; and where no entry
holds it off, no alert of the fingerprint is within the window. -/
def Founded (alphabet : Alphabet) (s : State) (c : Call) (recentHistory : List HistoryMessage)
    (text : String) : Prop :=
  let fingerprint := alertEventFingerprint alphabet text
  if hasRecentEquivalentAlert alphabet text recentHistory c.now then
    ∃ m ∈ recentHistory, recentEquivalent alphabet text c.now m ∧ m.reached
  else if fingerprint = "" then ∀ a ∈ s.alerts, Past alphabet fingerprint c.now a
  else
    (∀ heldAt ∈ s.cooldowns fingerprint, c.now - heldAt < cooldownSecs → ∀ a ∈ s.alerts,
        a.fingerprint alphabet = fingerprint → a.now = heldAt → a.outcome ≠ some .suppressed) ∧
      (s.cooldowns fingerprint = none → ∀ a ∈ s.alerts, Past alphabet fingerprint c.now a)

instance (alphabet : Alphabet) (s : State) (c : Call) (recentHistory : List HistoryMessage)
    (text : String) : Decidable (Founded alphabet s c recentHistory text) := by
  unfold Founded
  infer_instance

/-- A send ends undelivered only where no message was settled by its entry, and what decides is
founded. -/
def InOrder (alphabet : Alphabet) (s : State) : Action → Prop
  | .decide number text => ∀ c ∈ s.call? number, ∀ h ∈ c.recentHistory, text ≠ "" →
      Founded alphabet s c h text
  | .sendEnds number _ _ outcome => outcome ≠ .sent → ∀ a ∈ s.sending? number,
      ∀ e ∈ s.settled, alertEventFingerprint alphabet e.text = a.fingerprint alphabet →
        e.held ≠ some a.now
  | _ => True

instance (alphabet : Alphabet) (s : State) (a : Action) : Decidable (InOrder alphabet s a) := by
  cases a <;> unfold InOrder <;> infer_instance

/-! ## The invariant -/

/-- A text of which a prefix is the content reached the user since then. -/
def ToldSince (s : State) (time : Int) (content : String) : Prop :=
  ∃ t ∈ s.told, time ≤ t.toldAt ∧ ∃ n, content = String.ofList (t.text.toList.take n)

/-- What a message was settled by has reached the user, or is live. -/
def Upheld (alphabet : Alphabet) (s : State) (e : Settled) : Prop :=
  match e.held with
  | none => ∃ content, ToldSince s (e.now - cooldownSecs) content ∧
      alertsSubstantiallyEquivalent alphabet e.text content
  | some heldAt => e.now < heldAt + cooldownSecs ∧ ∃ a ∈ s.alerts,
      a.fingerprint alphabet = alertEventFingerprint alphabet e.text ∧ a.now = heldAt ∧ a.live

structure Inv (alphabet : Alphabet) (s : State) : Prop where
  history : ∀ m ∈ s.history, m.reached = true → ToldSince s m.createdAt m.content
  snapshots : ∀ c ∈ s.calls, ∀ h, c.recentHistory = some h →
    ∀ m ∈ h, m.reached = true → ToldSince s m.createdAt m.content
  began : ∀ a ∈ s.alerts, a.startedAt ≤ s.clock
  noEmpty : s.cooldowns "" = none
  entry : ∀ fingerprint heldAt, s.cooldowns fingerprint = some heldAt → ∃ a ∈ s.alerts,
    a.fingerprint alphabet = fingerprint ∧ a.now = heldAt ∧ a.outcome ≠ some .failed
  latest : ∀ a ∈ s.alerts, a.live = true → ∀ heldAt,
    s.cooldowns (a.fingerprint alphabet) = some heldAt → a.now ≤ heldAt
  spaced : s.alerts.Pairwise (fun a b => a.live = true → b.live = true →
    a.fingerprint alphabet = b.fingerprint alphabet → a.now + cooldownSecs ≤ b.now)
  upheld : ∀ e ∈ s.settled, Upheld alphabet s e

variable {alphabet : Alphabet} {s t : State}

theorem inv_init : Inv alphabet init where
  history := fun _ h => by cases h
  snapshots := fun _ h => by cases h
  began := fun _ h => by cases h
  noEmpty := rfl
  entry := fun _ _ h => by cases h
  latest := fun _ h => by cases h
  spaced := List.Pairwise.nil
  upheld := fun _ h => by cases h

theorem ToldSince.mono {time : Int} {content : String} (h : ToldSince s time content)
    (htold : ∀ x ∈ s.told, x ∈ t.told) : ToldSince t time content := by
  obtain ⟨x, hx, hrest⟩ := h
  exact ⟨x, htold x hx, hrest⟩

theorem Upheld.mono {e : Settled} (h : Upheld alphabet s e) (htold : ∀ x ∈ s.told, x ∈ t.told)
    (halerts : ∀ a ∈ s.alerts, a ∈ t.alerts) : Upheld alphabet t e := by
  unfold Upheld at h ⊢
  split at h
  · obtain ⟨content, hsince, hequiv⟩ := h
    exact ⟨content, hsince.mono htold, hequiv⟩
  · obtain ⟨hnow, a, ha, hrest⟩ := h
    exact ⟨hnow, a, halerts a ha, hrest⟩

/-- A cut message of the history is a prefix of one that is there. -/
theorem mem_takeHistory {remaining : Nat} {rows : List HistoryMessage} {m : HistoryMessage}
    (h : m ∈ takeHistory remaining rows) : ∃ r ∈ rows, m.createdAt = r.createdAt ∧
      m.reached = r.reached ∧ ∃ n, m.content = String.ofList (r.content.toList.take n) := by
  induction rows generalizing remaining with
  | nil => cases h
  | cons r rest ih =>
      have hold : ∀ {n}, m ∈ takeHistory n rest → ∃ r' ∈ r :: rest, m.createdAt = r'.createdAt ∧
          m.reached = r'.reached ∧ ∃ n, m.content = String.ofList (r'.content.toList.take n) := by
        intro n hm
        obtain ⟨r', hr', hrest⟩ := ih hm
        exact ⟨r', List.mem_cons_of_mem _ hr', hrest⟩
      have hwhole : m = r → ∃ r' ∈ r :: rest, m.createdAt = r'.createdAt ∧
          m.reached = r'.reached ∧ ∃ n, m.content = String.ofList (r'.content.toList.take n) := by
        rintro rfl
        exact ⟨m, List.mem_cons_self, rfl, rfl, m.content.toList.length, by
          rw [List.take_length, String.ofList_toList]⟩
      unfold takeHistory at h
      split at h
      · exact hold h
      · split at h
        · split at h
          · cases h
          · rw [List.mem_singleton.mp h]
            exact ⟨r, List.mem_cons_self, rfl, rfl, remaining, rfl⟩
        · split at h
          · exact hwhole (List.mem_singleton.mp h)
          · rcases List.mem_cons.mp h with heq | h
            · exact hwhole heq
            · exact hold h

theorem Inv.read (h : Inv alphabet s) {now : Int} {m : HistoryMessage}
    (hm : m ∈ getConversationHistory s.history now) (hreached : m.reached = true) :
    ToldSince s m.createdAt m.content := by
  obtain ⟨r, hr, htime, hsame, n, hcontent⟩ := mem_takeHistory hm
  have hrow : r ∈ s.history := (List.mem_filter.mp (mem_orderBy.mp (List.mem_of_mem_take hr))).1
  obtain ⟨x, hx, hle, k, hprefix⟩ := h.history r hrow (hsame ▸ hreached)
  refine ⟨x, hx, htime ▸ hle, min n k, ?_⟩
  rw [hcontent, hprefix, String.toList_ofList, List.take_take]

/-! ## The steps -/

/-- Calls that have gone, come, or read what was told. -/
theorem Inv.withCalls (h : Inv alphabet s) (calls : List Call) (nextNumber : Nat)
    (hcalls : ∀ c ∈ calls, ∀ rows, c.recentHistory = some rows →
      ∀ m ∈ rows, m.reached = true → ToldSince s m.createdAt m.content) :
    Inv alphabet { s with calls := calls, nextNumber := nextNumber } :=
  ⟨h.history, hcalls, h.began, h.noEmpty, h.entry, h.latest, h.spaced, h.upheld⟩

theorem Inv.leave (h : Inv alphabet s) (c : Call) : Inv alphabet (s.leave c) :=
  h.withCalls (s.calls.erase c) s.nextNumber
    (fun d hd => h.snapshots d (List.mem_of_mem_erase hd))

theorem Inv.readHistory (h : Inv alphabet s) (c : Call) (answered : Bool) :
    Inv alphabet (s.readHistory c answered) := by
  apply h.withCalls
  intro d hd rows hrows m hm hreached
  rcases List.mem_append.mp hd with hd | hd
  · exact h.snapshots d (List.mem_of_mem_erase hd) rows hrows m hm hreached
  · rw [List.mem_singleton.mp hd] at hrows
    cases answered with
    | true =>
        cases hrows
        exact h.read hm hreached
    | false =>
        cases hrows
        cases hm

theorem Inv.tell (h : Inv alphabet s) (text : String) : Inv alphabet (s.tell text) := by
  have hmono : ∀ x ∈ s.told, x ∈ (s.tell text).told := fun x hx => List.mem_cons_of_mem _ hx
  exact ⟨fun m hm hr => (h.history m hm hr).mono hmono,
    fun c hc rows hrows m hm hr => (h.snapshots c hc rows hrows m hm hr).mono hmono, h.began,
    h.noEmpty, h.entry, h.latest, h.spaced, fun e he => (h.upheld e he).mono hmono (fun _ ha => ha)⟩

theorem Inv.remember (h : Inv alphabet s) {m : HistoryMessage}
    (htold : m.reached = true → ToldSince s m.createdAt m.content) :
    Inv alphabet (s.remember m) := by
  refine ⟨fun r hr hreached => ?_, h.snapshots, h.began, h.noEmpty, h.entry, h.latest, h.spaced,
    h.upheld⟩
  rcases List.mem_append.mp hr with hr | hr
  · exact h.history r hr hreached
  · rw [List.mem_singleton.mp hr] at hreached ⊢
    exact htold hreached

theorem Inv.settle (h : Inv alphabet s) {e : Settled} (he : Upheld alphabet s e) :
    Inv alphabet (s.settle e) := by
  refine ⟨h.history, h.snapshots, h.began, h.noEmpty, h.entry, h.latest, h.spaced, fun x hx => ?_⟩
  rcases List.mem_cons.mp hx with rfl | hx
  · exact he
  · exact h.upheld x hx

theorem spaced_send (h : Inv alphabet s) {c : Call} {text : String}
    (hpast : ∀ a ∈ s.alerts, Past alphabet (alertEventFingerprint alphabet text) c.now a) :
    (s.send c text).alerts.Pairwise (fun a b => a.live = true → b.live = true →
      a.fingerprint alphabet = b.fingerprint alphabet → a.now + cooldownSecs ≤ b.now) := by
  refine List.pairwise_append.mpr ⟨h.spaced, List.pairwise_singleton _ _, fun a ha b hb => ?_⟩
  rw [List.mem_singleton.mp hb]
  exact fun hlive _ heq => hpast a ha heq hlive

theorem began_send (h : Inv alphabet s) (c : Call) (text : String) :
    ∀ a ∈ (s.send c text).alerts, a.startedAt ≤ s.clock := by
  intro a ha
  rcases List.mem_append.mp ha with ha | ha
  · exact h.began a ha
  · rw [List.mem_singleton.mp ha]

/-- An alert whose fingerprint is empty holds no entry. -/
theorem Inv.send (h : Inv alphabet s) {c : Call} {text : String}
    (hpast : ∀ a ∈ s.alerts, Past alphabet (alertEventFingerprint alphabet text) c.now a)
    (hempty : alertEventFingerprint alphabet text = "") : Inv alphabet (s.send c text) where
  history := h.history
  snapshots := h.snapshots
  began := began_send h c text
  noEmpty := h.noEmpty
  entry := by
    intro fingerprint heldAt hheld
    obtain ⟨a, ha, hrest⟩ := h.entry fingerprint heldAt hheld
    exact ⟨a, List.mem_append_left _ ha, hrest⟩
  latest := by
    intro a ha hlive heldAt hheld
    rcases List.mem_append.mp ha with ha | ha
    · exact h.latest a ha hlive heldAt hheld
    · rw [List.mem_singleton.mp ha] at hheld
      have hnone : s.cooldowns (alertEventFingerprint alphabet text) = none := by
        rw [hempty]
        exact h.noEmpty
      exact absurd (hnone.symm.trans hheld) (by simp)
  spaced := spaced_send h hpast
  upheld := fun e he => (h.upheld e he).mono (fun _ hx => hx) (fun _ ha => List.mem_append_left _ ha)

theorem cooldowns_hold (s : State) (taken : String) (now : Int) :
    (s.hold taken now).cooldowns taken = some now :=
  Function.update_self ..

theorem cooldowns_hold_of_ne {fingerprint taken : String} (now : Int) (h : fingerprint ≠ taken) :
    (s.hold taken now).cooldowns fingerprint = s.cooldowns fingerprint :=
  Function.update_of_ne h ..

theorem cooldowns_send (s : State) (c : Call) (text : String) :
    (s.send c text).cooldowns = s.cooldowns := rfl

/-- An alert that takes the entry of its fingerprint. -/
theorem Inv.holdAndSend (h : Inv alphabet s) {c : Call} {text taken : String}
    (htaken : alertEventFingerprint alphabet text = taken)
    (hpast : ∀ a ∈ s.alerts, Past alphabet taken c.now a) (hne : taken ≠ "") :
    Inv alphabet ((s.hold taken c.now).send c text) where
  history := h.history
  snapshots := h.snapshots
  began := began_send h c text
  noEmpty := (cooldowns_hold_of_ne c.now hne.symm).trans h.noEmpty
  entry := by
    intro fingerprint heldAt hheld
    rw [cooldowns_send] at hheld
    by_cases heq : fingerprint = taken
    · rw [heq, cooldowns_hold] at hheld
      exact ⟨⟨c.number, c.now, s.clock, text, none⟩, List.mem_append_right _ List.mem_cons_self,
        htaken.trans heq.symm, Option.some.inj hheld, by simp⟩
    · rw [cooldowns_hold_of_ne c.now heq] at hheld
      obtain ⟨a, ha, hrest⟩ := h.entry fingerprint heldAt hheld
      exact ⟨a, List.mem_append_left _ ha, hrest⟩
  latest := by
    intro a ha hlive heldAt hheld
    rw [cooldowns_send] at hheld
    rcases List.mem_append.mp ha with ha | ha
    · by_cases heq : a.fingerprint alphabet = taken
      · rw [heq, cooldowns_hold] at hheld
        have hle := hpast a ha heq hlive
        have hnow := Option.some.inj hheld
        unfold cooldownSecs at hle
        omega
      · rw [cooldowns_hold_of_ne c.now heq] at hheld
        exact h.latest a ha hlive heldAt hheld
    · have hnew : a.fingerprint alphabet = taken ∧ a.now = c.now := by
        rw [List.mem_singleton.mp ha]
        exact ⟨htaken, rfl⟩
      rw [hnew.1, cooldowns_hold] at hheld
      have hnow := Option.some.inj hheld
      omega
  spaced := spaced_send h (htaken.symm ▸ hpast)
  upheld := fun e he => (h.upheld e he).mono (fun _ hx => hx) (fun _ ha => List.mem_append_left _ ha)

theorem recentEquivalent_spec {text : String} {now : Int} {m : HistoryMessage}
    (h : recentEquivalent alphabet text now m = true) : now - cooldownSecs ≤ m.createdAt ∧
      alertsSubstantiallyEquivalent alphabet text m.content = true := by
  simp only [recentEquivalent, Bool.and_eq_true, decide_eq_true_eq] at h
  exact ⟨h.1.2, h.2⟩

theorem Inv.decideAlert (h : Inv alphabet s) {c : Call} {rows : List HistoryMessage} {text : String}
    (hc : c ∈ s.calls) (hrows : c.recentHistory = some rows)
    (hfounded : text ≠ "" → Founded alphabet s c rows text) :
    Inv alphabet (s.decideAlert alphabet c rows text) := by
  have hleft : Inv alphabet (s.leave c) := h.leave c
  unfold State.decideAlert
  by_cases hempty : text = ""
  · rw [if_pos hempty]
    exact hleft
  rw [if_neg hempty]
  have hfounded := hfounded hempty
  unfold Founded at hfounded
  by_cases hrecent : hasRecentEquivalentAlert alphabet text rows c.now = true
  · rw [if_pos hrecent] at hfounded ⊢
    obtain ⟨m, hm, hequiv, hreached⟩ := hfounded
    obtain ⟨htime, hsame⟩ := recentEquivalent_spec hequiv
    obtain ⟨x, hx, hle, hprefix⟩ := h.snapshots c hc rows hrows m hm hreached
    exact hleft.settle ⟨m.content, ⟨x, hx, le_trans htime hle, hprefix⟩, hsame⟩
  rw [if_neg hrecent] at hfounded ⊢
  generalize htaken : alertEventFingerprint alphabet text = taken at hfounded ⊢
  by_cases hnone : taken = ""
  · rw [if_pos hnone] at hfounded ⊢
    exact hleft.send (htaken.symm ▸ hfounded) (htaken.trans hnone)
  rw [if_neg hnone] at hfounded ⊢
  cases hheld : s.cooldowns taken with
  | none =>
      exact hleft.holdAndSend htaken (hfounded.2 hheld) hnone
  | some heldAt =>
      simp only
      by_cases hwithin : c.now - heldAt < cooldownSecs
      · rw [if_pos hwithin]
        obtain ⟨a, ha, hfp, hnow, hfailed⟩ := h.entry taken heldAt hheld
        have hsuppressed := hfounded.1 heldAt hheld hwithin a ha hfp hnow
        have hlive : a.live = true := by
          unfold Alert.live
          cases hout : a.outcome with
          | none => rfl
          | some outcome =>
              cases outcome with
              | sent => rfl
              | suppressed => exact absurd hout hsuppressed
              | failed => exact absurd hout hfailed
        apply hleft.settle
        exact ⟨by show c.now < heldAt + cooldownSecs; omega, a, ha, hfp.trans htaken.symm, hnow,
          hlive⟩
      · rw [if_neg hwithin]
        apply hleft.holdAndSend htaken _ hnone
        intro a ha hfp hlive
        have hle := h.latest a ha hlive heldAt (hfp.symm ▸ hheld)
        omega

/-- The end of a send changes the outcome of its alert only, and brings no alert to life. -/
theorem ended_spec {a : Alert} (hnone : a.outcome = none) (outcome : Outcome) (b : Alert) :
    (if b = a then { b with outcome := some outcome } else b).text = b.text ∧
      (if b = a then { b with outcome := some outcome } else b).now = b.now ∧
      (if b = a then { b with outcome := some outcome } else b).startedAt = b.startedAt ∧
      ((if b = a then { b with outcome := some outcome } else b).live = true → b.live = true) := by
  by_cases heq : b = a
  · rw [if_pos heq]
    refine ⟨rfl, rfl, rfl, fun _ => ?_⟩
    rw [heq, Alert.live, hnone]
    rfl
  · rw [if_neg heq]
    exact ⟨rfl, rfl, rfl, fun hlive => hlive⟩

/-- An alert of the state after a send has ended, and the one that it was. -/
theorem mem_finish {a b : Alert} {outcome : Outcome} (hnone : a.outcome = none)
    (h : b ∈ (s.finish a outcome).alerts) : ∃ old ∈ s.alerts, b.text = old.text ∧
      b.now = old.now ∧ b.startedAt = old.startedAt ∧ (b.live = true → old.live = true) := by
  obtain ⟨old, hold, rfl⟩ := List.mem_map.mp h
  exact ⟨old, hold, ended_spec hnone outcome old⟩

/-- An alert other than the one whose send has ended is as before. -/
theorem mem_finish_of_ne {a b : Alert} {outcome : Outcome} (hb : b ∈ s.alerts) (hne : b ≠ a) :
    b ∈ (s.finish a outcome).alerts :=
  List.mem_map.mpr ⟨b, hb, if_neg hne⟩

theorem mem_finish_self {a : Alert} {outcome : Outcome} (ha : a ∈ s.alerts) :
    { a with outcome := some outcome } ∈ (s.finish a outcome).alerts :=
  List.mem_map.mpr ⟨a, ha, if_pos rfl⟩

/-- The end of a send that keeps what its entry and its fingerprint stand for. -/
theorem Inv.finish (h : Inv alphabet s) {a : Alert} (hnone : a.outcome = none) (outcome : Outcome)
    (cooldowns : String → Option Int)
    (hcooldowns : ∀ fingerprint heldAt, cooldowns fingerprint = some heldAt →
      s.cooldowns fingerprint = some heldAt ∧
        (outcome = .failed → fingerprint ≠ a.fingerprint alphabet))
    (hsettled : outcome ≠ .sent → ∀ e ∈ s.settled,
      alertEventFingerprint alphabet e.text = a.fingerprint alphabet → e.held ≠ some a.now) :
    Inv alphabet { s.finish a outcome with cooldowns := cooldowns } where
  history := h.history
  snapshots := h.snapshots
  began := by
    intro b hb
    obtain ⟨old, hold, -, -, hbegan, -⟩ := mem_finish hnone hb
    rw [hbegan]
    exact h.began old hold
  noEmpty := by
    show cooldowns "" = none
    cases hheld : cooldowns "" with
    | none => rfl
    | some heldAt =>
        have hold := (hcooldowns "" heldAt hheld).1
        rw [h.noEmpty] at hold
        cases hold
  entry := by
    intro fingerprint heldAt hheld
    obtain ⟨hold, hne⟩ := hcooldowns fingerprint heldAt hheld
    obtain ⟨b, hb, hfp, hnow, hfailed⟩ := h.entry fingerprint heldAt hold
    by_cases heq : b = a
    · subst heq
      refine ⟨_, mem_finish_self hb, hfp, hnow, fun hout => ?_⟩
      exact hne (Option.some.inj hout) hfp.symm
    · exact ⟨b, mem_finish_of_ne hb heq, hfp, hnow, hfailed⟩
  latest := by
    intro b hb hlive heldAt hheld
    obtain ⟨old, hold, htext, hnow, -, hlived⟩ := mem_finish hnone hb
    have hfp : b.fingerprint alphabet = old.fingerprint alphabet :=
      congrArg (alertEventFingerprint alphabet) htext
    rw [hnow]
    exact h.latest old hold (hlived hlive) heldAt (hfp ▸ (hcooldowns _ heldAt hheld).1)
  spaced := by
    refine List.pairwise_map.mpr (h.spaced.imp (fun {b c} hbc hb hc hfp => ?_))
    obtain ⟨htextB, hnowB, -, hliveB⟩ := ended_spec hnone outcome b
    obtain ⟨htextC, hnowC, -, hliveC⟩ := ended_spec hnone outcome c
    unfold Alert.fingerprint at hfp
    rw [htextB, htextC] at hfp
    rw [hnowB, hnowC]
    exact hbc (hliveB hb) (hliveC hc) hfp
  upheld := by
    intro e he
    have hold := h.upheld e he
    unfold Upheld at hold ⊢
    split at hold
    · exact hold
    next heldAt heq =>
      obtain ⟨hwithin, b, hb, hfp, hnow, hlive⟩ := hold
      refine ⟨hwithin, ?_⟩
      by_cases hba : b = a
      · subst hba
        by_cases hsent : outcome = .sent
        · subst hsent
          exact ⟨_, mem_finish_self hb, hfp, hnow, rfl⟩
        · exact absurd (heq.trans (congrArg some hnow.symm)) (hsettled hsent e he hfp.symm)
      · exact ⟨b, mem_finish_of_ne hb hba, hfp, hnow, hlive⟩

theorem Inv.sendEnds (h : Inv alphabet s) {a : Alert} (ha : a ∈ s.alerts) (hnone : a.outcome = none)
    (reference : String) (stored : Bool) {outcome : Outcome}
    (hsettled : outcome ≠ .sent → ∀ e ∈ s.settled,
      alertEventFingerprint alphabet e.text = a.fingerprint alphabet → e.held ≠ some a.now) :
    Inv alphabet (s.sendEnds alphabet a reference stored outcome) := by
  cases outcome with
  | sent =>
      have hsent : Inv alphabet (s.finish a .sent) :=
        h.finish hnone .sent s.cooldowns (fun _ _ hheld => ⟨hheld, fun hf => by cases hf⟩) hsettled
      have htold := hsent.tell (historyNotification a.text reference)
      cases stored with
      | false => exact htold
      | true =>
          apply htold.remember
          intro _
          refine ⟨⟨s.clock, _⟩, List.mem_cons_self, h.began a ha,
            (historyNotification a.text reference).toList.length, ?_⟩
          rw [List.take_length, String.ofList_toList]
  | suppressed =>
      exact h.finish hnone .suppressed s.cooldowns
        (fun _ _ hheld => ⟨hheld, fun hf => by cases hf⟩) hsettled
  | failed =>
      simp only [State.sendEnds]
      by_cases hempty : alertEventFingerprint alphabet a.text = ""
      · rw [if_pos hempty]
        refine h.finish hnone .failed s.cooldowns (fun fingerprint heldAt hheld => ⟨hheld, ?_⟩)
          hsettled
        rintro - rfl
        have hentry : s.cooldowns "" = some heldAt := hempty ▸ hheld
        rw [h.noEmpty] at hentry
        cases hentry
      · rw [if_neg hempty]
        refine h.finish hnone .failed _ (fun fingerprint heldAt hheld => ?_) hsettled
        have hne : fingerprint ≠ alertEventFingerprint alphabet a.text := by
          rintro rfl
          rw [Function.update_self] at hheld
          cases hheld
        rw [Function.update_of_ne hne] at hheld
        exact ⟨hheld, fun _ => hne⟩

theorem call?_eq_some {number : Nat} {c : Call} (h : s.call? number = some c) : c ∈ s.calls :=
  List.mem_of_find?_eq_some h

theorem sending?_eq_some {number : Nat} {a : Alert} (h : s.sending? number = some a) :
    a ∈ s.alerts ∧ a.outcome = none := by
  have hfound := List.find?_some h
  simp only [decide_eq_true_eq] at hfound
  exact ⟨List.mem_of_find?_eq_some h, hfound.2⟩

theorem inv_step {action : Action} (h : Inv alphabet s) (hok : InOrder alphabet s action)
    (hstep : step alphabet s action = some t) : Inv alphabet t := by
  cases action with
  | tick seconds =>
      cases hstep
      refine ⟨h.history, h.snapshots, fun a ha => ?_, h.noEmpty, h.entry, h.latest, h.spaced,
        h.upheld⟩
      have hle := h.began a ha
      show a.startedAt ≤ s.clock + seconds
      omega
  | converse m =>
      simp only [step] at hstep
      split at hstep
      next hpast =>
        by_cases hreached : m.reached = true
        · rw [if_pos hreached] at hstep
          cases hstep
          apply (h.tell m.content).remember
          intro _
          exact ⟨⟨s.clock, m.content⟩, List.mem_cons_self, hpast, m.content.toList.length, by
            rw [List.take_length, String.ofList_toList]⟩
        · rw [if_neg hreached] at hstep
          cases hstep
          exact h.remember (fun hr => absurd hr hreached)
      · cases hstep
  | start =>
      cases hstep
      apply h.withCalls
      intro c hc rows hrows
      rcases List.mem_append.mp hc with hc | hc
      · exact h.snapshots c hc rows hrows
      · rw [List.mem_singleton.mp hc] at hrows
        cases hrows
  | readHistory number answered =>
      obtain ⟨c, hc, hread⟩ := Option.bind_eq_some_iff.mp hstep
      split at hread
      · cases hread
        exact h.readHistory c answered
      · cases hread
  | decide number text =>
      obtain ⟨c, hc, hdecide⟩ := Option.bind_eq_some_iff.mp hstep
      obtain ⟨rows, hrows, rfl⟩ := Option.map_eq_some_iff.mp hdecide
      exact h.decideAlert (call?_eq_some hc) hrows (hok c hc rows hrows)
  | drop number =>
      obtain ⟨c, hc, rfl⟩ := Option.map_eq_some_iff.mp hstep
      exact h.leave c
  | sendEnds number reference stored outcome =>
      obtain ⟨a, ha, rfl⟩ := Option.map_eq_some_iff.mp hstep
      obtain ⟨hmem, hnone⟩ := sending?_eq_some ha
      exact h.sendEnds hmem hnone reference stored (fun hsent => hok hsent a ha)

theorem Inv.covered (h : Inv alphabet s) : Covered alphabet s := by
  intro e he
  have hupheld := h.upheld e he
  unfold Upheld at hupheld
  split at hupheld
  · obtain ⟨content, ⟨x, hx, hle, n, hprefix⟩, hequiv⟩ := hupheld
    exact .inl ⟨x, hx, hle, n, hprefix ▸ hequiv⟩
  · obtain ⟨hwithin, a, ha, hfp, hnow, hlive⟩ := hupheld
    exact .inr ⟨a, ha, hfp, hnow ▸ hwithin, hlive⟩

theorem Inv.spacedOut (h : Inv alphabet s) : Spaced alphabet s := by
  refine h.spaced.imp (fun {a b} hab ha hb => hab ?_ ?_)
  · exact decide_eq_true (.inr ha)
  · exact decide_eq_true (.inr hb)

/-- The tables for ASCII. -/
def ascii : Alphabet := ⟨fun s => String.ofList (s.toList.map Char.toLower), Char.isAlphanum⟩

def flightAlert : String := "Airline: flight 12 delayed"

/-- Both classifications read the history before either alert; the one that comes second finds the
entry of the first. -/
def twoMessages : List Action :=
  [.start, .start, .readHistory 0 true, .readHistory 1 true, .decide 0 flightAlert,
    .sendEnds 0 "" true .sent, .decide 1 flightAlert]

/-- The first alert fails after the second message was settled by its entry. -/
def settledThenFailed : List Action :=
  [.start, .start, .readHistory 0 true, .readHistory 1 true, .decide 0 flightAlert,
    .decide 1 flightAlert, .sendEnds 0 "" true .failed]

end Lightfriend.Proactive.UrgentAlert
