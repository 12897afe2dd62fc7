import Lightfriend.Core.Split
import Lightfriend.Core.Trim

/-! # The logins of a bridge

The bridge bot lists its logins one a line. The health check reads the lines and
tears the bridge down when the listing says that the credentials are bad.
-/

namespace Lightfriend.Bridge.ListLogins

open Text

/-! ## The listing -/

def listLoginsEmpty : List Char := "You're not logged in".toList

def statusConnected : List Char := "CONNECTED".toList

def statusBadCredentials : List Char := "BAD_CREDENTIALS".toList

def linePrefix : List Char := "* `".toList

def identifierOpen : List Char := " (".toList

def statusOpen : List Char := " - `".toList

def backtick : Char := Char.ofNat 0x60

structure ListLoginsEntry where
  loginId : List Char
  identifier : List Char
  status : List Char
deriving DecidableEq

def nonempty (text : List Char) : Option (List Char) := if text = [] then none else some text

def parseListLoginsLine (line : List Char) : Option ListLoginsEntry := do
  let rest ← (trimText line).dropPrefix? linePrefix
  let (loginId, rest) ← splitOnce backtick rest
  let loginId ← nonempty loginId
  let rest ← rest.dropPrefix? identifierOpen
  let (identifier, rest) ← splitOnce ')' rest
  let identifier ← nonempty identifier
  let rest ← rest.dropPrefix? statusOpen
  let status ← rest.dropSuffix? [backtick]
  let status ← nonempty status
  some ⟨loginId, identifier, status⟩

def parseListLogins (body : List Char) : List ListLoginsEntry :=
  (lines body).filterMap parseListLoginsLine

/-! ## The verdict -/

inductive BridgeLoginHealth
  | connected
  | badCredentials
  | empty
  | unknown
deriving DecidableEq, Repr

def classifyBridgev2ListLogins (body : List Char) : BridgeLoginHealth :=
  if trimText body = listLoginsEmpty then .empty
  else if parseListLogins body = [] then .unknown
  else if (parseListLogins body).any (fun e => e.status = statusConnected) then .connected
  else if (parseListLogins body).any (fun e => e.status = statusBadCredentials) then
    .badCredentials
  else .unknown

/-! ## The format -/

/-- A line of the format. -/
def printEntry (e : ListLoginsEntry) : List Char :=
  linePrefix ++ (e.loginId ++ backtick :: (identifierOpen ++ (e.identifier ++
    ')' :: (statusOpen ++ (e.status ++ [backtick])))))

/-- The entries, one a line. -/
def printLogins (entries : List ListLoginsEntry) : List Char :=
  joinWith '\n' (entries.map printEntry)

/-- What the bridge puts into a line. -/
structure ListLoginsEntry.Verified (e : ListLoginsEntry) : Prop where
  loginId : e.loginId ≠ [] ∧ backtick ∉ e.loginId
  identifier : e.identifier ≠ []
  status : backtick ∉ e.status
  oneLine : '\n' ∉ e.loginId ∧ '\n' ∉ e.identifier ∧ '\n' ∉ e.status

/-- What the reader makes out in a line: its identifier has no closing parenthesis. -/
structure ListLoginsEntry.Readable (e : ListLoginsEntry) : Prop where
  loginId : e.loginId ≠ [] ∧ backtick ∉ e.loginId
  identifier : e.identifier ≠ [] ∧ ')' ∉ e.identifier
  status : e.status ≠ []

/-- A line of the text is an entry of that status that the reader makes out. -/
def HasEntry (status body : List Char) : Prop :=
  ∃ line ∈ lines body, ∃ e : ListLoginsEntry,
    trimText line = printEntry e ∧ e.Readable ∧ e.status = status

/-- A line of the text tells of a connected login. -/
def ShowsConnected (body : List Char) : Prop :=
  ∃ line ∈ lines body, linePrefix <+: trimText line ∧
    statusOpen ++ (statusConnected ++ [backtick]) <:+ trimText line

/-- A text that shows a connected login gives no reason to tear the bridge down. -/
def ClassifiedSafely (body : List Char) : Prop :=
  ShowsConnected body → classifyBridgev2ListLogins body ≠ .badCredentials ∧
    classifyBridgev2ListLogins body ≠ .empty

/-! ## Reading a line -/

section Line

variable {text a : List Char}

theorem nonempty_eq_some : nonempty text = some a ↔ text = a ∧ a ≠ [] := by
  unfold nonempty
  split
  next hnil =>
    subst hnil
    constructor
    · intro h
      cases h
    · rintro ⟨rfl, hne⟩
      exact absurd rfl hne
  next hne =>
    constructor
    · intro h
      cases h
      exact ⟨rfl, hne⟩
    · rintro ⟨rfl, -⟩
      rfl

/-- The reader makes out an entry exactly in the lines of its format. -/
theorem parseListLoginsLine_eq_some {line : List Char} {e : ListLoginsEntry} :
    parseListLoginsLine line = some e ↔ trimText line = printEntry e ∧ e.Readable := by
  unfold parseListLoginsLine printEntry
  simp only [Option.bind_eq_bind, Option.bind_eq_some_iff, dropPrefix_eq_some, dropSuffix_eq_some,
    nonempty_eq_some, Option.some.injEq]
  constructor
  · rintro ⟨rest, htrim, ⟨loginId, rest₁⟩, hlogin, _, ⟨rfl, hloginId⟩, rest₂, hopen,
      ⟨identifier, rest₃⟩, hidentifier, _, ⟨rfl, hne⟩, rest₄, hstatus, status, hends, _,
      ⟨rfl, hsome⟩, rfl⟩
    obtain ⟨rfl, hbacktick⟩ := splitOnce_eq_some.mp hlogin
    obtain ⟨rfl, hclosing⟩ := splitOnce_eq_some.mp hidentifier
    simp only at hopen hstatus hloginId hne
    subst hopen hstatus hends
    exact ⟨htrim, ⟨hloginId, hbacktick⟩, ⟨hne, hclosing⟩, hsome⟩
  · rintro ⟨htrim, hreadable⟩
    exact ⟨_, htrim, (e.loginId, _), splitOnce_eq_some.mpr ⟨rfl, hreadable.loginId.2⟩, _,
      ⟨rfl, hreadable.loginId.1⟩, _, rfl, (e.identifier, _),
      splitOnce_eq_some.mpr ⟨rfl, hreadable.identifier.2⟩, _, ⟨rfl, hreadable.identifier.1⟩, _,
      rfl, _, rfl, _, ⟨rfl, hreadable.status⟩, rfl⟩

end Line

/-! ## The verdict on a listing -/

section Verdict

variable {body : List Char}

theorem mem_parseListLogins {e : ListLoginsEntry} : e ∈ parseListLogins body ↔
    ∃ line ∈ lines body, trimText line = printEntry e ∧ e.Readable := by
  unfold parseListLogins
  rw [List.mem_filterMap]
  exact exists_congr (fun line => and_congr_right (fun _ => parseListLoginsLine_eq_some))

theorem any_status {status : List Char} :
    (parseListLogins body).any (fun e => e.status = status) = true ↔ HasEntry status body := by
  rw [List.any_eq_true]
  constructor
  · rintro ⟨e, he, hstatus⟩
    obtain ⟨line, hline, htrim, hreadable⟩ := mem_parseListLogins.1 he
    exact ⟨line, hline, e, htrim, hreadable, of_decide_eq_true hstatus⟩
  · rintro ⟨line, hline, e, htrim, hreadable, hstatus⟩
    exact ⟨e, mem_parseListLogins.2 ⟨line, hline, htrim, hreadable⟩, decide_eq_true hstatus⟩

/-- The text that says that there is no login shows none. -/
theorem not_showsConnected_empty (h : trimText body = listLoginsEmpty) : ¬ ShowsConnected body := by
  rintro ⟨line, hline, hstarts, -⟩
  have hstar : '*' ∈ trimText line := hstarts.subset (by decide)
  have hbody := (lines_isInfix hline).subset ((trimText_isInfix line).subset hstar)
  have hmem := mem_trimText hbody (by decide)
  rw [h] at hmem
  revert hmem
  decide

theorem classify_eq_badCredentials (hempty : trimText body ≠ listLoginsEmpty) :
    classifyBridgev2ListLogins body = .badCredentials ↔
      HasEntry statusBadCredentials body ∧ ¬ HasEntry statusConnected body := by
  unfold classifyBridgev2ListLogins
  rw [if_neg hempty]
  split
  next hnil =>
    refine ⟨fun h => (by cases h), fun h => ?_⟩
    have hany := any_status.2 h.1
    rw [hnil] at hany
    cases hany
  next =>
    split
    next hconnected =>
      exact ⟨fun h => (by cases h), fun h => absurd (any_status.1 hconnected) h.2⟩
    next hconnected =>
      split
      next hbad =>
        exact ⟨fun _ => ⟨any_status.1 hbad, fun h => hconnected (any_status.2 h)⟩, fun _ => rfl⟩
      next hbad => exact ⟨fun h => (by cases h), fun h => absurd (any_status.2 h.1) hbad⟩

theorem classify_ne_empty (hempty : trimText body ≠ listLoginsEmpty) :
    classifyBridgev2ListLogins body ≠ .empty := by
  unfold classifyBridgev2ListLogins
  rw [if_neg hempty]
  split
  · exact BridgeLoginHealth.noConfusion
  · split
    · exact BridgeLoginHealth.noConfusion
    · split <;> exact BridgeLoginHealth.noConfusion

theorem classifiedSafely_iff (body : List Char) : ClassifiedSafely body ↔
    (ShowsConnected body →
      HasEntry statusConnected body ∨ ¬ HasEntry statusBadCredentials body) := by
  refine forall_congr' (fun hshows => ?_)
  have hempty : trimText body ≠ listLoginsEmpty := fun h => not_showsConnected_empty h hshows
  rw [Ne, classify_eq_badCredentials hempty, not_and_not_right,
    and_iff_left (classify_ne_empty hempty)]
  exact imp_iff_or_not

end Verdict

/-! ## Printing and reading -/

section RoundTrip

theorem getLast_printEntry (e : ListLoginsEntry) : (printEntry e).getLast? = some backtick := by
  simp [printEntry, List.getLast?_append, List.getLast?_cons]

theorem trimText_printEntry (e : ListLoginsEntry) : trimText (printEntry e) = printEntry e := by
  refine trimText_of_ends (fun c hc => ?_) (fun c hc => ?_)
  · cases hc
    decide
  · rw [getLast_printEntry] at hc
    cases hc
    decide

theorem ListLoginsEntry.Verified.newline {e : ListLoginsEntry} (h : e.Verified) :
    '\n' ∉ printEntry e := by
  obtain ⟨hlogin, hidentifier, hstatus⟩ := h.oneLine
  have hpunctuation : '\n' ∉ linePrefix ∧ '\n' ≠ backtick ∧ '\n' ∉ identifierOpen ∧
      '\n' ∉ statusOpen := by decide
  obtain ⟨hstar, hbacktick, hopen, hdash⟩ := hpunctuation
  simp [printEntry, hlogin, hidentifier, hstatus, hstar, hbacktick, hopen, hdash]

theorem lines_printLogins {entries : List ListLoginsEntry}
    (hverified : ∀ e ∈ entries, e.Verified) :
    lines (printLogins entries) = entries.map printEntry := by
  refine lines_joinWith (fun l hl => ?_)
  obtain ⟨e, he, rfl⟩ := List.mem_map.mp hl
  refine ⟨(hverified e he).newline, List.cons_ne_nil _ _, ?_⟩
  rw [getLast_printEntry]
  decide

theorem parse_printEntry_iff {e : ListLoginsEntry} (h : e.Verified) :
    parseListLoginsLine (printEntry e) = some e ↔ ')' ∉ e.identifier ∧ e.status ≠ [] := by
  rw [parseListLoginsLine_eq_some, trimText_printEntry]
  constructor
  · exact fun hread => ⟨hread.2.identifier.2, hread.2.status⟩
  · exact fun hread => ⟨rfl, h.loginId, ⟨h.identifier, hread.1⟩, hread.2⟩

/-- A printed list is read back exactly where no identifier has a closing parenthesis and no
status is empty. -/
theorem parse_printLogins_iff {entries : List ListLoginsEntry}
    (hverified : ∀ e ∈ entries, e.Verified) :
    parseListLogins (printLogins entries) = entries ↔
      ∀ e ∈ entries, ')' ∉ e.identifier ∧ e.status ≠ [] := by
  unfold parseListLogins
  rw [lines_printLogins hverified, List.filterMap_map, filterMap_eq_self]
  exact forall₂_congr (fun e he => parse_printEntry_iff (hverified e he))

end RoundTrip

/-! ## The listing is read safely -/

/-- A shown connected login keeps the bridge exactly where the reader makes out some connected
login, or no bad one; and printed entries are read back exactly where no identifier has a closing
parenthesis and no status is empty. -/
theorem listLogins_safe_iff (body : List Char) {entries : List ListLoginsEntry}
    (hverified : ∀ e ∈ entries, e.Verified) :
    (ClassifiedSafely body ↔ (ShowsConnected body →
      HasEntry statusConnected body ∨ ¬ HasEntry statusBadCredentials body)) ∧
    (parseListLogins (printLogins entries) = entries ↔
      ∀ e ∈ entries, ')' ∉ e.identifier ∧ e.status ≠ []) :=
  ⟨classifiedSafely_iff body, parse_printLogins_iff hverified⟩

/-- The listing of one connected login. -/
def oneLogin : List ListLoginsEntry :=
  [⟨"10000000000".toList, "+10000000000".toList, statusConnected⟩]

theorem oneLogin_verified : ∀ e ∈ oneLogin, e.Verified := by
  intro e he
  obtain rfl := List.mem_singleton.mp he
  exact ⟨by decide, by decide, by decide, by decide⟩

theorem listLogins_oneLogin :
    (ClassifiedSafely (printLogins oneLogin) ↔ (ShowsConnected (printLogins oneLogin) →
      HasEntry statusConnected (printLogins oneLogin) ∨
        ¬ HasEntry statusBadCredentials (printLogins oneLogin))) ∧
    parseListLogins (printLogins oneLogin) = oneLogin := by
  have hsafe := listLogins_safe_iff (printLogins oneLogin) oneLogin_verified
  refine ⟨hsafe.1, hsafe.2.mpr ?_⟩
  intro e he
  obtain rfl := List.mem_singleton.mp he
  decide

/-- A connected login with a closing parenthesis in its name, and an old one. -/
def twoLogins : List ListLoginsEntry :=
  [⟨"15550100".toList, "Ann (work)".toList, statusConnected⟩,
    ⟨"15550199".toList, "+15550199".toList, statusBadCredentials⟩]

theorem twoLogins_verified : ∀ e ∈ twoLogins, e.Verified := by
  intro e he
  obtain rfl | he := List.mem_cons.mp he
  · exact ⟨by decide, by decide, by decide, by decide⟩
  · obtain rfl := List.mem_singleton.mp he
    exact ⟨by decide, by decide, by decide, by decide⟩

/-- The connected login is not made out, and the bridge is torn down. -/
theorem listLogins_twoLogins : (∀ e ∈ twoLogins, e.Verified) ∧
    ShowsConnected (printLogins twoLogins) ∧
    classifyBridgev2ListLogins (printLogins twoLogins) = .badCredentials ∧
    ¬ ClassifiedSafely (printLogins twoLogins) ∧
    parseListLogins (printLogins twoLogins) ≠ twoLogins := by
  have hshows : ShowsConnected (printLogins twoLogins) := by
    refine ⟨printEntry ⟨"15550100".toList, "Ann (work)".toList, statusConnected⟩, ?_,
      by decide +kernel, by decide +kernel⟩
    rw [lines_printLogins twoLogins_verified]
    exact List.mem_cons_self
  have hbad : classifyBridgev2ListLogins (printLogins twoLogins) = .badCredentials := by
    decide +kernel
  exact ⟨twoLogins_verified, hshows, hbad, fun h => (h hshows).1 hbad, by decide +kernel⟩

end Lightfriend.Bridge.ListLogins
