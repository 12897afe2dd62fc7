import Lightfriend.Core.Cascade

/-! # Delete my data

The purge is a list of deletes by user, in one transaction. A row belongs to a
user by a user column or by the row that it refers to. The tables that the list
does not name keep what they hold, unless their rows go with a deleted one.
-/

namespace Lightfriend.Account

/-- The tables of the schema, and the two of the bridge cleanup, which it does not declare. -/
inductive TableName
  | userSecrets | userInfo | imapConnection | messageHistory | tesla | youtube | mcpServers
  | totpSecrets | totpBackupCodes | webauthnCredentials | webauthnChallenges | items | bridges
  | bridgeDisconnectionEvents | usageLogs | processedEmails | users | userSettings | refundInfo
  | countryAvailability | messageStatusLog | adminAlerts | disabledAlertTypes | siteMetrics
  | waitlist | providerRoutes | pendingReplyWatches | temporaryAlertSuppressions | ontPersons
  | ontPersonEdits | ontChannels | ontChangelog | ontLinks | ontMessages | ontEvents
  | schedulerHealth | llmUsageLogs | ontRules | bridgeBandwidthLogs | tuwunelCleanupEvents
  | byotVerifications | billingAccounts | billingUsageEvents | billingWebhookEvents
  | billingUsageIntents | commitmentSenderRules | commitmentLabelEmbeddings | commitmentPrompts
  | lightToolDevices | lightToolRuns | lightToolPairingSessions | lightToolPushRegistrations
  | lightToolPushOutbox | webhookTokens | webhookIdempotencyKeys | mcpAccessTokens
  | agentCredentials | agentPairingSessions | agentActionIdempotency | agentActionAudit
  | bridgeCleanupJobs | bridgeCleanupRooms
deriving DecidableEq, Repr

namespace TableName

def inSchema : TableName → Bool
  | .bridgeCleanupJobs | .bridgeCleanupRooms => false
  | _ => true

/-- Users, passkeys, TOTP, subscription and billing. -/
def keptTables : List TableName :=
  [.totpSecrets, .totpBackupCodes, .webauthnCredentials, .webauthnChallenges, .users,
  .billingAccounts, .billingUsageEvents, .billingWebhookEvents, .billingUsageIntents]

/-- The deletes of `cascade_delete_user_data`, in order. -/
def deletedTables : List TableName :=
  [.bridgeCleanupJobs, .bridges, .bridgeBandwidthLogs, .bridgeDisconnectionEvents,
  .imapConnection, .items, .llmUsageLogs, .mcpServers, .messageHistory, .messageStatusLog,
  .ontChangelog, .ontChannels, .ontEvents, .ontLinks, .ontMessages, .ontPersonEdits,
  .ontPersons, .ontRules, .processedEmails, .refundInfo, .tesla, .tuwunelCleanupEvents,
  .usageLogs, .userInfo, .userSecrets, .userSettings, .youtube]

/-- The tables without a user column. -/
def withoutUser : List TableName :=
  [.users, .countryAvailability, .adminAlerts, .disabledAlertTypes, .siteMetrics, .waitlist,
  .providerRoutes, .schedulerHealth, .billingWebhookEvents, .lightToolPushRegistrations,
  .lightToolPushOutbox, .webhookIdempotencyKeys, .agentActionIdempotency, .bridgeCleanupRooms]

/-- The tables with a user column that the purge neither empties nor is documented to keep. -/
def forgottenTables : List TableName :=
  [.pendingReplyWatches, .temporaryAlertSuppressions, .byotVerifications,
  .commitmentSenderRules, .commitmentLabelEmbeddings, .commitmentPrompts, .lightToolDevices,
  .lightToolRuns, .lightToolPairingSessions, .webhookTokens, .agentCredentials,
  .agentPairingSessions, .agentActionAudit]

end TableName

open TableName

/-- A row with the columns that say whose it is, and all others. -/
structure Row where
  id : Int
  /-- `user_id`, `account_user_id` or `approved_by_user_id`. -/
  userId : Option Int
  /-- The column that refers to the row of another table. -/
  refId : Option Int
  values : List String
deriving DecidableEq, Repr

abbrev Reference := Cascade.Reference TableName Row Int

/-- A reference to the id of a row. -/
def toId (parent : TableName) : Reference := ⟨parent, Row.refId, fun p => some p.id⟩

/-- The references with `ON DELETE CASCADE` between tables of users. -/
def reference : TableName → Option Reference
  | .processedEmails => some (toId .imapConnection)
  | .ontPersonEdits | .ontChannels => some (toId .ontPersons)
  | .mcpAccessTokens => some ⟨.userSecrets, Row.userId, Row.userId⟩
  | .lightToolRuns | .lightToolPushRegistrations | .lightToolPushOutbox =>
      some (toId .lightToolDevices)
  | .webhookIdempotencyKeys => some (toId .webhookTokens)
  | .agentActionIdempotency => some (toId .agentCredentials)
  | .bridgeCleanupRooms => some (toId .bridgeCleanupJobs)
  | _ => none

theorem reference_flat (t : TableName) (ref : Reference) (h : reference t = some ref) :
    reference ref.parent = none := by
  cases t <;> cases h <;> rfl

def schema : Cascade.Schema TableName Row Int := ⟨reference, reference_flat⟩

/-- All rows, with the references that hold between them. -/
structure Database where
  store : Cascade.Store schema
  userless : ∀ t ∈ withoutUser, ∀ r ∈ store.rows t, r.userId = none

/-- The row has the user's id, or refers to a row that has it. -/
def BelongsTo (db : Database) (userId : Int) (t : TableName) (r : Row) : Prop :=
  r.userId = some userId ∨ ∃ ref, reference t = some ref ∧
    ∃ p ∈ db.store.rows ref.parent, ref.points r p = true ∧ p.userId = some userId

/-- The filter of every delete. -/
def ofUser (userId : Int) (r : Row) : Bool := decide (r.userId = some userId)

/-- The statements in turn, up to the first one that is refused. -/
def runDeletes (refused : TableName → Bool) (userId : Int) :
    List TableName → Cascade.Store schema → Except String (Cascade.Store schema)
  | [], db => .ok db
  | t :: rest, db =>
      if refused t then .error "cascade delete failed"
      else runDeletes refused userId rest (db.deleteWhere t (ofUser userId))

/-- The transaction is rolled back when a statement or its commit is refused. -/
def cascadeDeleteUserData (refused : TableName → Bool) (commits : Bool)
    (db : Cascade.Store schema) (userId : Int) : Except String Unit × Cascade.Store schema :=
  match runDeletes refused userId deletedTables db with
  | .error e => (.error e, db)
  | .ok after => if commits then (.ok (), after) else (.error "cascade delete failed", db)

theorem runDeletes_ok {refused : TableName → Bool} {userId : Int} {tables : List TableName}
    {db after : Cascade.Store schema} (h : runDeletes refused userId tables db = .ok after) :
    after = Cascade.Store.deleteAll (ofUser userId) tables db := by
  induction tables generalizing db with
  | nil =>
      cases h
      rfl
  | cons t rest ih =>
      unfold runDeletes at h
      split at h
      · cases h
      · exact ih h

theorem runDeletes_of_none_refused (userId : Int) (tables : List TableName)
    (db : Cascade.Store schema) :
    runDeletes (fun _ => false) userId tables db =
      .ok (Cascade.Store.deleteAll (ofUser userId) tables db) := by
  induction tables generalizing db with
  | nil => rfl
  | cons t rest ih => exact ih _

/-- What the purge leaves when it succeeds. -/
def purged (db : Database) (userId : Int) : Cascade.Store schema :=
  Cascade.Store.deleteAll (ofUser userId) deletedTables db.store

/-- A purge is over: it deletes everything of the user and nothing of others, or nothing. -/
structure PurgeHolds (db : Database) (userId : Int)
    (result : Except String Unit × Cascade.Store schema) : Prop where
  complete : result.1 = .ok () → ∀ t, t.inSchema = true → t ∉ keptTables →
    ∀ r ∈ result.2.rows t, ¬ BelongsTo db userId t r
  frame : ∀ t, (result.2.rows t).Sublist (db.store.rows t) ∧
    ∀ r ∈ db.store.rows t, (∃ other, other ≠ userId ∧ BelongsTo db other t r) →
      r ∈ result.2.rows t
  unchanged : result.1 ≠ .ok () → result.2 = db.store

/-- The user has no row in a table that is forgotten, and shares none that goes with another
row. -/
structure Purgeable (db : Database) (userId : Int) : Prop where
  nothingForgotten : ∀ t ∈ forgottenTables, ∀ r ∈ db.store.rows t, r.userId ≠ some userId
  unshared : ∀ t ref, reference t = some ref → ref.parent ∈ deletedTables →
    ∀ r ∈ db.store.rows t, BelongsTo db userId t r →
      ∀ other, other ≠ userId → ¬ BelongsTo db other t r

/-! ## The tables -/

theorem table_cases (t : TableName) (hschema : t.inSchema = true) (hkept : t ∉ keptTables) :
    t ∈ deletedTables ∨ t ∈ forgottenTables ∨ t ∈ withoutUser ∨ t = .mcpAccessTokens := by
  revert hschema hkept
  cases t <;> decide

theorem parent_cases {t : TableName} {ref : Reference} (h : reference t = some ref) :
    ref.parent ∈ deletedTables ∨ ref.parent ∈ forgottenTables := by
  cases t <;> cases h <;> decide

/-- A table that is deleted from refers to such tables only. -/
theorem parent_of_deleted {t : TableName} {ref : Reference} (ht : t ∈ deletedTables)
    (h : reference t = some ref) : ref.parent ∈ deletedTables := by
  revert ht
  cases t <;> cases h <;> decide

theorem forgotten_spec {t : TableName} (h : t ∈ forgottenTables) :
    t.inSchema = true ∧ t ∉ keptTables ∧ t ∉ deletedTables ∧
      ∀ ref, reference t = some ref → ref.parent ∉ deletedTables := by
  revert h
  cases t <;> first
    | exact fun h => absurd h (by decide)
    | exact fun _ => ⟨rfl, by decide, by decide, fun ref href => by cases href <;> decide⟩

theorem child_cases {t : TableName} {ref : Reference} (h : reference t = some ref)
    (hparent : ref.parent ∈ deletedTables) :
    t ∈ deletedTables ∨ t ∈ withoutUser ∨ t = .mcpAccessTokens := by
  revert hparent
  cases t <;> cases h <;> decide

variable {db : Database} {userId : Int} {t : TableName} {r : Row}

theorem mem_purged : r ∈ (purged db userId).rows t ↔ r ∈ db.store.rows t ∧
    (t ∈ deletedTables → r.userId ≠ some userId) ∧
      ∀ ref, reference t = some ref → ref.parent ∈ deletedTables →
        ∀ p ∈ db.store.rows ref.parent, p.userId = some userId → ref.points r p = false := by
  unfold purged
  rw [Cascade.Store.mem_deleteAll]
  simp only [ofUser, decide_eq_true_eq, decide_eq_false_iff_not, schema, ne_eq]

/-- A public MCP token refers to the secrets of its user. -/
theorem mcpAccessToken_ref (hr : r ∈ db.store.rows .mcpAccessTokens)
    (huser : r.userId = some userId) :
    ∃ p ∈ db.store.rows .userSecrets, p.userId = some userId ∧
      Cascade.Reference.points (⟨.userSecrets, Row.userId, Row.userId⟩ : Reference) r p = true := by
  have hvalue : r.userId.isSome = true := by rw [huser]; rfl
  obtain ⟨p, hp, hpoints⟩ := db.store.integrity .mcpAccessTokens _ rfl r hr hvalue
  have hsame := hpoints
  simp only [Cascade.Reference.points, huser, Option.isSome_some, Bool.true_and,
    decide_eq_true_eq] at hsame
  exact ⟨p, hp, hsame.symm, hpoints⟩

/-! ## The purge -/

theorem Purgeable.complete (h : Purgeable db userId) (hschema : t.inSchema = true)
    (hkept : t ∉ keptTables) (hr : r ∈ (purged db userId).rows t) : ¬ BelongsTo db userId t r := by
  obtain ⟨hin, hdirect, hcascade⟩ := mem_purged.1 hr
  rintro (huser | ⟨ref, href, p, hp, hpoints, hpuser⟩)
  · rcases table_cases t hschema hkept with ht | ht | ht | rfl
    · exact hdirect ht huser
    · exact h.nothingForgotten t ht r hin huser
    · rw [db.userless t ht r hin] at huser
      cases huser
    · obtain ⟨p, hp, hpuser, hpoints⟩ := mcpAccessToken_ref hin huser
      have hnot := hcascade _ rfl (by decide) p hp hpuser
      rw [hpoints] at hnot
      cases hnot
  · rcases parent_cases href with hparent | hparent
    · have hnot := hcascade ref href hparent p hp hpuser
      rw [hpoints] at hnot
      cases hnot
    · exact h.nothingForgotten ref.parent hparent p hp hpuser

theorem Purgeable.frame (h : Purgeable db userId) (hr : r ∈ db.store.rows t)
    (hother : ∃ other, other ≠ userId ∧ BelongsTo db other t r) :
    r ∈ (purged db userId).rows t := by
  obtain ⟨other, hne, hbelongs⟩ := hother
  refine mem_purged.2 ⟨hr, ?_, ?_⟩
  · intro ht huser
    rcases hbelongs with hdirect | ⟨ref, href, hp⟩
    · rw [hdirect, Option.some.injEq] at huser
      exact hne huser
    · exact h.unshared t ref href (parent_of_deleted ht href) r hr (Or.inl huser) other hne
        (Or.inr ⟨ref, href, hp⟩)
  · intro ref href hparent p hp hpuser
    cases hpoints : ref.points r p with
    | false => rfl
    | true =>
        exact absurd hbelongs (h.unshared t ref href hparent r hr
          (Or.inr ⟨ref, href, p, hp, hpoints, hpuser⟩) other hne)

theorem purgeHolds_of_error {refused : TableName → Bool} {commits : Bool}
    (herror : (cascadeDeleteUserData refused commits db.store userId).1 ≠ .ok ()) :
    (cascadeDeleteUserData refused commits db.store userId).2 = db.store := by
  unfold cascadeDeleteUserData at herror ⊢
  split
  next => rfl
  next after hrun =>
    rw [hrun] at herror
    cases commits with
    | false => rfl
    | true => exact absurd rfl herror

/-- The purge ends with what the deletes leave, or with what was there. -/
theorem cascadeDelete_cases (db : Database) (userId : Int) (refused : TableName → Bool)
    (commits : Bool) :
    (cascadeDeleteUserData refused commits db.store userId).2 = purged db userId ∨
      (cascadeDeleteUserData refused commits db.store userId).1 ≠ .ok () ∧
        (cascadeDeleteUserData refused commits db.store userId).2 = db.store := by
  unfold cascadeDeleteUserData
  cases hrun : runDeletes refused userId deletedTables db.store with
  | error e => exact Or.inr ⟨by simp, rfl⟩
  | ok after =>
      cases commits with
      | false => exact Or.inr ⟨by simp, rfl⟩
      | true => exact Or.inl (runDeletes_ok hrun)

theorem Purgeable.purgeHolds (h : Purgeable db userId) (refused : TableName → Bool)
    (commits : Bool) :
    PurgeHolds db userId (cascadeDeleteUserData refused commits db.store userId) := by
  rcases cascadeDelete_cases db userId refused commits with heq | ⟨herror, heq⟩
  · refine ⟨?_, ?_, purgeHolds_of_error⟩
    · intro _ t hschema hkept r hr
      rw [heq] at hr
      exact h.complete hschema hkept hr
    · intro t
      rw [heq]
      exact ⟨Cascade.Store.deleteAll_sublist _ _ _ t, fun r hr hother => h.frame hr hother⟩
  · refine ⟨fun hok => absurd hok herror, ?_, purgeHolds_of_error⟩
    intro t
    rw [heq]
    exact ⟨List.Sublist.refl _, fun r hr _ => hr⟩

/-- What a purge that is not refused leaves tells whether the user could be purged. -/
theorem purgeable_of_holds
    (h : PurgeHolds db userId (cascadeDeleteUserData (fun _ => false) true db.store userId)) :
    Purgeable db userId := by
  have hresult : cascadeDeleteUserData (fun _ => false) true db.store userId =
      (.ok (), purged db userId) := by
    unfold cascadeDeleteUserData
    rw [runDeletes_of_none_refused]
    rfl
  rw [hresult] at h
  constructor
  · intro t ht r hr huser
    obtain ⟨hschema, hkept, hdeleted, hparent⟩ := forgotten_spec ht
    have hleft : r ∈ (purged db userId).rows t := by
      refine mem_purged.2 ⟨hr, fun hin => absurd hin hdeleted, ?_⟩
      intro ref href hin
      exact absurd hin (hparent ref href)
    exact h.complete rfl t hschema hkept r hleft (Or.inl huser)
  · intro t ref href hparent r hr hbelongs other hne hother
    obtain ⟨-, hdirect, hcascade⟩ :=
      mem_purged.1 ((h.frame t).2 r hr ⟨other, hne, hother⟩)
    rcases hbelongs with huser | ⟨ref', href', p, hp, hpoints, hpuser⟩
    · rcases child_cases href hparent with ht | ht | rfl
      · exact hdirect ht huser
      · rw [db.userless t ht r hr] at huser
        cases huser
      · obtain ⟨p, hp, hpuser, hpoints⟩ := mcpAccessToken_ref hr huser
        have hnot := hcascade _ rfl (by decide) p hp hpuser
        rw [hpoints] at hnot
        cases hnot
    · rw [href, Option.some.injEq] at href'
      subst href'
      have hnot := hcascade ref href hparent p hp hpuser
      rw [hpoints] at hnot
      cases hnot

/-- The purge keeps its promise exactly for the users without forgotten or shared rows. -/
theorem purge_holds_iff (db : Database) (userId : Int) :
    (∀ refused commits,
      PurgeHolds db userId (cascadeDeleteUserData refused commits db.store userId)) ↔
        Purgeable db userId :=
  ⟨fun h => purgeable_of_holds (h (fun _ => false) true), fun h => h.purgeHolds⟩

/-! ## A row that stays -/

/-- One reply watch of the first user. -/
def watchRows : TableName → List Row
  | .pendingReplyWatches => [⟨1, some 1, none, ["whatsapp", "!room", "Anna"]⟩]
  | _ => []

theorem watchRows_integrity (t : TableName) (ref : Reference) (h : reference t = some ref)
    (r : Row) (hr : r ∈ watchRows t) (_ : (ref.value r).isSome = true) :
    ∃ p ∈ watchRows ref.parent, ref.points r p = true := by
  cases t <;> first
    | (cases hr; done)
    | cases h

theorem watchRows_userless (t : TableName) (ht : t ∈ withoutUser) (r : Row)
    (hr : r ∈ watchRows t) : r.userId = none := by
  cases t <;> first
    | (cases hr; done)
    | exact absurd ht (by decide)

def watchDatabase : Database := ⟨⟨watchRows, watchRows_integrity⟩, watchRows_userless⟩

theorem purge_keeps_a_reply_watch :
    (cascadeDeleteUserData (fun _ => false) true watchDatabase.store 1).1 = .ok () ∧
      ∃ r ∈ (cascadeDeleteUserData (fun _ => false) true watchDatabase.store 1).2.rows
        .pendingReplyWatches, TableName.inSchema .pendingReplyWatches = true ∧
          .pendingReplyWatches ∉ keptTables ∧
            BelongsTo watchDatabase 1 .pendingReplyWatches r := by
  refine ⟨rfl, ⟨1, some 1, none, ["whatsapp", "!room", "Anna"]⟩, ?_, rfl, by decide, Or.inl rfl⟩
  exact mem_purged.2 ⟨List.mem_singleton.mpr rfl, fun h => absurd h (by decide),
    fun _ href => by cases href⟩

end Lightfriend.Account
