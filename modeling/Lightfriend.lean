import Lightfriend.Core.Transition
import Lightfriend.Purge.HistoryCoverage
import Lightfriend.Purge.Boundary
import Lightfriend.Purge.InFlight
import Lightfriend.Core.Bytes
import Lightfriend.Core.Worklist
import Lightfriend.Prune.StateDiff
import Lightfriend.Prune.Database
import Lightfriend.Prune.Pdu
import Lightfriend.Prune.History
import Lightfriend.Prune.Audit
import Lightfriend.Prune.Protection
import Lightfriend.Core.Procedure
import Lightfriend.Bridge.Cleanup
import Lightfriend.Bridge.RoomAudit
import Lightfriend.Bridge.DisconnectedCleanup
import Lightfriend.Bridge.CleanupOutcome
import Lightfriend.Bridge.CleanupRun
import Lightfriend.LightTool.Run
import Lightfriend.LightTool.Trial
import Lightfriend.LightTool.Dispatch
import Lightfriend.LightTool.Lifecycle
import Lightfriend.LightTool.Quota
import Lightfriend.Bridge.Message
import Lightfriend.LightTool.Replay
import Lightfriend.Purge.Ingest
import Lightfriend.Purge.MaxInFlight
import Lightfriend.Bridge.ConnectionLease
import Lightfriend.Billing.Webhook
import Lightfriend.Billing.UsageOutbox
import Lightfriend.Core.Program
import Lightfriend.Core.Serializable
import Lightfriend.Billing.Credits
import Lightfriend.Billing.Conservation
import Lightfriend.Billing.UsageWindow
import Lightfriend.Billing.SmsCharge
import Lightfriend.Billing.CreditPack
import Lightfriend.Billing.UsageIntent
import Lightfriend.Core.RowLock
import Lightfriend.WebhookSms.SendSlot
import Lightfriend.WebhookSms.Idempotency
import Lightfriend.SmsDelivery.StatusLog
import Lightfriend.SmsDelivery.TelnyxFallback
import Lightfriend.Ontology.Reminder
import Lightfriend.Proactive.Digest
import Lightfriend.Proactive.OneShotRule
import Lightfriend.Billing.Overage
import Lightfriend.Billing.Entitlement
import Lightfriend.Bridge.OrphanProof
import Lightfriend.Proactive.Flow
import Lightfriend.Proactive.FlowTest
import Lightfriend.Core.Log
import Lightfriend.LightTool.Pairing
import Lightfriend.Ontology.Redaction
import Lightfriend.LightTool.PushOutbox
import Lightfriend.Core.Owner
import Lightfriend.Ontology.People
import Lightfriend.Ontology.Isolation
import Lightfriend.Email.Intake
import Lightfriend.Email.HighWater
import Lightfriend.Email.Once
import Lightfriend.Proactive.ReplyWatch
import Lightfriend.Proactive.UrgentAlert
import Lightfriend.Proactive.DigestSelection
import Lightfriend.Core.Sweep
import Lightfriend.Purge.Census
import Lightfriend.Auth.BackupCode
import Lightfriend.Byot.Setup
import Lightfriend.Byot.Routing
import Lightfriend.Core.Cascade
import Lightfriend.Account.DataPurge
import Lightfriend.Voice.Billing
import Lightfriend.Voice.Reader
import Lightfriend.Auth.Pending
import Lightfriend.Auth.MagicLink
import Lightfriend.Auth.OneTime
import Lightfriend.Auth.Authenticator
import Lightfriend.Bridge.NativeActivity
import Lightfriend.Proactive.CommitmentReply
import Lightfriend.Prune.Codec
import Lightfriend.Prune.Repair
import Lightfriend.Contract.KmsVerifiable
import Lightfriend.Contract.Timelock
import Lightfriend.Core.Hex
import Lightfriend.Contract.Verifier
import Lightfriend.Purge.Inventory
import Lightfriend.Purge.BackfillAudit
import Lightfriend.Contract.Proposals
import Lightfriend.Contract.TrustChain
import Lightfriend.Contract.PublishedHistory
import Lightfriend.Core.Text
import Lightfriend.Ontology.Citation
import Lightfriend.Agent.Pairing
import Lightfriend.Agent.PairingSafe
import Lightfriend.Agent.Actions
import Lightfriend.Agent.DailyCap
import Lightfriend.Agent.ActionLog
import Lightfriend.Agent.ActionsSafe
import Lightfriend.Agent.PromptActions
import Lightfriend.Core.Fault
import Lightfriend.Contract.LogData
import Lightfriend.Billing.WindowLength
import Lightfriend.Core.Calendar
import Lightfriend.Billing.Period
import Lightfriend.Billing.TwilioCharge
import Lightfriend.Core.Pattern
import Lightfriend.SmsDelivery.Unfang
import Lightfriend.SmsDelivery.UrlFilter
import Lightfriend.SmsDelivery.FilterSafe
import Lightfriend.Core.Trim
import Lightfriend.SmsDelivery.WholeText
import Lightfriend.Proactive.IsoTime
import Lightfriend.Core.Split
import Lightfriend.Core.Like
import Lightfriend.Proactive.DigestLines
import Lightfriend.Bridge.ListLogins
import Lightfriend.Email.AccountQuery
import Lightfriend.Core.Sort
import Lightfriend.Email.SenderMatch
import Lightfriend.Proactive.DigestSlots
import Lightfriend.Ontology.ResponseDeltas
import Lightfriend.Ontology.RoomPerson
import Lightfriend.Ontology.Merge
import Lightfriend.Mcp.EventStream
import Lightfriend.Core.JsonValue
import Lightfriend.Agent.StreamedAnswer
import Lightfriend.Core.HashMap
import Lightfriend.Agent.Loop
import Lightfriend.Agent.LoopTranscript
import Lightfriend.Proactive.AlertEquivalence
import Lightfriend.Bridge.ContactMatch
import Lightfriend.Core.ByteOrder
import Lightfriend.Prune.TimelineKey
import Lightfriend.Voice.Mulaw
import Lightfriend.Voice.Wav
import Lightfriend.Voice.Capture
import Lightfriend.Core.Saturation
import Lightfriend.Diagnostics.DatabaseFiles
import Lightfriend.Proactive.Suppression
import Lightfriend.Bridge.JobVerdict
