import TiyGate.Admin.BruteForce
import TiyGate.Admin.BruteForceAgreement
import TiyGate.Auth.OAuthApplier
import TiyGate.Auth.SingleFlight
import TiyGate.Bedrock.SigV4
import TiyGate.Bedrock.Signing
import TiyGate.Cache.EmbeddingCache
import TiyGate.Core.Accounting
import TiyGate.Core.Conversation
import TiyGate.Core.Digest
import TiyGate.Core.DistributedQuota
import TiyGate.Core.ErrorClass
import TiyGate.Core.HalfOpen
import TiyGate.Core.HeaderForward
import TiyGate.Core.HeaderGlobs
import TiyGate.Core.Health
import TiyGate.Core.HealthViews
import TiyGate.Core.Ir
import TiyGate.Core.Protocol
import TiyGate.Core.Quota
import TiyGate.Core.QuotaOutage
import TiyGate.Core.Redaction
import TiyGate.Core.Routing
import TiyGate.Core.SchemaWalk
import TiyGate.Core.StructuredOutput
import TiyGate.Core.TokenQuota
import TiyGate.Core.ToolCalls
import TiyGate.Core.TraceContext
import TiyGate.Core.Weighted
import TiyGate.Core.Wire
import TiyGate.Data.Assoc
import TiyGate.Data.Channel
import TiyGate.Data.Edits
import TiyGate.Data.Groups
import TiyGate.Data.Guarded
import TiyGate.Data.KeyedTable
import TiyGate.Data.Mealy
import TiyGate.Data.MultiMap
import TiyGate.Data.Notify
import TiyGate.Data.Paging
import TiyGate.Data.Placement
import TiyGate.Data.Runs
import TiyGate.Data.Semaphore
import TiyGate.Ingress.Admission
import TiyGate.Ingress.Attempts
import TiyGate.Ingress.Blame
import TiyGate.Ingress.Capture
import TiyGate.Ingress.Cooling
import TiyGate.Ingress.Cutting
import TiyGate.Ingress.Envelope
import TiyGate.Ingress.Failover
import TiyGate.Ingress.Fallback
import TiyGate.Ingress.FinalNewline
import TiyGate.Ingress.Finalization
import TiyGate.Ingress.GeminiPaths
import TiyGate.Ingress.Headers
import TiyGate.Ingress.InFlight
import TiyGate.Ingress.Keepalive
import TiyGate.Ingress.Markers
import TiyGate.Ingress.MediaStripping
import TiyGate.Ingress.Outcome
import TiyGate.Ingress.Preparation
import TiyGate.Ingress.Recording
import TiyGate.Ingress.ResponseModel
import TiyGate.Ingress.Rewriting
import TiyGate.Ingress.Scanning
import TiyGate.Ingress.Signals
import TiyGate.Ingress.Streaming
import TiyGate.Json.Convert
import TiyGate.Json.Core
import TiyGate.Json.Extension
import TiyGate.Json.Folding
import TiyGate.Json.Pointer
import TiyGate.Json.Reparse
import TiyGate.Json.RoundTrip
import TiyGate.Json.Text
import TiyGate.OAuth.Grants
import TiyGate.OAuth.Locking
import TiyGate.OAuth.Manager
import TiyGate.OAuth.Rotation
import TiyGate.Protocols.Accounting
import TiyGate.Protocols.ChatCompletions.Decoder
import TiyGate.Protocols.ChatCompletions.Encoder
import TiyGate.Protocols.ChatCompletions.Request
import TiyGate.Protocols.ChatCompletions.Response
import TiyGate.Protocols.ChatCompletions.RoundTrip
import TiyGate.Protocols.ChatCompletions.Streamed
import TiyGate.Protocols.ChatCompletions.ToolResults
import TiyGate.Protocols.CheckedDecoders
import TiyGate.Protocols.Codec
import TiyGate.Protocols.Embeddings
import TiyGate.Protocols.Frames
import TiyGate.Protocols.Gemini.Decoder
import TiyGate.Protocols.Gemini.Encoder
import TiyGate.Protocols.Gemini.Request
import TiyGate.Protocols.Gemini.Response
import TiyGate.Protocols.Gemini.Schema
import TiyGate.Protocols.Gemini.Streamed
import TiyGate.Protocols.Gemini.TurnEnd
import TiyGate.Protocols.GeminiCalls
import TiyGate.Protocols.InlineMedia
import TiyGate.Protocols.Limits
import TiyGate.Protocols.Messages.Alternation
import TiyGate.Protocols.Messages.Decoder
import TiyGate.Protocols.Messages.Encoder
import TiyGate.Protocols.Messages.Grammar
import TiyGate.Protocols.Messages.Request
import TiyGate.Protocols.Messages.Response
import TiyGate.Protocols.Messages.Streamed
import TiyGate.Protocols.Messages.ToolRouting
import TiyGate.Protocols.ResponseAgreement
import TiyGate.Protocols.Responses.CallPairs
import TiyGate.Protocols.Responses.Closing
import TiyGate.Protocols.Responses.Decoder
import TiyGate.Protocols.Responses.Encoder
import TiyGate.Protocols.Responses.Interleaved
import TiyGate.Protocols.Responses.Items
import TiyGate.Protocols.Responses.Lifecycle
import TiyGate.Protocols.Responses.Opaque
import TiyGate.Protocols.Responses.Request
import TiyGate.Protocols.Responses.Response
import TiyGate.Protocols.Responses.Snapshot
import TiyGate.Protocols.Responses.Streamed
import TiyGate.Protocols.ToolChoice
import TiyGate.Protocols.UsageAgreement
import TiyGate.Server.CodexEvents
import TiyGate.Server.CodexFallback
import TiyGate.Server.CodexProfile
import TiyGate.Server.CodexReasoning
import TiyGate.Server.Drain
import TiyGate.Server.ModelLookup
import TiyGate.Server.Models
import TiyGate.Server.Shutdown
import TiyGate.Server.Telemetry
import TiyGate.Store.Archive
import TiyGate.Store.ArchiveClaims
import TiyGate.Store.ArchiveContents
import TiyGate.Store.ArrivalOrder
import TiyGate.Store.AttemptOrder
import TiyGate.Store.Attempts
import TiyGate.Store.CheckedMerge
import TiyGate.Store.Config
import TiyGate.Store.Entities
import TiyGate.Store.ExtractedFinish
import TiyGate.Store.ExtractedStream
import TiyGate.Store.ExtractedUsage
import TiyGate.Store.Extraction
import TiyGate.Store.MergedAgreement
import TiyGate.Store.MergedResponses
import TiyGate.Store.MergedStreams
import TiyGate.Store.MergedView
import TiyGate.Store.Operations
import TiyGate.Store.Polling
import TiyGate.Store.RequestLog
import TiyGate.Store.Restoring
import TiyGate.Store.Routes
import TiyGate.Store.Secrets
import TiyGate.Store.Snapshots
import TiyGate.Store.StreamFraming
import TiyGate.Store.TokenStats
import TiyGate.Store.TokenTotals
import TiyGate.Store.Transfer
import TiyGate.Store.WellKept
import TiyGate.Text.DataUrl
import TiyGate.Text.Folding
import TiyGate.Text.Framing
import TiyGate.Text.Gather
import TiyGate.Text.Glob
import TiyGate.Text.Lines
import TiyGate.Text.Radix
import TiyGate.Text.Sse
import TiyGate.Text.Utf8
import TiyGate.Data.Course
import TiyGate.Ingress.Callers
import TiyGate.Ingress.Gates
