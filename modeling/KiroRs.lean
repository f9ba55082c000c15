import KiroRs.Lib.Wire
import KiroRs.Lib.Traces
import KiroRs.Lib.Text
import KiroRs.Lib.Dicts
import KiroRs.Parser.HeaderCodec
import KiroRs.Parser.FrameCodec
import KiroRs.Parser.StreamDecoder
import KiroRs.Parser.DecoderRuns
import KiroRs.Parser.Recovery
import KiroRs.Parser.DamagedFrames
import KiroRs.Parser.StrayBytes
import KiroRs.Pool.Credentials
import KiroRs.Pool.Manager
import KiroRs.Pool.Tasks
import KiroRs.Pool.Selection
import KiroRs.Pool.RefreshInterleaving
import KiroRs.Converter.Json
import KiroRs.Converter.Requests
import KiroRs.Converter.Conversation
import KiroRs.Converter.Models
import KiroRs.Converter.Schema
import KiroRs.Converter.ToolNames
import KiroRs.Converter.Tools
import KiroRs.Converter.Messages
import KiroRs.Converter.Conversion
import KiroRs.Converter.Pairing
import KiroRs.Lib.Calls
import KiroRs.Lib.Results
import KiroRs.Converter.NameRoundTrip
import KiroRs.Lib.Search
import KiroRs.Stream.XmlFilter
import KiroRs.Stream.FilterRuns
import KiroRs.Stream.LeakChunking
import KiroRs.Lib.Emits
import KiroRs.Stream.Events
import KiroRs.Stream.ToolJson
import KiroRs.Stream.ThinkingTags
import KiroRs.Stream.Context
import KiroRs.Stream.WellFormed
import KiroRs.Stream.BlockOps
import KiroRs.Stream.BlockOrder
import KiroRs.Converter.Alternation
import KiroRs.Lib.WriteBehind
import KiroRs.Pool.ManualDisable
import KiroRs.Pool.Persistence
import KiroRs.Lib.Slots
import KiroRs.Stream.Replies
import KiroRs.Stream.ReplyOps
import KiroRs.Lib.Segments
import KiroRs.Stream.ToolCalls
import KiroRs.Stream.CallReplies
import KiroRs.Stream.Signatures
import KiroRs.Pool.Acquire
import KiroRs.Pool.AcquireRuns
import KiroRs.Pool.Failover
import KiroRs.Pool.FailoverRuns
import KiroRs.Cache.Meter
import KiroRs.Cache.Chains
import KiroRs.Cache.PrefixGrowth
import KiroRs.Pool.Changes
import KiroRs.Pool.Invariants
import KiroRs.Converter.Specifications
import KiroRs.Admin.ClientKeyRuns
import KiroRs.Pool.ApiCalls
import KiroRs.Pool.Restart
import KiroRs.Pool.SelfHealing
import KiroRs.Pool.Additions
import KiroRs.Pool.Rotation
import KiroRs.Lib.Provenance
import KiroRs.Pool.Identities
import KiroRs.Admin.TraceDb
import KiroRs.Admin.Tracing
import KiroRs.Cache.Isolation
import KiroRs.Stream.NonStream
import KiroRs.Converter.ReadWindows
import KiroRs.Converter.SchemaShape
import KiroRs.Converter.ToolInputs
import KiroRs.Admin.KeyPersistence
import KiroRs.Cache.Lifetimes
import KiroRs.Converter.PanicFreedom
import KiroRs.Lib.Checked
import KiroRs.Parser.Safety
import KiroRs.Stream.Buffered
import KiroRs.Admin.ProxyPool
import KiroRs.Admin.ProxyRuns
import KiroRs.Admin.UsageClock
import KiroRs.Admin.UsageOrder
import KiroRs.Pool.Administration
import KiroRs.Pool.Cooldowns
import KiroRs.Pool.CurrentId
import KiroRs.Pool.FileReload
import KiroRs.Pool.KeyChecks
import KiroRs.Stream.TextFlow
import KiroRs.Converter.NameMaps
import KiroRs.Lib.Rounds
import KiroRs.WebSearch.Accounting
import KiroRs.WebSearch.Protocol
import KiroRs.Converter.Conservation
import KiroRs.Pool.Provider
import KiroRs.Lib.Bytes
import KiroRs.Converter.ShortNames
import KiroRs.Lib.Logs
import KiroRs.Images.Resize
import KiroRs.Images.Coverage
import KiroRs.Images.Convergence
import KiroRs.Lib.Slices
import KiroRs.Stream.TagSearch
import KiroRs.Stream.FilterSlices
import KiroRs.Stream.SliceSafety
import KiroRs.Stream.Agreement
import KiroRs.Stream.TagCuts
import KiroRs.Stream.ThinkingChunks
import KiroRs.Converter.JsonText
import KiroRs.Delivery.Accounting
import KiroRs.Delivery.BufferedStream
import KiroRs.Delivery.SseText
import KiroRs.WebSearch.Rendering
import KiroRs.WebSearch.DirectSearch
import KiroRs.WebSearch.DeferredStart
import KiroRs.Admin.AdminAccess
import KiroRs.Login.SocialLogin
import KiroRs.Login.Relogin
import KiroRs.Admin.UsageQueries
