import BipaNodes.App.RetryProperties
import BipaNodes.EndToEnd
import BipaNodes.Lib.Machine
import BipaNodes.Source.Mempool
import BipaNodes.App.Startup
import BipaNodes.App.StartupProperties
import BipaNodes.App.Migrate
import BipaNodes.Importer.Schedule
import BipaNodes.Importer.ScheduleProperties
import BipaNodes.Lib.ReadCommitted
import BipaNodes.Lib.Replacement
import BipaNodes.Lib.ReplacementProperties
import BipaNodes.Lib.ReplacementCommits
import BipaNodes.Lib.ReplacementProgress
import BipaNodes.Storage.Concurrent
import BipaNodes.Storage.Fake
import BipaNodes.Storage.Healing
import BipaNodes.App.Service
import BipaNodes.App.Shutdown
import BipaNodes.App.Snapshot
import BipaNodes.Source.Acceptance
import BipaNodes.Storage.RoundTrip
import BipaNodes.Domain.FormatProperties
import BipaNodes.Domain.TimestampProperties
import BipaNodes.Http.ResponseProperties
import BipaNodes.Http.Router
import BipaNodes.Http.RouterProperties
import BipaNodes.Config.Load
import BipaNodes.Config.LoadProperties
import BipaNodes.Config.Redact
import BipaNodes.Config.RedactProperties
import BipaNodes.Lib.Json
import BipaNodes.Lib.JsonProperties
import BipaNodes.Source.Decode
import BipaNodes.Source.DecodeProperties
import BipaNodes.Http.Serialize
import BipaNodes.App.Atomic
import BipaNodes.App.Restart
import BipaNodes.App.Recovery
import BipaNodes.Http.SerializeProperties
import BipaNodes.WireToWire
import BipaNodes.App.Progress
import BipaNodes.App.Process
import BipaNodes.App.ProcessProperties
import BipaNodes.App.ProcessProgress
import BipaNodes.App.TimedProperties
import BipaNodes.App.Freshness
import BipaNodes.Source.Skipped
