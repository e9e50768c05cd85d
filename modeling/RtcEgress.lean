import RtcEgress.Lib.Prog
import RtcEgress.Lib.History
import RtcEgress.Lib.Lock
import RtcEgress.Lib.Answer
import RtcEgress.Lib.KeyedLists
import RtcEgress.Lib.Glob
import RtcEgress.Lib.Assoc
import RtcEgress.Lib.Action
import RtcEgress.Lib.System
import RtcEgress.Lib.Alone
import RtcEgress.Lib.Outbox
import RtcEgress.Lib.Lines
import RtcEgress.Lib.Pieces
import RtcEgress.Lib.Json
import RtcEgress.Queue.Task
import RtcEgress.Queue.Command
import RtcEgress.Queue.Protocol
import RtcEgress.Queue.RedisQueue
import RtcEgress.Queue.Manager
import RtcEgress.Queue.Lemmas.Follows
import RtcEgress.Queue.Lemmas.Effect
import RtcEgress.Queue.Lemmas.Base
import RtcEgress.Queue.Lemmas.Lists
import RtcEgress.Queue.Terminal
import RtcEgress.Queue.Timeout
import RtcEgress.Queue.Dedupe
import RtcEgress.Queue.LeaseAgreement
import RtcEgress.Queue.Duplication
import RtcEgress.Queue.WebStop
import RtcEgress.Queue.Lemmas.Alone
import RtcEgress.Queue.Routing
import RtcEgress.Queue.Patterns
import RtcEgress.Queue.AgeScan
import RtcEgress.Queue.Recovery
import RtcEgress.Queue.Bookkeeping
import RtcEgress.Queue.DeadEntries
import RtcEgress.Queue.Namespaces
import RtcEgress.Native.Tables
import RtcEgress.Native.WorkerManager
import RtcEgress.Native.Lemmas.Keeps
import RtcEgress.Native.Assignment
import RtcEgress.Native.Recovery
import RtcEgress.Native.Lemmas.Ledger
import RtcEgress.Native.Lemmas.Effects
import RtcEgress.Native.Lemmas.Staffed
import RtcEgress.Native.Lemmas.Release
import RtcEgress.Native.Slots
import RtcEgress.Native.SlotLeaks
import RtcEgress.Native.Threads
import RtcEgress.Native.LockOrder
import RtcEgress.Worker.TaskPipe
import RtcEgress.Worker.Connection
import RtcEgress.Worker.Threads
import RtcEgress.Worker.Handling
import RtcEgress.Worker.Listing
import RtcEgress.Worker.AnsweredOnce
import RtcEgress.Worker.SinkConfig
import RtcEgress.Worker.ActiveSinks
import RtcEgress.Media.LayoutDetector
import RtcEgress.Media.SnapshotSink
import RtcEgress.Media.Locks
import RtcEgress.Media.AudioMixer
import RtcEgress.Media.AudioDrain
import RtcEgress.Media.MixerRuns
import RtcEgress.Media.MixerInvariant
import RtcEgress.Media.MixerWrites
import RtcEgress.Media.MixerLoss
import RtcEgress.Lib.Interleaving
import RtcEgress.Media.MixerOrder
import RtcEgress.Media.MixerLimit
import RtcEgress.Wire.LineLimit
import RtcEgress.Wire.LineMessageBuffer
import RtcEgress.Wire.Completion
import RtcEgress.Lib.Utf8
import RtcEgress.Lib.Float
import RtcEgress.Lib.NetUrl
import RtcEgress.Lib.Rfc3339
import RtcEgress.Message.Layout
import RtcEgress.Message.StreamOutput
import RtcEgress.Message.Protocol
import RtcEgress.Message.Lemmas.Accepted
import RtcEgress.Message.Users
import RtcEgress.Message.StartTask
import RtcEgress.Wire.UDSMessage
import RtcEgress.Wire.Agreement
import RtcEgress.Sink.StreamingOutput
import RtcEgress.Sink.StreamingSink
import RtcEgress.Sink.StreamingEnd
import RtcEgress.Lib.Gate
import RtcEgress.Sink.RecordingSink
import RtcEgress.Sink.RecordingThreads
import RtcEgress.Sink.RecordingStop
import RtcEgress.Sink.RecordingEnd
import RtcEgress.Sink.VideoCompositor
import RtcEgress.Webhook.Notifier
import RtcEgress.Webhook.Outbox
import RtcEgress.Webhook.Delivered
import RtcEgress.Webhook.NotifyStates
import RtcEgress.Upload.MetadataManager
import RtcEgress.Upload.MetadataFile
import RtcEgress.Upload.Preserved
import RtcEgress.Upload.Found
import RtcEgress.Upload.Watcher
import RtcEgress.Lib.AnnexB
import RtcEgress.Lib.Framing
import RtcEgress.Lib.DecoderConfig
import RtcEgress.Lib.Emulation
import RtcEgress.Passthrough.Bitstream
import RtcEgress.Passthrough.Conversion
import RtcEgress.Passthrough.Context
import RtcEgress.Passthrough.Bounds
import RtcEgress.Passthrough.Retry
import RtcEgress.Passthrough.Loss
import RtcEgress.Passthrough.Record
import RtcEgress.Passthrough.Profile
import RtcEgress.Lib.Int64
import RtcEgress.Lib.Stamps
import RtcEgress.Lib.Rescale
import RtcEgress.Lib.Blocks
import RtcEgress.Recording.Timestamps
import RtcEgress.Recording.Restart
import RtcEgress.Recording.IndividualAudio
import RtcEgress.Recording.PassthroughAudio
import RtcEgress.Sink.StreamingPts
import RtcEgress.Lib.Rect
import RtcEgress.Lib.Painter
import RtcEgress.Compositor.Regions
import RtcEgress.Compositor.Partition
import RtcEgress.Compositor.Scaling
import RtcEgress.Compositor.Rounding
import RtcEgress.Compositor.Compositor
import RtcEgress.Compositor.Order
import RtcEgress.Compositor.Painting
import RtcEgress.Compositor.FrameRate
import RtcEgress.Media.VideoFrame
import RtcEgress.Media.SnapshotInterval
import RtcEgress.Media.LayoutRuns
import RtcEgress.Queue.Selection
import RtcEgress.Queue.Yield
import RtcEgress.Upload.Sessions
import RtcEgress.Upload.ByteTotal
import RtcEgress.Upload.OneDocument
import RtcEgress.Recording.TsSegments
import RtcEgress.Recording.SegmentSwitch
import RtcEgress.Recording.TargetDuration
import RtcEgress.Webhook.Backoff
import RtcEgress.Queue.Provenance
import RtcEgress.Upload.Retry
import RtcEgress.Upload.AcceptedOnce
import RtcEgress.Health.Regional
import RtcEgress.Health.QueueMetrics
import RtcEgress.Sink.FrameEnd
import RtcEgress.Media.SnapshotStop
import RtcEgress.Webhook.Mutex
import RtcEgress.Webhook.Due
import RtcEgress.Message.Served
import RtcEgress.Recording.HlsPlaylist
import RtcEgress.Wire.Delivery
