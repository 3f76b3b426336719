import VlcWhisper.Lib.Wire
import VlcWhisper.Lib.CData
import VlcWhisper.Lib.Checked
import VlcWhisper.Lib.Binary32
import VlcWhisper.Lib.Ring
import VlcWhisper.Lib.Machine
import VlcWhisper.Lib.Program
import VlcWhisper.Lib.Sequence
import VlcWhisper.Lib.SecureHash
import VlcWhisper.Lib.Utf8
import VlcWhisper.Protocol.Types
import VlcWhisper.Protocol.Validate
import VlcWhisper.Protocol.Utf8Helpers
import VlcWhisper.Protocol.Codec
import VlcWhisper.Protocol.RoundTrip
import VlcWhisper.Protocol.Canonical
import VlcWhisper.Plugin.WorkerClient
import VlcWhisper.Plugin.Producers
import VlcWhisper.Worker.CueText
import VlcWhisper.Worker.Translate
import VlcWhisper.Worker.SegmentBuilder
import VlcWhisper.Worker.CueOrder
import VlcWhisper.Worker.CueDedup
import VlcWhisper.Worker.PointerBuilder
import VlcWhisper.Worker.CueQueue
import VlcWhisper.Worker.TranslateAsync
import VlcWhisper.Worker.TranslateOrder
import VlcWhisper.Worker.CaptionWire
import VlcWhisper.Worker.AudioBuffer
import VlcWhisper.Worker.Vad
import VlcWhisper.Worker.VadCuts
import VlcWhisper.Worker.TailFlush
import VlcWhisper.Worker.LiveCoverage
import VlcWhisper.Worker.FrameQueue
import VlcWhisper.Worker.QueuePause
import VlcWhisper.Worker.WorkerState
import VlcWhisper.Worker.WorkerActions
import VlcWhisper.Worker.WorkerLoop
import VlcWhisper.Worker.WorkerSteps
import VlcWhisper.Worker.LoopSteps
import VlcWhisper.Worker.Attribution
import VlcWhisper.Plugin.AudioCapture
import VlcWhisper.Worker.AudioTimeline
import VlcWhisper.Worker.AudioLedger
import VlcWhisper.Lib.Records
import VlcWhisper.Protocol.Transport
import VlcWhisper.Plugin.Link
import VlcWhisper.Worker.Reader
import VlcWhisper.System.Framing
import VlcWhisper.Plugin.ClientIo
import VlcWhisper.Plugin.TransportSteps
import VlcWhisper.Plugin.WriteFailure
import VlcWhisper.Plugin.ReceiveFrame
import VlcWhisper.Worker.HealthSteps
import VlcWhisper.Worker.WriteSteps
import VlcWhisper.Worker.WriteFinality
import VlcWhisper.Worker.Process
import VlcWhisper.Plugin.SpscQueue
import VlcWhisper.Worker.AudioGap
import VlcWhisper.Plugin.CapturedFrames
import VlcWhisper.Worker.ForeignFrames
import VlcWhisper.Worker.AuthGate
import VlcWhisper.Worker.Quiet
import VlcWhisper.Worker.AudioBound
import VlcWhisper.Worker.Epochs
import VlcWhisper.Worker.NewSession
import VlcWhisper.Worker.Rested
import VlcWhisper.Worker.TimelineBreak
import VlcWhisper.Worker.PauseAgreement
import VlcWhisper.Worker.TranslateText
import VlcWhisper.Worker.TieredOutcome
import VlcWhisper.Worker.BlameLine
import VlcWhisper.Worker.BlameWire
import VlcWhisper.Worker.PoppedOnce
import VlcWhisper.Worker.CaptionOrder
import VlcWhisper.Worker.CueConservation
import VlcWhisper.Worker.TranslationBlame
import VlcWhisper.Worker.ReaderStream
import VlcWhisper.Worker.Numbering
import VlcWhisper.Worker.Sequences
import VlcWhisper.Plugin.SpscSteps
import VlcWhisper.Worker.Playback
import VlcWhisper.Worker.SeekSuppression
import VlcWhisper.Worker.Sha256
import VlcWhisper.Worker.Sha256Standard
import VlcWhisper.Worker.SourceUri
import VlcWhisper.Worker.SourceDecoder
import VlcWhisper.Worker.SeekTrim
import VlcWhisper.Worker.SourceChunks
import VlcWhisper.Worker.SourceContinuity
import VlcWhisper.Lib.Json
import VlcWhisper.Worker.JsonStrings
import VlcWhisper.Worker.RpcBody
import VlcWhisper.Worker.ResponseText
import VlcWhisper.Worker.JsonResponses
import VlcWhisper.Lib.Stores
import VlcWhisper.Worker.MobilePage
import VlcWhisper.Worker.ResponseRuns
import VlcWhisper.Worker.ModelDownload
import VlcWhisper.Worker.SingleFlight
import VlcWhisper.Worker.AbortOutcome
import VlcWhisper.System.ModelProgress
import VlcWhisper.Plugin.CaptionPresenter
import VlcWhisper.Plugin.CueDisplay
import VlcWhisper.Plugin.CueTimes
import VlcWhisper.Plugin.SenderLoop
import VlcWhisper.Plugin.ClientWrites
import VlcWhisper.System.RespawnBudget
import VlcWhisper.System.ClientEpochs
import VlcWhisper.System.SeekEpoch
import VlcWhisper.Lib.Newest
import VlcWhisper.Worker.LogPolicy
import VlcWhisper.Worker.TailOverlap
import VlcWhisper.Worker.TranslateBudget
import VlcWhisper.Plugin.BenchmarkTotals
import VlcWhisper.Plugin.MeteredSender
import VlcWhisper.Plugin.CueAccounting
import VlcWhisper.Lib.CommandLine
import VlcWhisper.Plugin.WorkerLaunch
import VlcWhisper.Worker.WorkerConfig
import VlcWhisper.System.LaunchConfig
import VlcWhisper.Lib.Attempt
import VlcWhisper.Lib.Handles
import VlcWhisper.Worker.HttpRequest
import VlcWhisper.Worker.HttpOutcome
import VlcWhisper.Worker.HttpReturns
import VlcWhisper.Plugin.AudioFilter
import VlcWhisper.Plugin.AudioEpochs
import VlcWhisper.System.CaptionPath
import VlcWhisper.System.EndToEnd
import VlcWhisper.Plugin.Children
import VlcWhisper.Plugin.ChildrenOwned
import VlcWhisper.Lib.Slots
import VlcWhisper.Lib.Mealy
import VlcWhisper.System.LogSinks
import VlcWhisper.System.EndpointMeeting
import VlcWhisper.Lib.References
import VlcWhisper.Plugin.Screen
import VlcWhisper.Plugin.ScreenOwned
import VlcWhisper.Lib.Isolation
import VlcWhisper.System.SharedModels
