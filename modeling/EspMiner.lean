import EspMiner.Asic.BitmainAttribution
import EspMiner.Asic.BitmainBounds
import EspMiner.Asic.BitmainCommon
import EspMiner.Asic.BitmainDriver
import EspMiner.Asic.BitmainJobPacket
import EspMiner.Asic.Capabilities
import EspMiner.Asic.Crc
import EspMiner.Asic.FrequencyTransition
import EspMiner.Asic.Job
import EspMiner.Asic.JobStore
import EspMiner.Asic.JobStoreHandles
import EspMiner.Asic.Pll
import EspMiner.Asic.PllOptimality
import EspMiner.Bap.BufferBounds
import EspMiner.Bap.Buffers
import EspMiner.Bap.Protocol
import EspMiner.Bap.Receiver
import EspMiner.Bap.ReceiverDelivery
import EspMiner.Bap.ReceiverSoundness
import EspMiner.Bap.Settings
import EspMiner.Bap.SettingsExact
import EspMiner.Bzm.BalancedRamp
import EspMiner.Bzm.BalancedRampEvidence
import EspMiner.Bzm.BalancedRampRuns
import EspMiner.Bzm.Bridge
import EspMiner.Bzm.BridgeManifest
import EspMiner.Bzm.BridgeManifestExact
import EspMiner.Bzm.BridgeReplies
import EspMiner.Bzm.BridgeSwd
import EspMiner.Bzm.BridgeSwdFlash
import EspMiner.Bzm.BridgeUpdate
import EspMiner.Bzm.BridgeUpdateCourse
import EspMiner.Bzm.Bringup
import EspMiner.Bzm.BringupEvidence
import EspMiner.Bzm.BringupLiveSteps
import EspMiner.Bzm.Driver
import EspMiner.Bzm.DriverReplacement
import EspMiner.Bzm.DriverRotation
import EspMiner.Bzm.FrameParser
import EspMiner.Bzm.FrameParserMoves
import EspMiner.Bzm.FrameParserSoundness
import EspMiner.Bzm.FrameParserStreams
import EspMiner.Bzm.Frequency
import EspMiner.Bzm.FrequencyRamps
import EspMiner.Bzm.LiveTuning
import EspMiner.Bzm.LiveTuningClocks
import EspMiner.Bzm.LiveTuningSafety
import EspMiner.Bzm.NoncePartition
import EspMiner.Bzm.ParserRealign
import EspMiner.Bzm.ParserRealignBounds
import EspMiner.Bzm.PendingResults
import EspMiner.Bzm.Reactor
import EspMiner.Bzm.ReactorAttribution
import EspMiner.Bzm.ReactorEffect
import EspMiner.Bzm.ReactorInvariant
import EspMiner.Bzm.ReactorLedger
import EspMiner.Bzm.ReactorSequences
import EspMiner.Bzm.ReactorStale
import EspMiner.Bzm.ReactorStore
import EspMiner.Bzm.RegisterReplies
import EspMiner.Bzm.RegisterRepliesRuns
import EspMiner.Bzm.ResultDedup
import EspMiner.Bzm.RunningEvidence
import EspMiner.Bzm.RunningEvidenceRuns
import EspMiner.Bzm.SafetyStatus
import EspMiner.Bzm.SafetyStatusCoherence
import EspMiner.Bzm.Supervisor
import EspMiner.Bzm.SupervisorEffect
import EspMiner.Bzm.SupervisorSafety
import EspMiner.Bzm.Telemetry
import EspMiner.Bzm.TelemetryConfirmation
import EspMiner.Bzm.TelemetryConfirmationRuns
import EspMiner.Bzm.Topology
import EspMiner.Bzm.Transport
import EspMiner.Bzm.TransportIo
import EspMiner.Bzm.TransportStreams
import EspMiner.Bzm.Validation
import EspMiner.Bzm.ValidationRuns
import EspMiner.Bzm.Work
import EspMiner.Bzm.WorkHash
import EspMiner.Hashrate.Averages
import EspMiner.Hashrate.CounterWindow
import EspMiner.Http.LiveUpdates
import EspMiner.Http.LiveUpdatesConvergence
import EspMiner.Http.NetworkAccess
import EspMiner.Http.NetworkAccessExact
import EspMiner.Http.Uploads
import EspMiner.Http.UploadsExact
import EspMiner.Library.Binary32
import EspMiner.Library.Binary64
import EspMiner.Library.BlendedMean
import EspMiner.Library.CString
import EspMiner.Library.CheckedAccess
import EspMiner.Library.Codec
import EspMiner.Library.CompactSize
import EspMiner.Library.Crc
import EspMiner.Library.Decimal
import EspMiner.Library.DoubleWord
import EspMiner.Library.DropOldest
import EspMiner.Library.ExactRead
import EspMiner.Library.Fields
import EspMiner.Library.FixedPoint
import EspMiner.Library.InternetAddress
import EspMiner.Library.Iteration
import EspMiner.Library.Journal
import EspMiner.Library.Json
import EspMiner.Library.JsonText
import EspMiner.Library.LittleEndian
import EspMiner.Library.MaskedCounter
import EspMiner.Library.NearTie
import EspMiner.Library.NoiseNx
import EspMiner.Library.NonzeroCounter
import EspMiner.Library.NumberText
import EspMiner.Library.Ranking
import EspMiner.Library.Ring
import EspMiner.Library.RoundRobin
import EspMiner.Library.Rounding
import EspMiner.Library.Run
import EspMiner.Library.Script
import EspMiner.Library.Sha256
import EspMiner.Library.TextSearch
import EspMiner.Library.Tiling
import EspMiner.Library.WindowMean
import EspMiner.Main.CreateJobs
import EspMiner.Main.LogBuffer
import EspMiner.Main.LogBufferStream
import EspMiner.Main.MiningJobAgreement
import EspMiner.Main.NoinitCounterRuns
import EspMiner.Main.NoinitCounters
import EspMiner.Main.PowerManagement
import EspMiner.Main.PowerManagementEpochs
import EspMiner.Main.PowerManagementRequests
import EspMiner.Main.PowerManagementService
import EspMiner.Main.RejectedReasons
import EspMiner.Main.Scoreboard
import EspMiner.Main.ScoreboardRanking
import EspMiner.Main.Statistics
import EspMiner.Main.StratumSubmission
import EspMiner.Main.StratumSubmissionNumbers
import EspMiner.Main.StratumSubmissionObjects
import EspMiner.Main.StratumSubmissionOrder
import EspMiner.Main.StratumSubmissionVersions
import EspMiner.Main.StratumSubmissionWork
import EspMiner.Main.StratumTask
import EspMiner.Main.StratumV1Accounting
import EspMiner.Main.StratumV1AccountingRuns
import EspMiner.Main.StratumV1Client
import EspMiner.Main.StratumV1Slots
import EspMiner.Main.StratumV2Client
import EspMiner.Main.StratumV2Effect
import EspMiner.Main.StratumV2Generations
import EspMiner.Main.StratumV2Shares
import EspMiner.Main.StratumV2Templates
import EspMiner.Main.VersionRolling
import EspMiner.Power.PowerPolicy
import EspMiner.Power.PowerPolicyEffect
import EspMiner.Power.PowerPolicyIdle
import EspMiner.Power.PowerPolicyRecovery
import EspMiner.Power.PowerPolicySafety
import EspMiner.Power.Slinear11
import EspMiner.Stratum.CoinbaseAcceptance
import EspMiner.Stratum.CoinbaseAgreement
import EspMiner.Stratum.CoinbaseDecoder
import EspMiner.Stratum.CoinbaseProcess
import EspMiner.Stratum.CoinbaseTransaction
import EspMiner.Stratum.HexCoding
import EspMiner.Stratum.Midstate
import EspMiner.Stratum.MidstateSha256
import EspMiner.Stratum.MinerJob
import EspMiner.Stratum.Mining
import EspMiner.Stratum.MiningJob
import EspMiner.Stratum.MiningJobHex
import EspMiner.Stratum.Sv1Client
import EspMiner.Stratum.Sv1ClientLines
import EspMiner.Stratum.Sv1Protocol
import EspMiner.Stratum.Sv1Requests
import EspMiner.Stratum.Sv1Writer
import EspMiner.Stratum.Sv2Builders
import EspMiner.Stratum.Sv2ExtendedJob
import EspMiner.Stratum.Sv2Formats
import EspMiner.Stratum.Sv2Messages
import EspMiner.Stratum.Sv2Noise
import EspMiner.Stratum.Sv2NoiseChannel
import EspMiner.Stratum.Sv2NoiseHandshake
import EspMiner.Stratum.Sv2Parsers
import EspMiner.Stratum.Sv2Protocol
import EspMiner.Stratum.Work
