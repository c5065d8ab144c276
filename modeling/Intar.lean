import Intar.Runs.CancelSafety
import Intar.Runs.SourceAnchor
import Intar.Runs.PhaseOrder
import Intar.Jailer.Guarantees
import Intar.Share.Following
import Intar.Share.Cast
import Intar.Share.RecordedGeneration
import Intar.Share.Stopping
import Intar.Image.RoundTrip
import Intar.Image.Agreement
import Intar.Image.BlockStatus
import Intar.Registry.CleanupFinish
import Intar.Registry.CacheIntents
import Intar.Builds.SlotCap
import Intar.Builds.GhostBuilds
import Intar.Builds.Bundles
import Intar.Gateway.Apps
import Intar.Agent.PeerAgreement
import Intar.Agent.ConcurrentCreates
import Intar.Agent.ReplayCompose
import Intar.Gateway.MirrorOutbox
import Intar.Gateway.MirrorWriter
import Intar.Gateway.Sessions
import Intar.Agent.BootPriority
