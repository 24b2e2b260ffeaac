import SigxActors.Host.FinalFlush
import SigxActors.Host.DrainWaits
import SigxActors.Cluster.FailedActivation
import SigxActors.Cluster.FenceCompleteness
import SigxActors.Host.TurnLane
import SigxActors.Host.WatchEnds
import SigxActors.Host.WatchFresh
import SigxActors.Host.WatchIsolation
import SigxActors.Host.RemindersLinear
import SigxActors.Host.ParkedCalls
import SigxActors.Cloudflare.NeverStranded
import SigxActors.Redis.ReminderRetry
import SigxActors.Workflow.Sleeps
import SigxActors.Workflow.Ends
import SigxActors.Workflow.Resumption
import SigxActors.Workflow.Touches
import SigxActors.Host.TaskDurability
import SigxActors.Client.RoutedOnce
import SigxActors.Client.RoutedStream
import SigxActors.Client.FetchRetry
import SigxActors.Cluster.CoalesceServes
import SigxActors.Cluster.CreditConserved
import SigxActors.Cluster.IdRounds
import SigxActors.Cluster.ServingCancel
import SigxActors.Cluster.HttpTransport
import SigxActors.Cluster.DialSettled
import SigxActors.Cluster.HeartbeatClock
import SigxActors.Postgres.VersionGate
import SigxActors.Kubernetes.Publication
import SigxActors.Kubernetes.ListWatchCoherence
import SigxActors.Socket.Concurrency
import SigxActors.Client.LiveCurrent
import SigxActors.Client.Fingerprint
import SigxActors.Client.SocketSettles
import SigxActors.Client.SocketAborts
import SigxActors.Client.SocketRedial
import SigxActors.Cluster.Receiving
import SigxActors.Host.WatchTrees
import SigxActors.Codec.WireSafety
import SigxActors.Cluster.HostAuth
import SigxActors.Codec.WireRoundTrip
import SigxActors.Codec.ReadQuery
import SigxActors.Host.FailedWakes
import SigxActors.Host.WorkerPools
import SigxActors.Client.LiveCoverage
import SigxActors.Live.Teardown
import SigxActors.Live.FrameOrder
import SigxActors.Live.StreamRelay
import SigxActors.Job.AttemptsBounded
import SigxActors.Host.RosterCommits
import SigxActors.Host.CallDeadlines
import SigxActors.Cluster.DepartureSweep
import SigxActors.Host.Histogram
import SigxActors.Host.WatchPump
import SigxActors.Host.ChangeFeedCurrent
import SigxActors.Postgres.StatusOrder
import SigxActors.Vite.ExtractCovers
