import LosslessMusic.Queue.RateLimitRetry
import LosslessMusic.Queue.Completion
import LosslessMusic.Queue.Quiescence
import LosslessMusic.Queue.Reentry
import LosslessMusic.Queue.Calls
import LosslessMusic.Queue.Coherence
import LosslessMusic.Transfer.PoolResults
import LosslessMusic.Admission.Balance
import LosslessMusic.Dlna.Shutdowns
import LosslessMusic.Engine.FailedSetters
import LosslessMusic.Worker.Snapshots
import LosslessMusic.Engine.IsolationSafety
import LosslessMusic.Download.Policy
import LosslessMusic.Download.Quality
import LosslessMusic.Resolution.Budget
import LosslessMusic.Dlna.Browsing
import LosslessMusic.Finishing.InStep
import LosslessMusic.Finishing.ContainerExtensionRuns
import LosslessMusic.Naming.Segments
import LosslessMusic.Naming.Preview
import LosslessMusic.Extensions.CallbackRuns
import LosslessMusic.Extensions.DownloadPromises
import LosslessMusic.Extensions.StoreRuns
import LosslessMusic.Extensions.SourceRuns
import LosslessMusic.Extensions.RuntimeRuns
import LosslessMusic.Providers.LookupRuns
import LosslessMusic.Extensions.RepositoryPromises
import LosslessMusic.Extensions.PackageStaging
import LosslessMusic.Extensions.SessionCallers
import LosslessMusic.Scanning.DeltaExactness
import LosslessMusic.Cancellation.Promises
import LosslessMusic.Progress.Listeners
import LosslessMusic.Extensions.OutputFiles
import LosslessMusic.Extensions.Publication
import LosslessMusic.Notifiers.Search
import LosslessMusic.Notifiers.HomeFeed
import LosslessMusic.Queue.Verification
import LosslessMusic.Isrc.Duplicates
import LosslessMusic.Naming.SafeNames
import LosslessMusic.Lyrics.KeptText
import LosslessMusic.Lyrics.CallRuns
import LosslessMusic.Network.DotSegments
import LosslessMusic.Network.ClientSafety
