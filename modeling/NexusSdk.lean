import NexusSdk.Lib.Dict
import NexusSdk.Lib.Run
import NexusSdk.Lib.Dependency
import NexusSdk.Lib.Text
import NexusSdk.Lib.Stateful
import NexusSdk.Lib.Overlay
import NexusSdk.Lib.Glob
import NexusSdk.Lib.KeyTree
import NexusSdk.Lib.PosixPath
import NexusSdk.Lib.Traced
import NexusSdk.Lib.Retry
import NexusSdk.Lib.Coroutine
import NexusSdk.Lib.Base64
import NexusSdk.Lib.Json
import NexusSdk.Lib.JsonRoundTrip
import NexusSdk.Lib.Utf8
import NexusSdk.Python
import NexusSdk.Exceptions
import NexusSdk.Cache.Model
import NexusSdk.Cache.Steps
import NexusSdk.Cache.Extension
import NexusSdk.Cache.Failures
import NexusSdk.Cache.Accounting
import NexusSdk.Cache.Termination
import NexusSdk.Cache.Once
import NexusSdk.Cache.Quiescence
import NexusSdk.Cache.Evaluation
import NexusSdk.Cache.Consistency
import NexusSdk.Cache.Progress
import NexusSdk.Cache.Errors
import NexusSdk.Cache.Origins
import NexusSdk.Cache.Classification
import NexusSdk.Cache.Depth
import NexusSdk.Cache.Lifetime
import NexusSdk.Cache.Isolation
import NexusSdk.Cache.Deadlock
import NexusSdk.Cache.Alias
import NexusSdk.Cache.RootCause
import NexusSdk.Client.Models
import NexusSdk.Client.RunConfiguration
import NexusSdk.Client.Session
import NexusSdk.Client.HandleRelease
import NexusSdk.Client.Receiver
import NexusSdk.Client.Results
import NexusSdk.Client.Scheduler
import NexusSdk.Client.RetryPolicy
import NexusSdk.Client.RetryBuilder
import NexusSdk.Client.ListQueries
import NexusSdk.Client.MetadataQueries
import NexusSdk.Client.ArrayRelease
import NexusSdk.Client.CreateAndAwait
import NexusSdk.Client.PropagateError
import NexusSdk.Client.CompleteRun
import NexusSdk.Input.PayloadReader
import NexusSdk.Input.Compression
import NexusSdk.Input.ContentErrors
import NexusSdk.Core.CacheFactory
import NexusSdk.Core.Configuration
import NexusSdk.Core.ConfigExtensions
import NexusSdk.Core.PropertyKeys
import NexusSdk.Core.Activate
import NexusSdk.Core.ExitStatus
import NexusSdk.Core.RunOutcome
import NexusSdk.Core.Report
import NexusSdk.Core.Acknowledgement
import NexusSdk.Core.Completions
import NexusSdk.Core.Traceback
import NexusSdk.Core.UserTelemetry
import NexusSdk.Core.TelemetryPaths
import NexusSdk.Core.InputTelemetry
import NexusSdk.Core.Startup
import NexusSdk.Core.Bootstrap
import NexusSdk.Core.AppBootstrap
import NexusSdk.Core.Snapshot
import NexusSdk.Core.StartupChecks
import NexusSdk.Core.ImportPaths
import NexusSdk.Core.Stores
import NexusSdk.Core.PayloadRecording
import NexusSdk.Input.JsonPayload
import NexusSdk.Execution.Trees
import NexusSdk.Execution.DependencyGraph
import NexusSdk.Algorithms.RemotePayload
import NexusSdk.Algorithms.RemoteAlgorithm
import NexusSdk.Algorithms.Baseline
import NexusSdk.Algorithms.InputKeywords
import NexusSdk.Algorithms.Steps
import NexusSdk.Algorithms.Submission
import NexusSdk.Algorithms.Lookup
import NexusSdk.Algorithms.Deduplication
import NexusSdk.Algorithms.DirectedGraph
import NexusSdk.Algorithms.Spawning
import NexusSdk.Algorithms.SpawnAccounting
import NexusSdk.Algorithms.Runs
import NexusSdk.Algorithms.Collection
import NexusSdk.Algorithms.Isolation
import NexusSdk.Algorithms.Distributed
import NexusSdk.Algorithms.Delivery
import NexusSdk.Algorithms.SpawnedRuns
import NexusSdk.Algorithms.Restarts
import NexusSdk.Algorithms.Retries
import NexusSdk.Algorithms.SharedInputs
import NexusSdk.Algorithms.GraphRun
import NexusSdk.Algorithms.GraphRefinement
import NexusSdk.Algorithms.GraphResults
import NexusSdk.Algorithms.GraphOutcome
