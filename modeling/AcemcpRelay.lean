import AcemcpRelay.Store.Attempt
import AcemcpRelay.Store.Checks
import AcemcpRelay.Store.Eviction
import AcemcpRelay.Store.Expiring
import AcemcpRelay.Store.Oldest
import AcemcpRelay.Store.Once
import AcemcpRelay.Store.Resend
import AcemcpRelay.Store.Spacing
import AcemcpRelay.Store.Table
import AcemcpRelay.Store.Maps
import AcemcpRelay.Store.Transition
import AcemcpRelay.Schema
import AcemcpRelay.Text
import AcemcpRelay.JobID
import AcemcpRelay.Wire.Base64
import AcemcpRelay.Wire.Infix
import AcemcpRelay.Wire.Json
import AcemcpRelay.Wire.Value
import AcemcpRelay.Wire.Fields
import AcemcpRelay.Wire.Decoded
import AcemcpRelay.Operations
import AcemcpRelay.Quota
import AcemcpRelay.QuotaTables
import AcemcpRelay.QuotaCache
import AcemcpRelay.IndexQuota
import AcemcpRelay.SwiftUpload
import AcemcpRelay.RootState
import AcemcpRelay.RootDeletion
import AcemcpRelay.PlatformConfig
import AcemcpRelay.Failure
import AcemcpRelay.Manifest
import AcemcpRelay.Authentication
import AcemcpRelay.Sessions
import AcemcpRelay.RequestLogs
import AcemcpRelay.Jobs.Start
import AcemcpRelay.Jobs.Upload
import AcemcpRelay.Jobs.Status
import AcemcpRelay.Jobs.Publish
import AcemcpRelay.Jobs.Close
import AcemcpRelay.IndexTool
import AcemcpRelay.UploadCall
import AcemcpRelay.UploadAttempt
import AcemcpRelay.Cloud
import AcemcpRelay.Calls
import AcemcpRelay.ToolCalls
import AcemcpRelay.Admission
import AcemcpRelay.ToolListing
import AcemcpRelay.IndexArguments
import AcemcpRelay.Transactions
import AcemcpRelay.Sweeps
import AcemcpRelay.Frame
import AcemcpRelay.System
import AcemcpRelay.SystemSteps
import AcemcpRelay.JobSteps
import AcemcpRelay.DeletionSteps
import AcemcpRelay.ManifestSteps
import AcemcpRelay.SnapshotSteps
import AcemcpRelay.Properties.ManifestDiff
import AcemcpRelay.Properties.LeaseCompatibility
import AcemcpRelay.Properties.Fences
import AcemcpRelay.Properties.JobOwnership
import AcemcpRelay.Properties.TerminalJobs
import AcemcpRelay.Properties.Handoff
import AcemcpRelay.Properties.Finishable
import AcemcpRelay.Properties.Counters
import AcemcpRelay.Properties.Lifecycle
import AcemcpRelay.Properties.Owners
import AcemcpRelay.Properties.RoundRobin
import AcemcpRelay.Properties.FullJobs
import AcemcpRelay.Properties.RootDeletionFence
import AcemcpRelay.Properties.RootRemoval
import AcemcpRelay.Properties.DeletionAdmission
import AcemcpRelay.Properties.PlatformReset
import AcemcpRelay.Properties.TenantIsolation
import AcemcpRelay.Properties.Revocation
import AcemcpRelay.Properties.CallerTenant
import AcemcpRelay.Properties.ReplyCounts
import AcemcpRelay.Properties.RequestQuota
import AcemcpRelay.Properties.QuotaLimits
import AcemcpRelay.Properties.FailureTexts
import AcemcpRelay.Properties.RateLimits
import AcemcpRelay.Properties.BytePool
import AcemcpRelay.Properties.FileCharges
import AcemcpRelay.Properties.FileReplays
import AcemcpRelay.Properties.SessionSlots
import AcemcpRelay.Properties.IndexSpaces
import AcemcpRelay.Properties.AdmittedOnce
import AcemcpRelay.Properties.PublicTools
import AcemcpRelay.Properties.PublicationPaths
import AcemcpRelay.Properties.SwiftParts
import AcemcpRelay.Properties.Convergence
import AcemcpRelay.Properties.AccountingKeys
import AcemcpRelay.Properties.BatchOutcome
import AcemcpRelay.Properties.Framing
import AcemcpRelay.Properties.LogLines
import AcemcpRelay.Properties.LogLife
import AcemcpRelay.Properties.LogAnswers
import AcemcpRelay.Properties.PathPolicy
import AcemcpRelay.Properties.SessionHygiene
import AcemcpRelay.Properties.StreamRegistry
import AcemcpRelay.Properties.Truncation
import AcemcpRelay.Properties.VersionGate
