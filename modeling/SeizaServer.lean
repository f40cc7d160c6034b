import SeizaServer.PostgresLiveLease
import SeizaServer.SqlxLease
import SeizaServer.SqlxRecordInvariant
import SeizaServer.SqlxFairness
import SeizaServer.SqlxQueueDelivery
import SeizaServer.DynamoLease
import SeizaServer.DynamoQueueDelivery
import SeizaServer.EmailSendLimiter
import SeizaServer.RequestSource
import SeizaServer.SessionRenewal
import SeizaServer.DynamoKeyRevocation
import SeizaServer.DynamoPasskeys
import SeizaServer.DynamoEmailChallenges
import SeizaServer.SqlxEmailSignIn
import SeizaServer.SolveAdmission
import SeizaServer.HeaderHints
import SeizaServer.PersistedJobs
import SeizaServer.ValidationImages
import SeizaServer.ConcurrentPatches
import SeizaServer.ResumableFinalization
import SeizaServer.UploadRetention
import SeizaServer.UploadDelivery
import SeizaServer.UploadTermination
import SeizaServer.FinalConcatenation
import SeizaServer.HeaderProbe
import SeizaServer.SendRetry
import SeizaServer.FlatBands
import SeizaServer.Annotations
import SeizaServer.StarLabels
import SeizaServer.WcsHeader
import SeizaServer.OverlayText
import SeizaServer.OverlayClamps
import SeizaServer.PredictionCache
import SeizaServer.SqsSchedule
import SeizaServer.SipRecords
import SeizaServer.ClientIdentity
import SeizaServer.ReloadingCatalog
import SeizaServer.SatellitePredictions
import SeizaServer.TimeComparisons
import SeizaServer.CaptureDates
import SeizaServer.MigrationRun
import SeizaServer.MigratedLookups
import SeizaServer.LegacyConversion
import SeizaServer.PasskeyBackends
import SeizaServer.TokenText
import SeizaServer.UploadMetadata
import SeizaServer.ConcatParts
import SeizaServer.PublicLinks
