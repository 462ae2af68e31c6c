import AimData.Activation.Credentials
import AimData.Verification.ScanSpec
import AimData.Activation.Offline
import AimData.Activation.Stale
import AimData.Activation.Store
import AimData.Merkle.Consistency
import AimData.Merkle.DiskTree
import AimData.Canonical.Meaning
import AimData.Canonical.Permuted
import AimData.Preview.Publication
import AimData.TrustChannel.Session
import AimData.Signing.Preimage
import AimData.Preview.Signing
import AimData.Preview.Decode
import AimData.Preview.Journal
import AimData.Preview.LogEvidence
import AimData.Build.Schedule
import AimData.Fulfillment.LateAck
import AimData.Fulfillment.Chunks
import AimData.Fulfillment.Ending
import AimData.Billing.Attempts
import AimData.Billing.DeductionQueue
import AimData.Verification.Request
import AimData.Verification.Status
import AimData.Verification.Probe
import AimData.Publish.VersionPublish
import AimData.Publish.Sensitive
import AimData.S3.Source
import AimData.S3.Pages
import AimData.Dataset.Save
import AimData.Eolymp.NullCount
import AimData.Eolymp.NullRate
import AimData.Sql.Limit
import AimData.Directory.Content
import AimData.Directory.Profiled
import AimData.Approval.Tokens
import AimData.Processing.Queue
import AimData.Serial.OfflineQueue
import AimData.Connectivity.RateLimiter
import AimData.Billing.Metering
import AimData.Preview.Request
import AimData.Preview.SellerJob
import AimData.Preview.FrozenRequest
import AimData.Preview.Succession
import AimData.Publish.RawListing
import AimData.Publish.Entitlement
import AimData.Portal.Config
import AimData.Portal.Settings
import AimData.Portal.Sessions
import AimData.Activation.Install
import AimData.InstallKey.Keystore
import AimData.InstallKey.Rotation
import AimData.InstallKey.Recovery
import AimData.Auth.CredentialCache
import AimData.Processing.Streaming
import AimData.Copilot.Connections
import AimData.Preview.Disclosable
import AimData.Preview.Reviewed
import AimData.Verification.Identifiers
import AimData.Dataset.Extracted
import AimData.Portal.Search
import AimData.Imports.Job
import AimData.Dataset.Scrub
import AimData.Merkle.DiskBudget
import AimData.Diagnostics.Redaction
import AimData.Copilot.Sanitizer
import AimData.Copilot.Placeholders
import AimData.Connectivity.McpGuard
import AimData.Connectivity.Gateway
import AimData.Copilot.ToolGate
import AimData.Requests.Sync
import AimData.Portal.Sso
