import HsmSecretsOperator.Hsm.Isolation
import HsmSecretsOperator.Api.Routes
import HsmSecretsOperator.System.Deletion
import HsmSecretsOperator.System.Tombstones
import HsmSecretsOperator.System.Convergence
import HsmSecretsOperator.System.ReadBack
import HsmSecretsOperator.System.Ordering
import HsmSecretsOperator.Api.PinRotation
import HsmSecretsOperator.System.ContentIdentity
import HsmSecretsOperator.Api.Consistency
import HsmSecretsOperator.System.KeyDeletion
import HsmSecretsOperator.System.ReadErrors
import HsmSecretsOperator.System.UserMetadata
import HsmSecretsOperator.System.MirrorAgreement
import HsmSecretsOperator.System.ReservedMetadata
import HsmSecretsOperator.Hsm.Enumeration
import HsmSecretsOperator.Hsm.Listing
import HsmSecretsOperator.System.ClientRouting
import HsmSecretsOperator.System.DeviceIdentity
import HsmSecretsOperator.System.PoolIsolation
import HsmSecretsOperator.System.AgentRetention
import HsmSecretsOperator.System.GracePeriod
import HsmSecretsOperator.System.DeviceLimit
import HsmSecretsOperator.System.PluginInventory
import HsmSecretsOperator.Pki.Bootstrap
import HsmSecretsOperator.Kubectl.RenameKey
import HsmSecretsOperator.Kubectl.Tokens
import HsmSecretsOperator.System.SecretOwnership
import HsmSecretsOperator.Reconcile.Verdict
import HsmSecretsOperator.System.MetadataRepair
import HsmSecretsOperator.Mirror.Report
import HsmSecretsOperator.Hsm.WriteFailure
import HsmSecretsOperator.Hsm.UniqueLabels
import HsmSecretsOperator.Hsm.Mock
import HsmSecretsOperator.Controller.SecretContent
import HsmSecretsOperator.Pool.Readiness
import HsmSecretsOperator.Pool.Reaping
import HsmSecretsOperator.System.WinnerData
import HsmSecretsOperator.System.ConditionHistory
import HsmSecretsOperator.Controller.Cleanup
import HsmSecretsOperator.Agent.Transparency
import HsmSecretsOperator.Pool.Drift
import HsmSecretsOperator.Agent.Tracking
import HsmSecretsOperator.Agent.ClientRetry
import HsmSecretsOperator.Modes.Startup
import HsmSecretsOperator.Discovery.Monitoring
import HsmSecretsOperator.Discovery.Displacement
import HsmSecretsOperator.Discovery.Merge
import HsmSecretsOperator.Mirror.Checksums
import HsmSecretsOperator.Agent.Redaction
import HsmSecretsOperator.Security.PathLanguage
import HsmSecretsOperator.Kubectl.FromFile
import HsmSecretsOperator.Agent.SlotSelection
import HsmSecretsOperator.Pki.Idempotence
import HsmSecretsOperator.Controller.LabelValues
import HsmSecretsOperator.Discovery.Allowlist
import HsmSecretsOperator.Hsm.PinProvider
import HsmSecretsOperator.Pki.Rotation
import HsmSecretsOperator.Controller.DiscoveryDaemonSet
