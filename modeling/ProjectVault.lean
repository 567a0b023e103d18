import ProjectVault.Rotation.Install
import ProjectVault.Rotation.Ledger
import ProjectVault.Rotation.Checklist
import ProjectVault.Audit.Canonical
import ProjectVault.Audit.Tamper
import ProjectVault.Platform.Verify
import ProjectVault.Rotation.FieldScope
import ProjectVault.Rotation.Batch
import ProjectVault.Shares.Disclosure
import ProjectVault.Shares.PendingCap
import ProjectVault.Shares.Verification
import ProjectVault.Notifications.Claim
import ProjectVault.Cli.EnvFile
import ProjectVault.Delegation.Handoff
import ProjectVault.Recovery.CodeLogin
import ProjectVault.Cli.DeviceGrant
import ProjectVault.Auth.AccountRecovery
import ProjectVault.Agent.Disclosure
import ProjectVault.Agent.SharedCache
import ProjectVault.Composition.Meaning
import ProjectVault.Monitoring.Episodes
import ProjectVault.Audit.ForwardRuns
import ProjectVault.Audit.ExportLaw
import ProjectVault.Audit.IdempotentWrites
import ProjectVault.ProjectExport.ExportReferences
import ProjectVault.MachineUsers.Lineage
import ProjectVault.Projects.LifecycleRuns
import ProjectVault.Projects.OwnerRuns
import ProjectVault.Org.HandlingRuns
import ProjectVault.Net.Filter
import ProjectVault.Route.SecureRoute
import ProjectVault.Backup.Exclusion
import ProjectVault.ServiceProvisioning.Idempotence
import ProjectVault.Shares.Outlived
import ProjectVault.Erasure.Complete
import ProjectVault.Rotation.Cron
import ProjectVault.Cli.AtomicFile
import ProjectVault.Composition.Apply
import ProjectVault.Audit.QuotaConfig
import ProjectVault.Cli.Semver
import ProjectVault.Composition.Queue
import ProjectVault.Route.RateLimit
import ProjectVault.Route.Sanitize
import ProjectVault.Credentials.EnvParser
