import OpenEverest.Accounts.Commands
import OpenEverest.Accounts.Interleaving
import OpenEverest.Accounts.Passwords
import OpenEverest.Accounts.Store
import OpenEverest.Api.DatabaseCluster
import OpenEverest.Api.Objects
import OpenEverest.Api.Storages
import OpenEverest.Cli.HelmDocuments
import OpenEverest.Cli.HelmFilter
import OpenEverest.Cli.HelmTemplate
import OpenEverest.Cli.HelmValues
import OpenEverest.Cli.NamespaceRemoval
import OpenEverest.Cli.NamespaceRemovalRuns
import OpenEverest.Cli.Spinner
import OpenEverest.Cli.Together
import OpenEverest.Cli.Uninstall
import OpenEverest.Cli.UninstallRuns
import OpenEverest.Cli.Upgrade
import OpenEverest.Cli.UpgradeRuns
import OpenEverest.Cli.UpgradeSteps
import OpenEverest.Cli.UpgradeTarget
import OpenEverest.Cli.UpgradesTogether
import OpenEverest.Framework.Answers
import OpenEverest.Framework.ApiServer
import OpenEverest.Framework.Calendar
import OpenEverest.Framework.Checks
import OpenEverest.Framework.Cron
import OpenEverest.Framework.CronText
import OpenEverest.Framework.Duration
import OpenEverest.Framework.Editor
import OpenEverest.Framework.GoDecimal
import OpenEverest.Framework.GoString
import OpenEverest.Framework.Interrupted
import OpenEverest.Framework.JsArray
import OpenEverest.Framework.JsDecimal
import OpenEverest.Framework.JsNumber
import OpenEverest.Framework.KeyScan
import OpenEverest.Framework.Linearization
import OpenEverest.Framework.NestedMaps
import OpenEverest.Framework.ObjectStore
import OpenEverest.Framework.PathMatch
import OpenEverest.Framework.Process
import OpenEverest.Framework.Quantity
import OpenEverest.Framework.Reachability
import OpenEverest.Framework.RelyGuarantee
import OpenEverest.Framework.Retry
import OpenEverest.Framework.Run
import OpenEverest.Framework.Select
import OpenEverest.Framework.Semver
import OpenEverest.Framework.SemverNumbers
import OpenEverest.Framework.SortFunc
import OpenEverest.Framework.SplitText
import OpenEverest.Framework.Uri
import OpenEverest.Framework.Validated
import OpenEverest.Framework.Versioned
import OpenEverest.Framework.Watched
import OpenEverest.K8s.ApprovalRuns
import OpenEverest.K8s.ApproveUpgrade
import OpenEverest.K8s.Backoff
import OpenEverest.K8s.BackupRuns
import OpenEverest.K8s.ConnectionUrl
import OpenEverest.K8s.ConsumedResources
import OpenEverest.K8s.Convertors
import OpenEverest.K8s.CredentialFailures
import OpenEverest.K8s.CredentialRuns
import OpenEverest.K8s.Credentials
import OpenEverest.K8s.DeleteCluster
import OpenEverest.K8s.InstallPlans
import OpenEverest.K8s.Pitr
import OpenEverest.K8s.Preflight
import OpenEverest.K8s.StorageClasses
import OpenEverest.K8s.UpgradePlan
import OpenEverest.Policies.PodScheduling
import OpenEverest.Policies.PodSchedulingRuns
import OpenEverest.Rbac.DataImporters
import OpenEverest.Rbac.DatabaseCluster
import OpenEverest.Rbac.Enforce
import OpenEverest.Rbac.Lists
import OpenEverest.Rbac.Permissions
import OpenEverest.Rbac.PolicyText
import OpenEverest.Rbac.Refresh
import OpenEverest.Rbac.Restores
import OpenEverest.Rbac.ScheduleChanges
import OpenEverest.Rbac.UpgradePlan
import OpenEverest.Rbac.ValidatePolicy
import OpenEverest.Server.ComponentLogs
import OpenEverest.Server.RateLimiter
import OpenEverest.Session.BlocklistInterleaving
import OpenEverest.Session.BlocklistRuns
import OpenEverest.Session.CreatedTokens
import OpenEverest.Session.Manager
import OpenEverest.Session.ManagerRuns
import OpenEverest.Session.Server
import OpenEverest.Session.ServerRuns
import OpenEverest.Session.ServerSessions
import OpenEverest.Session.ShortToken
import OpenEverest.Session.TokenStore
import OpenEverest.Ui.Affinity
import OpenEverest.Ui.AffinityEntries
import OpenEverest.Ui.AffinityInsert
import OpenEverest.Ui.AffinityPayload
import OpenEverest.Ui.AffinityRemove
import OpenEverest.Ui.AffinityRemoved
import OpenEverest.Ui.ConflictRetry
import OpenEverest.Ui.CreateDbCluster
import OpenEverest.Ui.CronConverter
import OpenEverest.Ui.DbCluster
import OpenEverest.Ui.DbType
import OpenEverest.Ui.DbVersion
import OpenEverest.Ui.K8ResourceParser
import OpenEverest.Ui.ProxySpec
import OpenEverest.Ui.ResourceAmounts
import OpenEverest.Ui.ResourcesDetails
import OpenEverest.Ui.ResourcesForm
import OpenEverest.Ui.ResourcesSaved
import OpenEverest.Ui.ScheduleEdits
import OpenEverest.Ui.ScheduleForm
import OpenEverest.Ui.TimeSelection
import OpenEverest.Ui.TimeSelectionReopened
import OpenEverest.Validation.ActiveStorage
import OpenEverest.Validation.BackupStorages
import OpenEverest.Validation.DatabaseCluster
import OpenEverest.Validation.DuplicateStorages
import OpenEverest.Validation.MonitoringKeys
import OpenEverest.Validation.Objects
import OpenEverest.Validation.PgRepos
import OpenEverest.Validation.PgSchedules
import OpenEverest.Validation.ShardingCounts
import OpenEverest.Validation.StorageRuns
import OpenEverest.Validation.UpdateRuns
import OpenEverest.Validation.VersionRuns
import OpenEverest.Validation.VersionUpgrade
