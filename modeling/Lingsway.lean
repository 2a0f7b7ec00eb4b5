import Lingsway.Library.Program
import Lingsway.Library.Machine
import Lingsway.Library.History
import Lingsway.Library.Table
import Lingsway.Library.Decimal
import Lingsway.Library.Text
import Lingsway.Library.Json
import Lingsway.Library.Concurrent
import Lingsway.Library.Reading
import Lingsway.Library.Dictionary
import Lingsway.Library.Rounding
import Lingsway.Library.JsonText
import Lingsway.Library.JsonDumps
import Lingsway.Library.Yaml
import Lingsway.Library.YamlDumps
import Lingsway.Providers.Base
import Lingsway.Models
import Lingsway.Ports
import Lingsway.Domain.Capacity
import Lingsway.Domain.Ordering
import Lingsway.Domain.Provisioning
import Lingsway.Domain.Compensation
import Lingsway.Infra.GatewayReconciliation
import Lingsway.Infra.ProvisioningState
import Lingsway.Api.Admin
import Lingsway.Services
import Lingsway.Workers.AccountingSync
import Lingsway.System
import Lingsway.Infra.Finalization
import Lingsway.Infra.RetryAccounting
import Lingsway.Infra.RetryHistory
import Lingsway.Workers.UsageSync
import Lingsway.Workers.UsageConservation
import Lingsway.Workers.UsageCache
import Lingsway.Providers.Gateway.XrayComposition
import Lingsway.Providers.Gateway.XrayRouting
import Lingsway.Providers.Gateway.XrayBaseline
import Lingsway.Providers.Gateway.XrayFile
import Lingsway.Core.SecretVersions
import Lingsway.Infra.EndpointLedger
import Lingsway.Infra.MihomoSafety
import Lingsway.Domain.Forwarder
import Lingsway.Domain.BlindCompensation
import Lingsway.Workers.PaidPeriods
import Lingsway.Workers.ExpiryPolicy
import Lingsway.Workers.UsageJobs
import Lingsway.Domain.Quota
import Lingsway.Domain.SubscriptionRender
import Lingsway.Domain.ClashReadback
import Lingsway.Providers.Forwarder.MihomoProjection
import Lingsway.Providers.Forwarder.MihomoApply
import Lingsway.Providers.Forwarder.Mihomo
import Lingsway.Infra.RoutingSnapshot
import Lingsway.Infra.MihomoGeneration
import Lingsway.Infra.MihomoLoader
import Lingsway.Infra.CredentialDrift
import Lingsway.Infra.MihomoPreparation
import Lingsway.Scripts.AutomergeGate
import Lingsway.Scripts.AutomergeSoundness
import Lingsway.Library.Renaming
import Lingsway.Library.Rows
import Lingsway.Library.SlidingWindow
import Lingsway.Ops.GatewayPrincipals
import Lingsway.Ops.MihomoUsage
import Lingsway.Ops.PrincipalTruth
import Lingsway.Ops.UsageLaw
import Lingsway.Providers.Egress.Webshare
import Lingsway.Api.OrderIdempotency
import Lingsway.Api.PasswordChange
import Lingsway.Infra.MihomoFreshness
import Lingsway.Workers.SyncedTruth
import Lingsway.Workers.PeriodAllowance
import Lingsway.Workers.PeriodQueue
import Lingsway.Providers.Forwarder.MihomoDocument
import Lingsway.Providers.Transport.Subscription
import Lingsway.Workers.TransportSync
import Lingsway.Infra.MihomoMaterialization
import Lingsway.Workers.TransportRuns
import Lingsway.Workers.TransportProvenance
import Lingsway.Services.Settlement
import Lingsway.Services.SettledOrders
import Lingsway.Services.DurableIntent
