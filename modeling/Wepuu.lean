import Wepuu.Relational
import Wepuu.Runs
import Wepuu.Interleaving
import Wepuu.Schema
import Wepuu.Outbox
import Wepuu.NodeApi
import Wepuu.Tenancy
import Wepuu.Grants
import Wepuu.Families
import Wepuu.SigningKeys
import Wepuu.Artifacts
import Wepuu.Deletion
import Wepuu.Pairing
import Wepuu.System
import Wepuu.Statements
import Wepuu.TokenClaims
import Wepuu.Footprint
import Wepuu.GrantLifecycle
import Wepuu.EventSequence
import Wepuu.RevocationCoverage
import Wepuu.Secrets
import Wepuu.SingleUse
import Wepuu.RefreshRevocation
import Wepuu.KeyRotation
import Wepuu.Base64Url
import Wepuu.JsonText
import Wepuu.Consent
import Wepuu.Reconsent
import Wepuu.ConsentRetry
import Wepuu.Frames
import Wepuu.AccountReferences
import Wepuu.DeletionReports
import Wepuu.DeletionCompletes
import Wepuu.OwnerTransfer
import Wepuu.AccountLinks
import Wepuu.DeletionSweep
import Wepuu.SiteRows
import Wepuu.DeletionClosure
import Wepuu.Words
import Wepuu.JsValues
import Wepuu.ConsentPlan
import Wepuu.GrantCeiling
import Wepuu.SigningWindow
import Wepuu.SiteProofs
import Wepuu.ConsentOutcome
import Wepuu.PairingService
import Wepuu.PairingRuns
import Wepuu.RollingWindow
import Wepuu.SendQuota
import Wepuu.LoginTransactions
import Wepuu.LoginChains
import Wepuu.ConsoleAuth
import Wepuu.ConsoleRuns
import Wepuu.LiveSites
import Wepuu.RowSecurity
import Wepuu.ControlReads
import Wepuu.Outsiders
import Wepuu.DeletionFrames
import Wepuu.Resources
import Wepuu.PairedResources
import Wepuu.EventSources
import Wepuu.RevocationDelivery
import Wepuu.DeliveryOrder
import Wepuu.PathRouting
import Wepuu.OriginBoundary
import Wepuu.FixedWindow
import Wepuu.RateLimits
import Wepuu.TokenLifetimes
import Wepuu.RefreshRotation
import Wepuu.Leases
import Wepuu.OtpDeliveries
import Wepuu.RetryAfter
import Wepuu.LoopbackRedirects
import Wepuu.RedirectSpellings
import Wepuu.UrlPaths
import Wepuu.ReturnPaths
import Wepuu.IsoDates
import Wepuu.SecurityAudit
import Wepuu.AuditedRequests
import Wepuu.Templates
import Wepuu.PolicyText
import Wepuu.ConsentPolicy
import Wepuu.CompactTokens
import Wepuu.ConsentBootstrap
import Wepuu.Traces
import Wepuu.KeyedViews
import Wepuu.ArtifactStore
import Wepuu.Migrations
import Wepuu.Noninterference
import Wepuu.TenantIsolation
import Wepuu.RankedQueues
import Wepuu.FairDelivery
import Wepuu.Paging
import Wepuu.ActivityPages
import Wepuu.Cookies
import Wepuu.ConsoleBrowsers
import Wepuu.ConsentPages
import Wepuu.SiteVerification
