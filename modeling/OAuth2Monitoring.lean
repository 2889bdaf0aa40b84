import OAuth2Monitoring.Bff.Allowlist
import OAuth2Monitoring.Bff.Login
import OAuth2Monitoring.Bff.Budget
import OAuth2Monitoring.Bff.WriteBack
import OAuth2Monitoring.Bff.Logout
import OAuth2Monitoring.Bff.Limiter
import OAuth2Monitoring.Bff.RetryAfter
import OAuth2Monitoring.Bff.CheckedDelete
import OAuth2Monitoring.Bff.Elevate
import OAuth2Monitoring.Bff.Forwarded
import OAuth2Monitoring.Console.EventStream
import OAuth2Monitoring.Console.StreamFormat
import OAuth2Monitoring.Console.Sse
import OAuth2Monitoring.Console.Dashboard
import OAuth2Monitoring.Console.SecurityEvents
import OAuth2Monitoring.Console.Listings
import OAuth2Monitoring.Console.PolicyDecisions
import OAuth2Monitoring.Console.StepUp
import OAuth2Monitoring.Console.OneDialog
import OAuth2Monitoring.Bff.LoadConfig
import OAuth2Monitoring.Console.ThreatLevel
import OAuth2Monitoring.Bff.ClientKey
import OAuth2Monitoring.Console.Reconnect
import OAuth2Monitoring.Console.VersionCheck
import OAuth2Monitoring.Console.Alerts
import OAuth2Monitoring.Console.Operations
import OAuth2Monitoring.Console.SignOut
import OAuth2Monitoring.Console.Paging
import OAuth2Monitoring.Bff.Roles
import OAuth2Monitoring.Console.LiveEvents
import OAuth2Monitoring.Console.Logger
import OAuth2Monitoring.Scripts.AuditGate
import OAuth2Monitoring.Scripts.Backup
import OAuth2Monitoring.Bff.Custody
import OAuth2Monitoring.Bff.Provenance
import OAuth2Monitoring.Bff.Deleted
import OAuth2Monitoring.Bff.BackChannel
import OAuth2Monitoring.Console.Addresses
import OAuth2Monitoring.Console.StepUpDialog
import OAuth2Monitoring.Bff.OneIdentity
import OAuth2Monitoring.Scripts.InstallRemote
import OAuth2Monitoring.Console.Reports
