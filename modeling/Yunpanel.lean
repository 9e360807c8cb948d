import Yunpanel.Lib.Machine
import Yunpanel.Lib.Table
import Yunpanel.Lib.WriteChain
import Yunpanel.Jobs.Proofs.WriteFailure
import Yunpanel.Jobs.Proofs.CrashRecovery
import Yunpanel.Domains.Proofs.Rejection
import Yunpanel.Provisioning.Proofs.CompensationOrder
import Yunpanel.Backup.Proofs.OperationRuns
import Yunpanel.Backup.Proofs.DependencyGraph
import Yunpanel.Secrets.Proofs.Completeness
import Yunpanel.Environment.Proofs.Import
import Yunpanel.Environment.Proofs.Revisions
import Yunpanel.Certificates.Proofs.Runs
import Yunpanel.Mail.Proofs.Cycles
import Yunpanel.Databases.Proofs.CredentialRuns
import Yunpanel.Databases.Proofs.BindingRuns
import Yunpanel.Websites.Proofs.RemovalEnd
import Yunpanel.Websites.Proofs.RemovalOrder
import Yunpanel.Lifecycle.Proofs.Runs
import Yunpanel.Suspension.Proofs.Journal
import Yunpanel.Suspension.Proofs.WebsiteJournal
import Yunpanel.Cron.Proofs.Service
import Yunpanel.Cron.Proofs.File
import Yunpanel.Sftp.Proofs.Service
import Yunpanel.Roundcube.Proofs.Continuation
import Yunpanel.Dns.Proofs.Record
import Yunpanel.Dns.Proofs.Publishing
import Yunpanel.Dns.Proofs.Restore
import Yunpanel.Applications.Proofs.RuntimeBinding
import Yunpanel.Domains.Proofs.Provisioned
import Yunpanel.Domains.Proofs.Preview
import Yunpanel.Domains.Proofs.RemovalPlan
import Yunpanel.Environment.Proofs.Migration
import Yunpanel.Jobs.Proofs.Executor
import Yunpanel.Suspension.Proofs.WebsiteRuntime
import Yunpanel.Terminal.Proofs.TtydSession
import Yunpanel.Docker.Proofs.ComposeSummary
import Yunpanel.Certificates.Proofs.DomainLock
import Yunpanel.Firewall.Proofs.Nftables
import Yunpanel.MailData.Proofs.Transactions
import Yunpanel.SiteFiles.Proofs.Overlap
