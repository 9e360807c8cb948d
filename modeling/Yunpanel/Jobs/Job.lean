/-
The job record and what enters the queue.

# What a job is

A job is one host operation on one resource: who runs it, what it is to
do, how far it got and what came of it. `Status` lists the five values its
status takes, `Operation` every operation of the protocol, and `asyncOps`
those of them the queue accepts.
-/
import Yunpanel.Js.Value

namespace Yunpanel.Jobs

-- ====== vocabularies

inductive Status where
  | queued | running | succeeded | failed | cancelled
  deriving DecidableEq, Repr

/-- `['queued', 'running'].includes(status)` -/
def Status.active : Status → Bool
  | queued | running => true
  | _ => false

/-- `TERMINAL_STATUSES`: a completion's two outcomes. -/
def Status.terminal : Status → Bool
  | succeeded | failed => true
  | _ => false

/-- `JOB_RESOURCE_TYPES` -/
inductive ResourceType where
  | domain | server | application | certificate | backup | database
  | dnsZone | mailDomain | system | dockerProject | websiteCron
  deriving DecidableEq, Repr

namespace ResourceType

def text : ResourceType → String
  | domain => "domain"
  | server => "server"
  | application => "application"
  | certificate => "certificate"
  | backup => "backup"
  | database => "database"
  | dnsZone => "dns_zone"
  | mailDomain => "mail_domain"
  | system => "system"
  | dockerProject => "docker_project"
  | websiteCron => "website_cron"

def all : List ResourceType :=
  [domain, server, application, certificate, backup, database, dnsZone,
    mailDomain, system, dockerProject, websiteCron]

/-- `RESOURCE_TYPES.has` -/
def ofText? (s : String) : Option ResourceType :=
  all.find? fun r => r.text == s

end ResourceType

/-- `OPERATIONS` of the protocol. -/
inductive Operation where
  | serverInspect | serverServices | serverDocker | serverNginx
  | domainStage | domainActivate | sslIssue | sslRenew | appStaticDeploy
  | appStaticRollback | appNodeDeploy | appNodeRollback | appNodeRestart
  | appNodeStatus | appNodeProcess | appNodePassengerMigrate
  | appPythonDeploy | appPythonRollback | appPythonRestart
  | appPythonStatus | systemNodeRuntimesInspect | systemNodeRuntimeInstall
  | systemPackagesInspect | systemServicesInspect | systemServiceInstall
  | systemServiceControl | systemUpgrade | databaseInspect
  | databaseCreate | databaseDelete | databaseBackup | databaseRestore
  | databaseCredentialApply | databaseCredentialDelete | dnsRecordApply
  | mailConfigApply | mailConfigRollback | mailDkimApply | mailDataBackup
  | mailDataRestore | mailDataDelete | roundcubeConfigApply | cronApply
  | cronRemove | dockerComposeBuild | dockerComposePull
  | dockerComposeStart | dockerComposeStop | dockerComposeRestart
  deriving DecidableEq, Repr

namespace Operation

def text : Operation → String
  | serverInspect => "server.inspect"
  | serverServices => "server.services"
  | serverDocker => "server.docker"
  | serverNginx => "server.nginx"
  | domainStage => "domain.stage"
  | domainActivate => "domain.activate"
  | sslIssue => "ssl.issue"
  | sslRenew => "ssl.renew"
  | appStaticDeploy => "app.static.deploy"
  | appStaticRollback => "app.static.rollback"
  | appNodeDeploy => "app.node.deploy"
  | appNodeRollback => "app.node.rollback"
  | appNodeRestart => "app.node.restart"
  | appNodeStatus => "app.node.status"
  | appNodeProcess => "app.node.process"
  | appNodePassengerMigrate => "app.node.passenger-migrate"
  | appPythonDeploy => "app.python.deploy"
  | appPythonRollback => "app.python.rollback"
  | appPythonRestart => "app.python.restart"
  | appPythonStatus => "app.python.status"
  | systemNodeRuntimesInspect => "system.node-runtimes.inspect"
  | systemNodeRuntimeInstall => "system.node-runtime.install"
  | systemPackagesInspect => "system.packages.inspect"
  | systemServicesInspect => "system.services.inspect"
  | systemServiceInstall => "system.service.install"
  | systemServiceControl => "system.service.control"
  | systemUpgrade => "system.upgrade"
  | databaseInspect => "database.inspect"
  | databaseCreate => "database.create"
  | databaseDelete => "database.delete"
  | databaseBackup => "database.backup"
  | databaseRestore => "database.restore"
  | databaseCredentialApply => "database.credential.apply"
  | databaseCredentialDelete => "database.credential.delete"
  | dnsRecordApply => "dns.record.apply"
  | mailConfigApply => "mail.config.apply"
  | mailConfigRollback => "mail.config.rollback"
  | mailDkimApply => "mail.dkim.apply"
  | mailDataBackup => "mail.data.backup"
  | mailDataRestore => "mail.data.restore"
  | mailDataDelete => "mail.data.delete"
  | roundcubeConfigApply => "roundcube.config.apply"
  | cronApply => "cron.apply"
  | cronRemove => "cron.remove"
  | dockerComposeBuild => "docker.compose.build"
  | dockerComposePull => "docker.compose.pull"
  | dockerComposeStart => "docker.compose.start"
  | dockerComposeStop => "docker.compose.stop"
  | dockerComposeRestart => "docker.compose.restart"

def all : List Operation :=
  [serverInspect, serverServices, serverDocker, serverNginx, domainStage,
    domainActivate, sslIssue, sslRenew, appStaticDeploy, appStaticRollback,
    appNodeDeploy, appNodeRollback, appNodeRestart, appNodeStatus,
    appNodeProcess, appNodePassengerMigrate, appPythonDeploy,
    appPythonRollback, appPythonRestart, appPythonStatus,
    systemNodeRuntimesInspect, systemNodeRuntimeInstall,
    systemPackagesInspect, systemServicesInspect, systemServiceInstall,
    systemServiceControl, systemUpgrade, databaseInspect, databaseCreate,
    databaseDelete, databaseBackup, databaseRestore,
    databaseCredentialApply, databaseCredentialDelete, dnsRecordApply,
    mailConfigApply, mailConfigRollback, mailDkimApply, mailDataBackup,
    mailDataRestore, mailDataDelete, roundcubeConfigApply, cronApply,
    cronRemove, dockerComposeBuild, dockerComposePull, dockerComposeStart,
    dockerComposeStop, dockerComposeRestart]

/-- `ASYNC_OPERATIONS`: every operation but the four direct host
inspections. -/
def async : Operation → Bool
  | serverInspect | serverServices | serverDocker | serverNginx => false
  | _ => true

/-- `ASYNC_OPERATIONS.has` -/
def ofText? (s : String) : Option Operation :=
  all.find? fun o => o.text == s && o.async

/-- The operations whose payload is given the job's own id. -/
def deploys : Operation → Bool
  | appStaticDeploy | appNodeDeploy | appPythonDeploy => true
  | _ => false

end Operation

-- ====== records

/-- One job, field for field as the store keeps it. -/
structure Job where
  id : Uuid
  serverId : String
  type : String
  operation : Operation
  payload : Json
  resourceType : ResourceType
  resourceId : String
  status : Status
  createdAt : Instant
  startedAt : Option Instant
  finishedAt : Option Instant
  attempts : Nat
  result : Option Json
  error : Option Json
  idempotencyKey : Option String
  idempotencyDigest : Option String

/-- What callers are shown of a job; its payload rides along on the
prototype. -/
structure PublicJob where
  payload : Json
  id : Uuid
  serverId : String
  type : String
  operation : Operation
  resourceType : ResourceType
  resourceId : String
  status : Status
  createdAt : Instant
  startedAt : Option Instant
  finishedAt : Option Instant
  attempts : Nat
  result : Option Json
  error : Option Json

def publicJob (job : Job) : PublicJob :=
  { payload := job.payload
    id := job.id
    serverId := job.serverId
    type := job.type
    operation := job.operation
    resourceType := job.resourceType
    resourceId := job.resourceId
    status := job.status
    createdAt := job.createdAt
    startedAt := job.startedAt
    finishedAt := job.finishedAt
    attempts := job.attempts
    result := job.result
    error := job.error }

/-- The work a caller asks for: what the idempotency digest covers. -/
structure Work where
  serverId : String
  type : String
  operation : String
  payload : Json
  resourceType : String
  resourceId : String

/-- What the queue hands an executor along with a job. -/
structure Envelope where
  id : Uuid
  operation : Operation
  payload : Json

/-- Why a call of the registry rejects: its own error, one the protocol
threw, or a write that failed. -/
inductive Failure where
  | registry (code message : String) (status : Nat)
  | protocol (message : String)
  | store
  deriving DecidableEq, Repr

/-- The parts of the program the queue calls and never looks into: the
protocol's payload validation (its error text, where there is one), the
per-operation checks of a result, the catalogue of safe errors, and the
SHA-256 of the work's JSON text. -/
structure Protocol where
  envelopeError : Uuid → Operation → Json → Option String
  sanitizeResult : Job → Json → Except Failure Json
  safeLocalOperationError : Json → Json
  idempotencyDigest : Work → String

/-- `createOperationEnvelope` -/
def Protocol.createOperationEnvelope (proto : Protocol) (id : Uuid)
    (operation : Operation) (payload : Json) : Except String Envelope :=
  match proto.envelopeError id operation payload with
  | some message => .error message
  | none => .ok { id, operation, payload }

end Yunpanel.Jobs
