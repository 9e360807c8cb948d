/-
A website, and what it may be bound to.

# What a record holds

A website serves an application, a container the panel does not manage, a
service of a managed compose project, or an upstream host. The record in
the store spells this out in seven fields, of which the loader derives all
but the one binding: the document root and the Unix user of an application
follow from its id. `Runtime` keeps the binding, and the other fields are
functions of it.

# What is looked up

Applications, workloads and compose projects are in registries of their
own. Before a website is bound to one it is looked up, and it must be of
the same server and in the state the binding needs.
-/
import Yunpanel.Js.Fields
import Yunpanel.Js.Stringify
import Yunpanel.Lib.Result
import Yunpanel.Domains.Names

namespace Yunpanel.Websites

open Json Lib.Result
open Domains (Net normalizeProxyHost)

-- ====== failures

/-- `new WebsiteRegistryError(code, message, status)` -/
structure Failure where
  code : String
  message : String
  status : Nat
  deriving DecidableEq, Repr

def refuse (code message : String) (status : Nat := 400) : Failure :=
  ⟨code, message, status⟩

/-- `uuid(value, field)` -/
def uuid (value : Json) (code field : String) : Except Failure Uuid :=
  demand (refuse code (field ++ " is invalid")) (Uuid.read? value)

/-- A name with nothing to trim, of 1 to 120 printable characters. -/
def isWebsiteName (s : String) : Bool :=
  Text.trim s.toList == s.toList && 1 ≤ Text.length s
    && Text.length s ≤ 120 && !s.toList.any Text.isControl

abbrev WebsiteName := Matching isWebsiteName

def name (value : Json) : Except Failure WebsiteName :=
  demand (refuse "invalid_website_name"
      "Website name must be a printable string up to 120 characters")
    (value.str?.bind fun s =>
      if s.toList.any Text.isControl then none
      else Matching.ofText? (String.ofList (Text.trim s.toList)))

-- ====== proxy targets

/-- A host as `normalizeProxyHost` leaves it. -/
structure ProxyHost (net : Net) where
  text : String
  normal : normalizeProxyHost net text = some text
  deriving DecidableEq

structure ProxyTarget (net : Net) where
  host : ProxyHost net
  port : Ranged 1024 65535
  websocket : Bool
  deriving DecidableEq

/-- `proxyHost`; a host that is normalized already is left alone. -/
def proxyHost (net : Net) (value : Json) : Except Failure (ProxyHost net) :=
  demand (refuse "invalid_website_proxy_host"
      ("Proxy host must be an IP address or DNS hostname without a URL "
        ++ "scheme or path"))
    ((value.str?.bind (normalizeProxyHost net)).bind fun text =>
      if h : normalizeProxyHost net text = some text then some ⟨text, h⟩
      else none)

def proxyTarget (net : Net) (persisted : Bool) :
    Json → Except Failure (Option (ProxyTarget net))
  | .null => .ok none
  | value => do
      let fields ← demand (refuse "invalid_website_proxy_target"
          "Proxy target must contain only host, port and websocket")
        (value.object?.filter fun fields =>
          fields.all (fun field =>
            ["host", "port", "websocket"].contains field.1)
            && (!persisted || fields.length == 3))
      let port ← demand (refuse "invalid_website_proxy_port"
          "Proxy port must be between 1024 and 65535")
        (fields.read "port" Ranged.read?)
      let websocket ← match fields.lookup "websocket" with
        | none => .ok true
        | some value => demand (refuse "invalid_website_proxy_websocket"
            "Proxy websocket must be a boolean") value.bool?
      let host ← proxyHost net (fields.get "host")
      return some { host, port, websocket }

def ProxyTarget.json {net : Net} (t : ProxyTarget net) : Json :=
  .obj [("host", .str t.host.text), ("port", t.port.json),
    ("websocket", .bool t.websocket)]

-- ====== managed compose

/-- `SERVICE_NAME_PATTERN` -/
def isServiceName (s : String) : Bool :=
  Text.headed (fun c => Text.isDigit c || Text.isLower c)
    (fun c => Text.isDigit c || Text.isLower c
      || ['_', '.', '-'].contains c) 62 s

/-- A service of a managed compose project and a port of it; the protocol
is always TCP. -/
structure ComposeBinding where
  projectId : Uuid
  serviceName : Matching isServiceName
  targetPort : Ranged 1 65535
  deriving DecidableEq

/-- `SUPPORTED_PROTOCOL` -/
def supportedProtocol : String := "tcp"

/-- `managedComposeBindingIdentity` -/
def ComposeBinding.identity (b : ComposeBinding) : String :=
  s!"{b.projectId.text}:{b.serviceName.text}:{b.targetPort.val}/"
    ++ supportedProtocol

def ComposeBinding.json (b : ComposeBinding) : Json :=
  .obj [("projectId", b.projectId.json),
    ("serviceName", b.serviceName.json), ("targetPort", b.targetPort.json),
    ("protocol", .str supportedProtocol)]

def normalizeManagedComposeWebsiteBinding (value : Json) :
    Except Failure ComposeBinding := do
  let fields ← demand (refuse "invalid_managed_compose_binding"
      ("Managed Compose binding must contain only projectId, serviceName, "
        ++ "targetPort and protocol"))
    (value.object?.filter fun fields => fields.all fun field =>
      ["projectId", "serviceName", "targetPort", "protocol"].contains field.1)
  let projectId ← uuid (fields.get "projectId") "invalid_docker_project_id"
    "dockerProjectId"
  let serviceName ← demand (refuse "invalid_managed_compose_service_name"
      "Managed Compose service name is invalid")
    (fields.read "serviceName" Matching.read?)
  let targetPort ← demand (refuse "invalid_managed_compose_target_port"
      "Managed Compose target port must be between 1 and 65535")
    (fields.read "targetPort" Ranged.read?)
  ensure (refuse "managed_compose_protocol_unsupported"
      "Managed Compose Website bindings currently support TCP only")
    (Json.orElse (.str supportedProtocol) (fields.get "protocol")
      == .str supportedProtocol)
  return { projectId, serviceName, targetPort }

/-- A published port of a service, as its project reports it. -/
structure PublishedPort where
  targetPort : Int
  protocol : String
  publishedPort : Int
  hostIp : Option String

structure ComposeService where
  name : String
  publishedPorts : Option (List PublishedPort)

structure ComposeProject where
  id : Uuid
  serverId : Uuid
  services : Option (List ComposeService)

/-- `normalizedHost` -/
def normalizedHost (net : Net) (hostIp : Option String) :
    Except Failure String :=
  let host :=
    match hostIp with
    | none => "127.0.0.1"
    | some host =>
        if host = "0.0.0.0" then "127.0.0.1"
        else if host = "::" then "::1" else host
  match net.isIP host with
  | some .v4 =>
      if "127.".toList.isPrefixOf host.toList then .ok host
      else .error (refuse "managed_compose_published_binding_not_loopback"
        ("Managed Compose Website target must be published on loopback or "
          ++ "a wildcard host binding") 409)
  | some .v6 =>
      if host = "::1" then .ok host
      else .error (refuse "managed_compose_published_binding_not_loopback"
        ("Managed Compose Website target must be published on loopback or "
          ++ "a wildcard host binding") 409)
  | none =>
      .error (refuse "managed_compose_published_binding_invalid"
        "Managed Compose published host binding is invalid" 409)

/-- `resolveManagedComposeWebsiteBinding`: what it returns of the project
is not kept. -/
def resolveManagedComposeWebsiteBinding (net : Net)
    (binding : ComposeBinding) (serverId : Uuid)
    (project : Option ComposeProject) : Except Failure Unit := do
  let project ← demand (refuse "managed_compose_project_not_found"
    "Managed Compose project was not found" 404) project
  ensure (refuse "managed_compose_project_identity_mismatch"
      ("Managed Compose project identity does not match the Website "
        ++ "binding") 409) (project.id == binding.projectId)
  ensure (refuse "website_managed_compose_server_mismatch"
      "Managed Compose project belongs to a different server" 409)
    (project.serverId == serverId)
  let services ← demand (refuse "managed_compose_project_state_invalid"
    "Managed Compose project service state is unavailable" 409)
    project.services
  let service ← demand (refuse "managed_compose_service_not_found"
      "Managed Compose service was not found" 409)
    (services.find? fun service => service.name == binding.serviceName.text)
  let ports ← demand (refuse "managed_compose_project_state_invalid"
      "Managed Compose published port state is unavailable" 409)
    service.publishedPorts
  match ports.filter fun port =>
      port.targetPort == binding.targetPort.val
        && port.protocol == supportedProtocol with
  | [] =>
      throw (refuse "managed_compose_binding_not_ready"
        ("Managed Compose service does not currently publish the selected "
          ++ "target port") 409)
  | [published] => do
      ensure (refuse "managed_compose_published_binding_invalid"
          "Managed Compose published port binding is invalid" 409)
        (1 ≤ published.publishedPort && published.publishedPort ≤ 65535)
      let _ ← normalizedHost net published.hostIp
  | _ =>
      throw (refuse "managed_compose_binding_ambiguous"
        ("Managed Compose service publishes the selected target port more "
          ++ "than once") 409)

-- ====== records

/-- A type of an application that a website can be bound to. -/
inductive HostedType where
  | static | node | php | python
  deriving DecidableEq, Repr

/-- `RUNTIME_TYPES` -/
inductive RuntimeType where
  | hosted (type : HostedType)
  | docker
  | proxy
  deriving DecidableEq, Repr

def HostedType.text : HostedType → String
  | static => "static"
  | node => "node"
  | php => "php"
  | python => "python"

def HostedType.ofText? (s : String) : Option HostedType :=
  [.static, .node, .php, .python].find? fun type => text type == s

def RuntimeType.text : RuntimeType → String
  | hosted type => type.text
  | docker => "docker"
  | proxy => "proxy"

def RuntimeType.read? (value : Json) : Option RuntimeType :=
  value.str?.bind fun s =>
    [.hosted .static, .hosted .node, .hosted .php, .hosted .python, .docker,
      .proxy].find? fun type => text type == s

/-- What a website is bound to. -/
inductive Runtime (net : Net) where
  | hosted (type : HostedType) (applicationId : Uuid)
  | workload (dockerWorkloadId : Uuid) (target : Option (ProxyTarget net))
  | compose (binding : ComposeBinding)
  | proxy (target : Option (ProxyTarget net))
  deriving DecidableEq

structure Website (net : Net) where
  id : Uuid
  serverId : Uuid
  name : WebsiteName
  runtime : Runtime net
  revision : Nat
  createdAt : Instant
  updatedAt : Instant
  deriving DecidableEq

namespace Runtime

variable {net : Net}

def runtimeType : Runtime net → RuntimeType
  | hosted type _ => .hosted type
  | workload _ _ => .docker
  | compose _ => .docker
  | proxy _ => .proxy

def applicationId : Runtime net → Option Uuid
  | hosted _ applicationId => some applicationId
  | _ => none

def dockerWorkloadId : Runtime net → Option Uuid
  | workload dockerWorkloadId _ => some dockerWorkloadId
  | _ => none

def managedComposeBinding : Runtime net → Option ComposeBinding
  | compose binding => some binding
  | _ => none

def proxyTarget : Runtime net → Option (ProxyTarget net)
  | workload _ target => target
  | proxy target => target
  | _ => none

end Runtime

-- ====== look-ups

/-- What the registry knows of an application. -/
structure Application where
  id : Uuid
  serverId : Uuid
  type : String
  webRoot : Option String
  deriving DecidableEq

structure DockerWorkload where
  id : Uuid
  serverId : Uuid
  managementMode : String
  proxyTarget : Json

/-- The platform, and the registries a website is checked against. -/
structure Config where
  net : Net
  /-- `createHash('sha256').update(text).digest('hex')` -/
  sha256 : String → Sha256
  servers : List Uuid
  applications : List Application
  workloads : List DockerWorkload
  projects : List ComposeProject

namespace Config

def serverExists (config : Config) (serverId : Uuid) : Bool :=
  config.servers.contains serverId

def getApplication (config : Config) (id : Uuid) : Option Application :=
  config.applications.find? fun a => a.id == id

def getDockerWorkload (config : Config) (id : Uuid) :
    Option DockerWorkload :=
  config.workloads.find? fun w => w.id == id

def getDockerComposeProject (config : Config) (id : Uuid) :
    Option ComposeProject :=
  config.projects.find? fun p => p.id == id

/-- `appUnixUser` -/
def appUnixUser (config : Config) (applicationId : Uuid) : String :=
  String.ofList ("yunapp-".toList
    ++ (config.sha256 applicationId.text).text.toList.take 12)

end Config

/-- `STATIC_ROOT` -/
def staticRoot : String := "/var/www/yunpanel/apps"

/-- `APPLICATION_ROOT` -/
def applicationRoot : String := "/var/lib/yunpanel/apps"

/-- Where the files of an application of a type are served from. -/
def documentRootOf (applicationId : Uuid) : HostedType → String
  | .static => s!"{staticRoot}/{applicationId.text}/current"
  | .php => s!"{applicationRoot}/{applicationId.text}/current/public"
  | _ => s!"{applicationRoot}/{applicationId.text}/current"

namespace Runtime

variable {net : Net}

def documentRoot : Runtime net → Option String
  | hosted type applicationId => some (documentRootOf applicationId type)
  | _ => none

def unixUser (config : Config) : Runtime net → Option String
  | hosted _ applicationId => some (config.appUnixUser applicationId)
  | _ => none

end Runtime

/-- The document root an application must have, where its type pins one,
and what is said where it has another. -/
def rootDrift (applicationId : Uuid) :
    HostedType → Option (String × String)
  | .static => some (documentRootOf applicationId .static,
      "Static application document root does not match managed state")
  | .php => some (documentRootOf applicationId .php,
      "PHP application document root does not match managed state")
  | _ => none

/-- What `applicationBinding` asks of the document root. -/
def requireRoot (application : Application) (type : HostedType) :
    Except Failure Unit :=
  match rootDrift application.id type with
  | none => .ok ()
  | some (expected, message) =>
      ensure (refuse "website_application_root_drift" message 409)
        (application.webRoot == some expected)

/-- `applicationBinding` -/
def applicationBinding (application : Option Application)
    (serverId : Uuid) : Except Failure (HostedType × Uuid) := do
  let application ← demand (refuse "application_not_found"
    "Application not found" 404) application
  ensure (refuse "website_application_server_mismatch"
      "Application belongs to a different server" 409)
    (application.serverId == serverId)
  let type ← demand (refuse "website_application_type_unsupported"
      "Application type cannot be bound to a Website yet" 409)
    (HostedType.ofText? application.type)
  requireRoot application type
  return (type, application.id)

/-- `dockerBinding` -/
def dockerBinding (net : Net) (workload : Option DockerWorkload)
    (serverId : Uuid) :
    Except Failure (Uuid × Option (ProxyTarget net)) := do
  let workload ← demand (refuse "docker_workload_not_found"
    "Docker workload not found" 404) workload
  ensure (refuse "website_docker_server_mismatch"
      "Docker workload belongs to a different server" 409)
    (workload.serverId == serverId)
  ensure (refuse "website_docker_mode_unsupported"
      "Docker workload management mode is not supported yet" 409)
    (workload.managementMode == "external")
  let target ← proxyTarget net true workload.proxyTarget
  return (workload.id, target)

/-- `resolveManagedComposeBinding` -/
def resolveManagedComposeBinding (config : Config)
    (binding : ComposeBinding) (serverId : Uuid) : Except Failure Unit :=
  resolveManagedComposeWebsiteBinding config.net binding serverId
    (config.getDockerComposeProject binding.projectId)

end Yunpanel.Websites
