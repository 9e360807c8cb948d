/-
What the panel keeps of a Docker Compose configuration: its services with
the ports they publish and the storage they mount, its networks and its
volumes.

The configuration is what `docker compose config` prints, read as JSON; a
field that is not there is `none`, unlike one that is `null`. What Node and
the process make of texts (the canonical form of an address, the collation)
is given (`Locale`), with what the code relies on.

# Order

Ports are put in the order of their UTF-16 units and numbers, names and
mounts in the order of the collation.
-/
import Yunpanel.Js.Fields
import Yunpanel.Js.Path
import Yunpanel.Js.Collation
import Yunpanel.Lib.Canonical

namespace Yunpanel.Docker

open Json Lib.Result Lib.Canonical

-- ====== failures

/-- `DockerComposeValidationError` -/
structure Failure where
  code : String
  message : String
  deriving DecidableEq, Repr

def configInvalid (message : String) : Failure :=
  ⟨"docker_compose_config_invalid", message⟩

def portsInvalid (message : String) : Failure :=
  ⟨"docker_compose_service_ports_invalid", message⟩

def storageInvalid (message : String) : Failure :=
  ⟨"docker_compose_service_storage_invalid", message⟩

def networkInvalid (message : String) : Failure :=
  ⟨"docker_compose_service_network_invalid", message⟩

def serviceInvalid : Failure :=
  ⟨"docker_compose_service_invalid",
    "Docker Compose contains an invalid service"⟩

-- ====== locale

/-- A text `localeCompare` is defined on by the root collation of
identifiers. -/
def isIdentifier (s : String) : Bool := s.toList.all Text.isKeyChar

/-- What Node and the process make of texts. -/
structure Locale where
  /-- `canonicalIp(value)` -/
  canonicalIp : String → Option String
  canonicalIp_ne_empty : ∀ s, canonicalIp s ≠ some ""
  /-- `left.localeCompare(right)` -/
  localeCompare : String → String → Ordering
  trans : Std.TransCmp localeCompare
  identifiers : ∀ a b, isIdentifier a = true → isIdentifier b = true →
    localeCompare a b = Text.localeCompare a b

instance (l : Locale) : Std.TransCmp l.localeCompare := l.trans

/-- `compareText(left, right)`: the order of the UTF-16 units. -/
def compareText (left right : String) : Ordering :=
  List.compareLex compare (Text.utf16 left) (Text.utf16 right)

-- ====== names

/-- `[a-z0-9]` -/
def isLowerAlnum (c : Char) : Bool := Text.isDigit c || Text.isLower c

/-- `PROJECT_NAME_PATTERN` -/
def isProjectName : String → Bool :=
  Text.headed isLowerAlnum (fun c => isLowerAlnum c || c == '_' || c == '-') 62

/-- `SERVICE_NAME_PATTERN` -/
def isServiceName : String → Bool :=
  Text.headed isLowerAlnum
    (fun c => isLowerAlnum c || c == '_' || c == '.' || c == '-') 62

/-- `RESOURCE_NAME_PATTERN` -/
def isResourceName : String → Bool :=
  Text.headed Text.isAlnum
    (fun c => Text.isAlnum c || c == '_' || c == '.' || c == '-') 127

/-- `projectName(value)` -/
def projectName (value : Json) : Except Failure String :=
  demand ⟨"docker_compose_project_name_invalid",
    "Docker Compose project name is invalid"⟩
    (value.str?.filter isProjectName)

/-- `resourceNames(value, field)` -/
def resourceNames (value : Option Json) (field : String) :
    Except Failure (List String) :=
  match value with
  | none => .ok []
  | some value => do
      let fields ← demand
        (configInvalid ("Docker Compose " ++ field ++ " config is invalid"))
        value.object?
      let names := fields.map Prod.fst
      ensure (configInvalid ("Docker Compose " ++ field ++ " names are invalid"))
        (decide (names.length ≤ 128) && names.all isResourceName)
      return Text.sort names

-- ====== ports

inductive Protocol where
  | tcp
  | udp
  deriving DecidableEq, Repr

def Protocol.text : Protocol → String
  | tcp => "tcp"
  | udp => "udp"

/-- `PORT_PROTOCOLS.has(value)` -/
def Protocol.read? : Json → Option Protocol
  | .str "tcp" => some tcp
  | .str "udp" => some udp
  | _ => none

structure PublishedPort where
  hostIp : Option String
  publishedPort : Nat
  targetPort : Nat
  protocol : Protocol
  deriving DecidableEq, Repr

/-- What no two ports of a service may share. -/
def PublishedPort.identity (item : PublishedPort) : String :=
  item.hostIp.getD "*" ++ ":" ++ toString item.publishedPort ++ "/"
    ++ item.protocol.text

/-- `Number(value)` of a text of digits -/
def digits (s : String) : Nat :=
  s.toList.foldl (fun n c => 10 * n + (c.toNat - '0'.toNat)) 0

/-- `portNumber(value)` -/
def portNumber (value : Option Json) : Option Nat :=
  let number : Option Int :=
    match value with
    | some (.str s) =>
        if Text.headed (fun c => Text.isDigit c && c != '0') Text.isDigit 4 s
        then some (digits s) else none
    | some (.num n) => some n
    | _ => none
  (number.filter fun n => 1 ≤ n && n ≤ 65535).map Int.toNat

/-- `value === undefined || value === null || value === ''` -/
def isBlank : Option Json → Bool
  | none | some .null | some (.str "") => true
  | _ => false

/-- The address a port is published on: `null` where none is named. -/
def hostIp (l : Locale) (value : Option Json) :
    Except Failure (Option String) :=
  if isBlank value then .ok none
  else (demand (portsInvalid "Docker Compose published port is invalid")
    ((value.bind Json.str?).bind l.canonicalIp)).map some

/-- What the loop of `publishedPorts` makes of one port: nothing, where it
is not published. -/
def readPort (l : Locale) (port : Json) :
    Except Failure (Option PublishedPort) := do
  let fields ← demand
    (portsInvalid "Docker Compose service ports are invalid") port.object?
  let targetPort ← demand
    (portsInvalid "Docker Compose service target port is invalid")
    (portNumber (fields.lookup "target"))
  if isBlank (fields.lookup "published") then return none
  else do
    let invalid := portsInvalid "Docker Compose published port is invalid"
    let publishedPort ← demand invalid
      (portNumber (fields.lookup "published"))
    let protocol ← demand invalid
      (Protocol.read? ((fields.get "protocol").orElse (.str "tcp")))
    let hostIp ← hostIp l (fields.lookup "host_ip")
    return some { hostIp, publishedPort, targetPort, protocol }

/-- One turn of the loop: the identities seen and the ports so far. -/
def portStep (l : Locale) (state : List String × List PublishedPort)
    (port : Json) : Except Failure (List String × List PublishedPort) := do
  let read ← readPort l port
  match read with
  | none => return state
  | some item =>
      if state.1.contains item.identity then
        .error (portsInvalid
          "Docker Compose published port identities must be unique")
      else return (state.1 ++ [item.identity], state.2 ++ [item])

def comparePorts : PublishedPort → PublishedPort → Ordering :=
  compareLex (fun left right =>
      compareText (left.hostIp.getD "") (right.hostIp.getD "")) <|
    compareLex (compareOn (·.publishedPort)) <|
    compareLex (compareOn (·.targetPort)) fun left right =>
      compareText left.protocol.text right.protocol.text

/-- `publishedPorts(value)` -/
def publishedPorts (l : Locale) (value : Option Json) :
    Except Failure (List PublishedPort) :=
  match value with
  | none | some .null => .ok []
  | some value => do
      let ports ← demand
        (portsInvalid "Docker Compose service ports are invalid")
        (value.arr?.filter fun ports => ports.length ≤ 64)
      let (_, output) ← ports.foldlM (portStep l) ([], [])
      return sortBy comparePorts output

-- ====== scopes

/-- Whose a resource is. -/
inductive Scope where
  | project
  | host
  deriving DecidableEq, Repr

/-- Whose a volume or a network is by its definition. -/
def definitionScope (invalid : String → Failure) (noun : String)
    (definition : Json) (source expectedProjectName : String) :
    Except Failure Scope := do
  let fields ← demand
    (invalid ("Docker Compose " ++ noun ++ " definition is invalid"))
    definition.object?
  let external := fields.lookup "external"
  let name := fields.lookup "name"
  ensure (invalid ("Docker Compose " ++ noun ++ " external state is invalid"))
    (external.all fun value => value.bool?.isSome)
  ensure (invalid ("Docker Compose " ++ noun ++ " runtime name is invalid"))
    (name.all fun value => value.str?.any isResourceName)
  if external = some (.bool true) then return .host
  else if name.all (· == .str (expectedProjectName ++ "_" ++ source)) then
    return .project
  else return .host

/-- `namedVolumeScope(source, volumeDefinitions, expectedProjectName)` -/
def namedVolumeScope (source : String) (volumeDefinitions : Json)
    (expectedProjectName : String) : Except Failure Scope := do
  let definition ← demand (storageInvalid
    "Docker Compose named volume definition is unavailable")
    (volumeDefinitions.object?.bind (·.lookup source))
  definitionScope storageInvalid "named volume" definition source
    expectedProjectName

/-- `namedNetworkScope(source, networkDefinitions, expectedProjectName)` -/
def namedNetworkScope (source : String) (networkDefinitions : Json)
    (expectedProjectName : String) : Except Failure Scope := do
  let definitions ← demand
    (networkInvalid "Docker Compose network definition is invalid")
    networkDefinitions.object?
  match definitions.lookup source with
  | none =>
      if source = "default" then return .project
      else .error (networkInvalid
        "Docker Compose network definition is unavailable")
  | some definition =>
      definitionScope networkInvalid "network" definition source
        expectedProjectName

-- ====== storage

inductive MountKind where
  | bind
  | namedVolume
  | ephemeral
  deriving DecidableEq, Repr

def MountKind.text : MountKind → String
  | bind => "bind"
  | namedVolume => "named_volume"
  | ephemeral => "ephemeral"

structure Mount where
  kind : MountKind
  source : Option String
  sourceScope : Option Scope
  target : String
  readOnly : Bool
  deriving DecidableEq, Repr

/-- `safeStoragePath(value)` of an absolute path -/
def safeStoragePath (s : String) : Bool :=
  1 ≤ Text.length s && Text.length s ≤ 4096
    && s.toList.all (fun c => !Text.isControl c)
    && Path.isAbsolute s.toList

/-- `STORAGE_TYPES` -/
inductive StorageType where
  | bind
  | tmpfs
  | volume
  deriving DecidableEq, Repr

def StorageType.read? : Json → Option StorageType
  | .str "bind" => some bind
  | .str "tmpfs" => some tmpfs
  | .str "volume" => some volume
  | _ => none

/-- `publicBindSource(source, projectDirectory)` -/
def publicBindSource (source : Option Json) (projectDirectory : Option String) :
    Except Failure (String × Scope) := do
  let invalid :=
    storageInvalid "Docker Compose bind mount source is invalid"
  let source ← demand invalid ((source.bind Json.str?).filter safeStoragePath)
  let directory ← demand invalid
    (projectDirectory.filter fun s => Path.isAbsolute s.toList)
  let root := Path.resolve directory.toList
  let resolved := Path.resolve source.toList
  let relative := Path.relative root resolved
  if relative.isEmpty then return ("./", .project)
  else if !("..".toList.isPrefixOf relative) && !Path.isAbsolute relative then
    return ("./" ++ String.ofList relative, .project)
  else return (String.ofList resolved, .host)

/-- What the configuration of a service is read under. -/
structure Context where
  projectDirectory : Option String
  volumeDefinitions : Json
  expectedProjectName : String

/-- The part of a mount that is looked at before its source. -/
structure MountHead where
  fields : Fields
  type : StorageType
  target : String
  readOnly : Bool

def mountInvalid : Failure :=
  storageInvalid "Docker Compose service storage mount is invalid"

def mountHead (mount : Json) : Except Failure MountHead := do
  let fields ← demand mountInvalid mount.object?
  let type ← demand mountInvalid (StorageType.read? (fields.get "type"))
  let target ← demand mountInvalid
    ((fields.get "target").str?.filter safeStoragePath)
  let readOnly := fields.lookup "read_only"
  ensure mountInvalid (readOnly.all fun value => value.bool?.isSome)
  return { fields, type, target, readOnly := readOnly = some (.bool true) }

def ephemeral (head : MountHead) : Mount where
  kind := .ephemeral
  source := none
  sourceScope := none
  target := head.target
  readOnly := head.readOnly

/-- What the loop of `storageMounts` pushes for a mount. -/
def mountItem (context : Context) (head : MountHead) :
    Except Failure Mount := do
  let source := head.fields.lookup "source"
  match head.type with
  | .bind => do
      let (source, scope) ← publicBindSource source context.projectDirectory
      return {
        kind := .bind
        source := some source
        sourceScope := some scope
        target := head.target
        readOnly := head.readOnly }
  | .volume =>
      if isBlank source then return ephemeral head
      else do
        let name ← demand
          (storageInvalid "Docker Compose named volume source is invalid")
          ((source.bind Json.str?).filter isResourceName)
        let scope ← namedVolumeScope name context.volumeDefinitions
          context.expectedProjectName
        return {
          kind := .namedVolume
          source := some name
          sourceScope := some scope
          target := head.target
          readOnly := head.readOnly }
  | .tmpfs =>
      if isBlank source then return ephemeral head
      else .error (storageInvalid
        "Docker Compose tmpfs mount source is invalid")

/-- A mount on its own, the other mounts aside. -/
def readMount (context : Context) (mount : Json) : Except Failure Mount := do
  let head ← mountHead mount
  mountItem context head

/-- One turn of the loop: the targets seen and the mounts so far. -/
def mountStep (context : Context) (state : List String × List Mount)
    (mount : Json) : Except Failure (List String × List Mount) := do
  let head ← mountHead mount
  if state.1.contains head.target then .error mountInvalid
  else do
    let item ← mountItem context head
    return (state.1 ++ [head.target], state.2 ++ [item])

def compareMounts (l : Locale) : Mount → Mount → Ordering :=
  compareLex (fun left right => l.localeCompare left.target right.target) <|
    compareLex (fun left right =>
      l.localeCompare left.kind.text right.kind.text) fun left right =>
      l.localeCompare (left.source.getD "") (right.source.getD "")

/-- `storageMounts(value, …)` -/
def storageMounts (l : Locale) (context : Context) (value : Option Json) :
    Except Failure (List Mount) :=
  match value with
  | none | some .null => .ok []
  | some value => do
      let mounts ← demand
        (storageInvalid "Docker Compose service storage mounts are invalid")
        (value.arr?.filter fun mounts => mounts.length ≤ 128)
      let (_, output) ← mounts.foldlM (mountStep context) ([], [])
      return sortBy (compareMounts l) output

-- ====== services

structure Service where
  name : String
  imageConfigured : Bool
  buildConfigured : Bool
  publishedPorts : List PublishedPort
  storageMounts : List Mount
  deriving DecidableEq, Repr

/-- A network mode that leaves the service isolated. -/
def isIsolated (mode : Json) : Bool :=
  mode.str?.any fun s =>
    s != "host" && !("container:".toList.isPrefixOf s.toList)
      && !("service:".toList.isPrefixOf s.toList)

/-- What is made of one entry of `value.services`. -/
def readService (l : Locale) (context : Context) (entry : String × Json) :
    Except Failure Service := do
  let fields ← demand serviceInvalid
    (if isServiceName entry.1 then entry.2.object? else none)
  ensure
    (networkInvalid "Docker Compose service network mode must be isolated")
    ((fields.lookup "network_mode").all isIsolated)
  let ports ← publishedPorts l (fields.lookup "ports")
  let mounts ← storageMounts l context (fields.lookup "volumes")
  return {
    name := entry.1
    imageConfigured := (fields.get "image").str?.any (· != "")
    buildConfigured := fields.get "build" != .null
    publishedPorts := ports
    storageMounts := mounts }

-- ====== summary

structure NetworkDetail where
  name : String
  scope : Scope
  deriving DecidableEq, Repr

structure Summary where
  version : Nat
  projectName : String
  composeSha256 : String
  composeBytes : Nat
  serviceCount : Nat
  services : List Service
  networks : List String
  networkDetails : List NetworkDetail
  volumes : List String
  secretCount : Nat
  configCount : Nat
  validated : Bool
  sideEffects : Bool
  deriving DecidableEq, Repr

structure Options where
  expectedProjectName : Json
  documentSha256 : String
  documentBytes : Nat
  projectDirectory : Option String

def compareServices (l : Locale) (left right : Service) : Ordering :=
  l.localeCompare left.name right.name

/-- `summarizeDockerComposeConfig(value, options)` -/
def summarizeDockerComposeConfig (l : Locale) (options : Options)
    (value : Json) : Except Failure Summary := do
  let expected ← projectName options.expectedProjectName
  let invalid :=
    configInvalid "Docker Compose normalized config is invalid"
  let fields ← demand invalid value.object?
  let entries ← demand invalid
    ((fields.lookup "services").bind Json.object?)
  ensure ⟨"docker_compose_project_name_mismatch",
      "Docker Compose normalized project identity changed"⟩
    ((fields.lookup "name").all (· == .str expected))
  ensure ⟨"docker_compose_service_count_invalid",
      "Docker Compose must define between 1 and 64 services"⟩
    (decide (1 ≤ entries.length) && decide (entries.length ≤ 64))
  let context : Context := {
    projectDirectory := options.projectDirectory
    volumeDefinitions := (fields.get "volumes").orElse (.obj [])
    expectedProjectName := expected }
  let services ← entries.mapM (readService l context)
  let networkDefinitions := (fields.get "networks").orElse (.obj [])
  let networkNames ← resourceNames (fields.lookup "networks") "network"
  let networkDetails ← networkNames.mapM fun name => do
    let scope ← namedNetworkScope name networkDefinitions expected
    return (⟨name, scope⟩ : NetworkDetail)
  let volumes ← resourceNames (fields.lookup "volumes") "volume"
  let secrets ← resourceNames (fields.lookup "secrets") "secret"
  let configs ← resourceNames (fields.lookup "configs") "config"
  return {
    version := 1
    projectName := expected
    composeSha256 := options.documentSha256
    composeBytes := options.documentBytes
    serviceCount := services.length
    services := sortBy (compareServices l) services
    networks := networkNames
    networkDetails
    volumes
    secretCount := secrets.length
    configCount := configs.length
    validated := true
    sideEffects := false }

end Yunpanel.Docker
