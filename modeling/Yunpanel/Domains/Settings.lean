/-
Nginx settings and targets of a domain.

A target says what answers a domain's requests and a setting how Nginx
serves it; both come as JSON from callers and from the store, and
`normalizeNginxSettings` and `validateTarget` decide what is taken. Which
fields there are depends on the kind of target, so the settings are one of
three records and the target one of four.
-/
import Yunpanel.Domains.Names

namespace Yunpanel.Domains

-- ====== JSON

/-- `value[field]`, where there is one. -/
def field (name : String) : Json → Option Json
  | .obj fields => (fields.find? fun f => f.1 == name).map Prod.snd
  | _ => none

/-- `Object.keys(value)` -/
def keysOf : Json → List String
  | .obj fields => fields.map Prod.fst
  | _ => []

/-- `value !== false` -/
def notFalse : Option Json → Bool
  | some (.bool false) => false
  | _ => true

-- ====== kinds

inductive TargetType where
  | static | proxy | passenger | php | python
  deriving DecidableEq, Repr

namespace TargetType

def text : TargetType → String
  | static => "static"
  | proxy => "proxy"
  | passenger => "passenger"
  | php => "php"
  | python => "python"

def all : List TargetType := [static, proxy, passenger, php, python]

/-- `TARGET_TYPES.has` -/
def ofText? (s : String) : Option TargetType :=
  all.find? fun t => t.text == s

/-- `targetType === 'proxy' || targetType === 'python'` -/
def forwards : TargetType → Bool
  | proxy | python => true
  | _ => false

end TargetType

-- ====== settings

structure Header where
  name : String
  value : String
  always : Bool
  deriving DecidableEq, Repr

/-- The settings of a proxy or Python target, of a static one, and of a
Passenger or PHP one. -/
inductive NginxSettings where
  | forwarded (clientMaxBodySizeMb proxyTimeoutSeconds : Option Int)
      (websocket : Bool) (headers : List Header)
  | served (clientMaxBodySizeMb : Option Int) (spaFallback : Bool)
      (staticAssetCacheSeconds : Option Int) (headers : List Header)
  | plain (clientMaxBodySizeMb : Option Int) (headers : List Header)
  deriving DecidableEq, Repr

/-- `TARGET_FIELDS` -/
def settingFields (targetType : TargetType) : List String :=
  ["clientMaxBodySizeMb", "headers"]
    ++ match targetType with
      | .proxy | .python => ["proxyTimeoutSeconds", "websocket"]
      | .static => ["spaFallback", "staticAssetCacheSeconds"]
      | .passenger | .php => []

/-- `BLOCKED_HEADERS` -/
def blockedHeaders : List String :=
  ["cache-control", "connection", "content-length", "content-type", "date",
    "location", "server", "set-cookie", "transfer-encoding", "upgrade"]

def optionalInteger (name : String) (minimum maximum : Int) :
    Json → Except Failure (Option Int)
  | .null => .ok none
  | .num n =>
      if n < minimum ∨ maximum < n then
        .error (refuse "invalid_nginx_setting"
          (name ++ " is outside the supported range"))
      else .ok (some n)
  | _ =>
      .error (refuse "invalid_nginx_setting"
        (name ++ " is outside the supported range"))

def boolean (name : String) : Json → Except Failure Bool
  | .bool b => .ok b
  | _ =>
      .error (refuse "invalid_nginx_setting" (name ++ " must be boolean"))

/-- `/^[A-Za-z][A-Za-z0-9-]{0,63}$/` -/
def isHeaderName (name : String) : Bool :=
  name.toList.head?.any (fun c => Text.isLower c || Text.isUpper c)
    && Text.inClass (fun c => isAlnum c || Text.isUpper c || c == '-')
      1 64 name

/-- `/[\u0000-\u001f\u007f\u0085\u2028\u2029"\\$]/` -/
def isHeaderReserved (c : Char) : Bool :=
  Text.isControl c || c.toNat == 0x85 || c.toNat == 0x2028
    || c.toNat == 0x2029 || c == '"' || c.toNat == 0x5c || c == '$'

/-- The fields of one entry of `headers`, where they are what they have to
be. -/
def headerFields (entry : Json) : Option Header :=
  if (keysOf entry).length ≠ 3
      || (keysOf entry).any fun key =>
        !(["name", "value", "always"].contains key) then none
  else
    match field "name" entry, field "value" entry, field "always" entry with
    | some (.str name), some (.str value), some (.bool always) =>
        if isHeaderName name && decide (1 ≤ Text.length value)
            && decide (Text.length value ≤ 256)
            && !(value.toList.any isHeaderReserved) then
          some { name, value, always }
        else none
    | _, _, _ => none

/-- The name headers are told apart by. -/
def Header.identity (h : Header) : String :=
  String.ofList (Text.lower h.name.toList)

/-- The loop of `headers`. -/
def headerList (seen : List String) :
    List Json → Except Failure (List Header)
  | [] => .ok []
  | entry :: rest =>
      match headerFields entry with
      | none =>
          .error (refuse "invalid_nginx_header"
            "Nginx response header fields are invalid")
      | some header =>
          if header.identity ∈ blockedHeaders then
            .error (refuse "blocked_nginx_header"
              ("Nginx response header is managed by the panel or "
                ++ "protocol"))
          else if header.identity ∈ seen then
            .error (refuse "duplicate_nginx_header"
              "Nginx response header names must be unique")
          else do
            let others ← headerList (header.identity :: seen) rest
            return header :: others

def headers : Json → Except Failure (List Header)
  | .arr entries =>
      if 12 < entries.length then
        .error (refuse "invalid_nginx_headers"
          "Nginx headers must be an array with at most 12 entries")
      else headerList [] entries
  | _ =>
      .error (refuse "invalid_nginx_headers"
        "Nginx headers must be an array with at most 12 entries")

namespace NginxSettings

/-- `defaults` -/
def defaults : TargetType → NginxSettings
  | .proxy | .python => forwarded none none true []
  | .static => served none true (some 604800) []
  | .passenger | .php => plain none []

def headerJson (h : Header) : Json :=
  .obj [("name", .str h.name), ("value", .str h.value),
    ("always", .bool h.always)]

def intJson : Option Int → Json
  | none => .null
  | some n => .num n

def headersJson (hs : List Header) : Json := .arr (hs.map headerJson)

/-- The settings as an object. -/
def toJson : NginxSettings → Json
  | forwarded size timeout websocket hs =>
      .obj [("clientMaxBodySizeMb", intJson size),
        ("proxyTimeoutSeconds", intJson timeout),
        ("websocket", .bool websocket), ("headers", headersJson hs)]
  | served size spaFallback cache hs =>
      .obj [("clientMaxBodySizeMb", intJson size),
        ("spaFallback", .bool spaFallback),
        ("staticAssetCacheSeconds", intJson cache),
        ("headers", headersJson hs)]
  | plain size hs =>
      .obj [("clientMaxBodySizeMb", intJson size),
        ("headers", headersJson hs)]

end NginxSettings

/-- `{ ...seed, ...value }[name]` -/
def merged (seed value : Json) (name : String) : Json :=
  ((field name value).or (field name seed)).getD .null

/-- `normalizeNginxSettings` over a seed: the fields `value` has, the
seed's where it has none. -/
def mergeSettings (targetType : TargetType) (value seed : Json) :
    Except Failure NginxSettings :=
  let get := merged seed value
  if !value.isObject
      || (keysOf value).any fun key =>
        !((settingFields targetType).contains key) then
    .error (refuse "invalid_nginx_settings"
      "Nginx settings contain unsupported fields")
  else do
    let size ← optionalInteger "clientMaxBodySizeMb" 1 1024
      (get "clientMaxBodySizeMb")
    match targetType with
    | .proxy | .python =>
        let timeout ← optionalInteger "proxyTimeoutSeconds" 1 600
          (get "proxyTimeoutSeconds")
        let websocket ← boolean "websocket" (get "websocket")
        let hs ← headers (get "headers")
        return .forwarded size timeout websocket hs
    | .static =>
        let spaFallback ← boolean "spaFallback" (get "spaFallback")
        let cache ← optionalInteger "staticAssetCacheSeconds" 0 31536000
          (get "staticAssetCacheSeconds")
        let hs ← headers (get "headers")
        return .served size spaFallback cache hs
    | .passenger | .php =>
        let hs ← headers (get "headers")
        return .plain size hs

/-- `normalizeNginxSettings(targetType, value, base)`, under the
registry's `settings`. -/
def normalizeNginxSettings (targetType : TargetType) (value : Json)
    (base : Option Json) : Except Failure NginxSettings :=
  let unbased := mergeSettings targetType value
    (NginxSettings.defaults targetType).toJson
  match base with
  | none => unbased
  | some base =>
      if !value.isObject
          || (keysOf value).any fun key =>
            !((settingFields targetType).contains key) then unbased
      else do
        let seed ← mergeSettings targetType base
          (NginxSettings.defaults targetType).toJson
        mergeSettings targetType value seed.toJson

-- ====== targets

inductive ProxyMode where
  | unixSocket | port
  deriving DecidableEq, Repr

/-- What answers a domain's requests. -/
inductive Target where
  | static (root : String) (spaFallback : Bool)
  | proxy (upstreamHost : String) (upstreamPort : Int) (websocket : Bool)
  | application (applicationId : String)
  | python (applicationId : String) (proxyMode : ProxyMode)
      (socketPath : Option String) (port : Option Int) (websocket : Bool)
  deriving DecidableEq, Repr

namespace Target

def textJson : Option String → Json
  | none => .null
  | some s => .str s

/-- The target as an object. -/
def toJson : Target → Json
  | static root spaFallback =>
      .obj [("root", .str root), ("spaFallback", .bool spaFallback)]
  | proxy host port websocket =>
      .obj [("upstreamHost", .str host), ("upstreamPort", .num port),
        ("websocket", .bool websocket)]
  | application id => .obj [("applicationId", .str id)]
  | python id mode socketPath port websocket =>
      .obj [("applicationId", .str id),
        ("proxyMode", .str (match mode with
          | .unixSocket => "unix_socket"
          | .port => "port")),
        ("socketPath", textJson socketPath),
        ("port", NginxSettings.intJson port),
        ("websocket", .bool websocket)]

end Target

/-- `value ?? fallback` -/
def orElse (value : Option Json) (fallback : Json) : Json :=
  match value with
  | none | some .null => fallback
  | some v => v

/-- `value != null` -/
def present : Option Json → Bool
  | none | some .null => false
  | _ => true

/-- A value that counts as true. -/
def truthy : Option Json → Bool
  | none | some .null => false
  | some (.bool b) => b
  | some (.num n) => n ≠ 0
  | some (.str s) => s ≠ ""
  | _ => true

/-- `Number.isInteger(port) && port >= 1024 && port <= 65535` -/
def portOf : Option Json → Option Int
  | some (.num n) => if 1024 ≤ n ∧ n ≤ 65535 then some n else none
  | _ => none

def uuidOf : Option Json → Option String
  | some (.str s) => assertUuid s
  | _ => none

def socketPrefix : String := "/run/yunpanel/python-"

def staticTarget (target : Json) : Except Failure Target :=
  match field "root" target with
  | some (.str root) =>
      if Text.length root < 2 ∨ 500 < Text.length root
          ∨ root.toList.any Text.isControl = true then
        .error (refuse "invalid_static_root"
          "Static target root is invalid")
      else .ok (.static root (notFalse (field "spaFallback" target)))
  | _ =>
      .error (refuse "invalid_static_root" "Static target root is invalid")

/-- Passenger and PHP, which differ in their names alone. -/
def applicationTarget (code label : String) (target : Json) :
    Except Failure Target :=
  if keysOf target ≠ ["applicationId"] then
    .error (refuse ("invalid_" ++ code ++ "_target")
      (label ++ " Domain target must contain only applicationId"))
  else
    match uuidOf (field "applicationId" target) with
    | some id => .ok (.application id)
    | none =>
        .error (refuse ("invalid_" ++ code ++ "_target")
          (label ++ " Domain target Application identity is invalid"))

/-- A Python target is reached by port, not through a socket. -/
def byPort (target : Json) : Bool :=
  match field "proxyMode" target with
  | some (.str "port") => true
  | _ =>
      present (field "port" target) && !(truthy (field "socketPath" target))

def pythonTarget (target : Json) : Except Failure Target :=
  match uuidOf (field "applicationId" target) with
  | none =>
      .error (refuse "invalid_python_target"
        "Python Domain target Application identity is invalid")
  | some id =>
      let websocket := notFalse (field "websocket" target)
      if byPort target then
        match portOf (field "port" target) with
        | some port => .ok (.python id .port none (some port) websocket)
        | none =>
            .error (refuse "invalid_python_target"
              "Python Domain port must be between 1024 and 65535")
      else
        match orElse (field "socketPath" target)
            (.str (socketPrefix ++ id ++ ".sock")) with
        | .str path =>
            if socketPrefix.toList.isPrefixOf path.toList then
              .ok (.python id .unixSocket (some path) none websocket)
            else
              .error (refuse "invalid_python_target"
                "Python Domain socketPath is invalid")
        | _ =>
            .error (refuse "invalid_python_target"
              "Python Domain socketPath is invalid")

def proxyTarget (net : Net) (target : Json) : Except Failure Target :=
  match portOf (field "upstreamPort" target) with
  | none =>
      .error (refuse "invalid_upstream_port"
        "Proxy upstreamPort must be between 1024 and 65535")
  | some port =>
      let host := match orElse (field "upstreamHost" target)
          (.str "127.0.0.1") with
        | .str s => normalizeProxyHost net s
        | _ => none
      match host with
      | some host =>
          .ok (.proxy host port (notFalse (field "websocket" target)))
      | none =>
          .error (refuse "invalid_upstream_host"
            ("Proxy upstreamHost must be an IP address or DNS hostname "
              ++ "without a URL scheme or path"))

def validateTarget (net : Net) (targetType : TargetType) (target : Json) :
    Except Failure Target :=
  if !target.isObject then
    .error (refuse "invalid_target" "target must be an object")
  else
    match targetType with
    | .static => staticTarget target
    | .passenger => applicationTarget "passenger" "Passenger" target
    | .php => applicationTarget "php" "PHP" target
    | .python => pythonTarget target
    | .proxy => proxyTarget net target

-- ====== target and settings

/-- `target?.websocket` -/
def Target.websocket : Target → Option Bool
  | proxy _ _ websocket => some websocket
  | python _ _ _ _ websocket => some websocket
  | _ => none

/-- `target?.spaFallback` -/
def Target.spaFallback : Target → Option Bool
  | static _ spaFallback => some spaFallback
  | _ => none

def NginxSettings.websocket : NginxSettings → Option Bool
  | forwarded _ _ websocket _ => some websocket
  | _ => none

def NginxSettings.spaFallback : NginxSettings → Option Bool
  | served _ spaFallback _ _ => some spaFallback
  | _ => none

def settingsFromTarget (targetType : TargetType) (target : Target) :
    Except Failure NginxSettings :=
  match targetType with
  | .proxy | .python =>
      normalizeNginxSettings targetType
        (.obj [("websocket", .bool (target.websocket ≠ some false))]) none
  | .static =>
      normalizeNginxSettings targetType
        (.obj [("spaFallback", .bool (target.spaFallback ≠ some false))])
        none
  | .passenger | .php => normalizeNginxSettings targetType (.obj []) none

/-- `targetWithSettings`: the fields target and settings share are the
settings'. -/
def targetWithSettings : Target → NginxSettings → Target
  | .proxy host port _, .forwarded _ _ websocket _ =>
      .proxy host port websocket
  | .python id mode socketPath port _, .forwarded _ _ websocket _ =>
      .python id mode socketPath port websocket
  | .static root _, .served _ spaFallback _ _ => .static root spaFallback
  | target, _ => target

end Yunpanel.Domains
