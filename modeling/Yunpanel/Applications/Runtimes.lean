/-
How an application runs: the settings of Node.

The normalizer takes whatever a caller sent or a store held, fills in the
defaults and refuses the rest; what it returns is a record whose fields
carry their own checks. An application listens on a port of its own under
systemd and on none under Passenger, which is why the normalizer is told
which of the two it is for.
-/
import Yunpanel.Applications.Sources

namespace Yunpanel.Applications

open Json

-- ====== shared

/-- A character of `HEALTH_PATH_PATTERN`. -/
def isHealthChar (c : Char) : Bool :=
  Text.isAlnum c || "._~!$&'()*+,;=:@%/-".toList.contains c

/-- `HEALTH_PATH_PATTERN` -/
def isHealthPath (s : String) : Bool :=
  s.toList.head? == some '/' && s.toList.all isHealthChar

abbrev Port := Ranged 1024 65535

-- ====== Node

/-- `start` of a Node runtime: a file run by Node, or a script of npm. -/
inductive NodeStart where
  | node (entryFile : BuildPath)
  | npm (script : Script)
  deriving DecidableEq

/-- At most 200 units, and no `//`. -/
def isNodeHealthPath (s : String) : Bool :=
  decide (Text.length s ≤ 200) && isHealthPath s && !includes "//" s

structure NodeRuntime where
  nodeMajor : Ranged 20 40
  packageManager : OneOf ["npm", "pnpm", "yarn"]
  installMode : OneOf ["ci", "install"]
  buildScript : Option Script
  mode : OneOf ["production", "development"]
  documentRoot : RootPath
  start : NodeStart
  port : Option Port
  healthPath : Matching isNodeHealthPath
  healthTimeoutSeconds : Ranged 5 120
  restartPolicy : OneOf ["on-failure", "always"]
  deriving DecidableEq

/-- `RUNTIME_FIELDS` -/
def nodeFields : List String :=
  ["nodeMajor", "packageManager", "installMode", "buildScript", "mode",
    "documentRoot", "startMode", "entryFile", "startScript", "start", "port",
    "healthPath", "healthTimeoutSeconds", "restartPolicy"]

/-- `START_FIELDS` -/
def startFields : List String := ["mode", "entryFile", "script"]

def invalidNodeRuntime (message : String) : Failure :=
  .validation "invalid_node_runtime" message

def invalidNodeStart (message : String) : Failure :=
  .validation "invalid_node_start" message

/-- The fields of `value.start`; none where there is no such key. -/
def nodeStartFields (fields : Fields) : Except Failure Fields :=
  match fields.lookup "start" with
  | none => .ok []
  | some start => do
      let start ← demand
        (invalidNodeStart "Node start config must be an object")
        start.object?
      ensure
        (invalidNodeStart "Node start config contains unsupported fields")
        (start.all fun field => startFields.contains field.1)
      return start

/-- The `start` of the runtime. -/
def normalizeNodeStart (fields start : Fields) :
    Except Failure NodeStart := do
  let startMode := (fields.get "startMode").orElse
    ((start.get "mode").orElse (.str "node"))
  ensure
    (.validation "invalid_start_mode" "Node startMode must be node or npm")
    (startMode = .str "node" || startMode = .str "npm")
  if startMode = .str "node" then
    let entryFile ← normalizeRelativeBuildPath
      ((fields.get "entryFile").orElse
        ((start.get "entryFile").orElse (.str "server.js")))
    return .node entryFile
  let script ← demand
    (.validation "invalid_node_script" "startScript is invalid")
    (Matching.read? ((fields.get "startScript").orElse
      ((start.get "script").orElse (.str "start"))))
  return .npm script

/-- The port of the runtime, as `requirePort` asks for it. -/
def normalizeNodePort (requirePort : Bool) (port : Json) :
    Except Failure (Option Port) :=
  if requirePort then
    (demand
      (.validation "invalid_node_port"
        "Node application port must be between 1024 and 65535")
      (Ranged.read? port)).map some
  else if port = .null then .ok none
  else
    .error (.validation "invalid_node_port"
      "Passenger Node runtime must omit application port")

def normalizeNodeRuntimeConfig (requirePort : Bool) (value : Json) :
    Except Failure NodeRuntime := do
  let fields ← demand
    (invalidNodeRuntime "Node runtime config must be an object")
    value.object?
  ensure
    (invalidNodeRuntime "Node runtime config contains unsupported fields")
    (fields.all fun field => nodeFields.contains field.1)
  let startConfig ← nodeStartFields fields
  let nodeMajor ← demand
    (.validation "invalid_node_version"
      "Node major version must be between 20 and 40")
    (Ranged.read? ((fields.get "nodeMajor").orElse (.num 24)))
  let installMode ← demand
    (.validation "invalid_install_mode"
      "npm install mode must be ci or install")
    (Matching.read? ((fields.get "installMode").orElse (.str "ci")))
  let buildScript ← demand
    (.validation "invalid_node_script" "buildScript is invalid")
    (nullable? Matching.read? (fields.get "buildScript"))
  let packageManager ← demand
    (.validation "invalid_package_manager"
      "Node packageManager must be npm, pnpm or yarn")
    (Matching.read? ((fields.get "packageManager").orElse (.str "npm")))
  let mode ← demand
    (.validation "invalid_node_mode"
      "Node mode must be production or development")
    (Matching.read? ((fields.get "mode").orElse (.str "production")))
  let documentRoot ← normalizeRootPath
    ((fields.get "documentRoot").orElse (.str "."))
  let start ← normalizeNodeStart fields startConfig
  let port ← normalizeNodePort requirePort (fields.get "port")
  let healthPath ← demand
    (.validation "invalid_health_path" "Node health path is invalid")
    (Matching.read? ((fields.get "healthPath").orElse (.str "/health")))
  let healthTimeoutSeconds ← demand
    (.validation "invalid_health_timeout"
      "Node health timeout must be between 5 and 120 seconds")
    (Ranged.read? ((fields.get "healthTimeoutSeconds").orElse (.num 30)))
  let restartPolicy ← demand
    (.validation "invalid_restart_policy"
      "Node restart policy must be on-failure or always")
    (Matching.read? ((fields.get "restartPolicy").orElse
      (.str "on-failure")))
  return { nodeMajor, packageManager, installMode, buildScript, mode,
           documentRoot, start, port, healthPath, healthTimeoutSeconds,
           restartPolicy }

end Yunpanel.Applications
