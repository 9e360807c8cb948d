/-
The registry of database bindings, next to the registry of websites.

A binding is made for a website with an application and a site user, and
records both. The loader looks the website and the application up again
and compares: a binding whose website no longer has this application, or
another user, stops the process from starting.

The registry of websites changes what a website is bound to without asking
the registry of bindings. `Control` is the two of them, and a call is one
of either.
-/
import Yunpanel.Lib.Machine
import Yunpanel.Websites.Registry
import Yunpanel.Databases.Binding

namespace Yunpanel.Databases

open Json Lib Lib.Result
open Websites (Website Runtime)

-- ====== ownership

/-- Whom a database belongs to. -/
structure Ownership where
  serverId : Uuid
  websiteId : Uuid
  applicationId : Uuid
  unixUser : SiteUser

def identity (value : Json) (code field : String) : Except Failure Uuid :=
  demand (refuse code (field ++ " is invalid")) (Uuid.read? value)

section Ownership

variable (config : Websites.Config)

def getWebsite (websites : List (Website config.net)) (id : Uuid) :
    Option (Website config.net) :=
  websites.find? fun w => w.id == id

/-- The application of a hosted website, its type and its site user. -/
def hostedBinding (website : Website config.net) :
    Option (Websites.HostedType × Uuid × SiteUser) :=
  match website.runtime with
  | .hosted type applicationId =>
      (Matching.ofText? (config.appUnixUser applicationId)).map
        fun unixUser => (type, applicationId, unixUser)
  | _ => none

/-- The application a caller names, if it names one, is the website's. -/
def requireRequested (applicationId : Uuid) : Json → Except Failure Unit
  | .null => .ok ()
  | value => do
      let id ← identity value "invalid_application_id" "applicationId"
      ensure (refuse "database_binding_application_mismatch"
          "Requested Application does not match the Website binding" 409)
        (id == applicationId)

/-- `resolveOwnership`, of ids that were read. -/
def resolveOwnership (websites : List (Website config.net))
    (serverId websiteId : Uuid) (requested : Json) :
    Except Failure Ownership := do
  ensure (refuse "server_not_found" "Server not found" 404)
    (config.serverExists serverId)
  let website ← demand (refuse "website_not_found" "Website not found" 404)
    (getWebsite config websites websiteId)
  ensure (refuse "database_binding_website_server_mismatch"
      "Website belongs to a different server" 409)
    (website.serverId == serverId)
  let (type, applicationId, unixUser) ← demand
    (refuse "database_binding_website_unsupported"
      ("Database binding requires a managed static, Node or PHP Website "
        ++ "with a site user") 409)
    (hostedBinding config website)
  requireRequested applicationId requested
  let application ← demand (refuse "application_not_found"
    "Application not found" 404) (config.getApplication applicationId)
  ensure (refuse "database_binding_application_server_mismatch"
      "Application ownership does not match the Website and Server" 409)
    (application.serverId == serverId && application.type == type.text)
  return { serverId, websiteId, applicationId, unixUser }

/-- The block of `validateBindingReference`. -/
def checkReference (websites : List (Website config.net)) (b : Binding) :
    Except Failure Unit := do
  let ownership ← resolveOwnership config websites b.serverId b.websiteId
    b.applicationId.json
  ensure (refuse "database_binding_site_user_drift"
      "Database binding site user no longer matches Website ownership" 409)
    (ownership.unixUser == b.unixUser)

/-- `validateBindingReference(binding, { persisted: true })` -/
def validateBindingReference (websites : List (Website config.net))
    (b : Binding) : Except Failure Unit :=
  match checkReference config websites b with
  | .ok () => .ok ()
  | .error e =>
      if e.status? = some 404 then
        .error (refuse "database_binding_state_invalid"
          "Persisted database binding reference is stale" 409)
      else .error e

-- ====== load

/-- `databaseKey` -/
def Binding.databaseKey (b : Binding) : Uuid × List Char :=
  (b.serverId, b.databaseName.key)

/-- The loop of `init`, with the ids and the databases met so far. -/
def initFrom (websites : List (Website config.net)) (ids : List Uuid)
    (databases : List (Uuid × List Char)) :
    List Binding → Except Failure Unit
  | [] => .ok ()
  | b :: rest => do
      ensure (refuse "database_binding_state_invalid"
          "Database binding identities must be unique" 409)
        (!ids.contains b.id && !databases.contains b.databaseKey)
      validateBindingReference config websites b
      initFrom websites (b.id :: ids) (b.databaseKey :: databases) rest

/-- `init`, of a file that is a store of normalized records. -/
def initBindings (websites : List (Website config.net))
    (stored : List Binding) : Except Failure Unit := do
  ensure (refuse "database_binding_state_invalid"
      "Database binding state is invalid" 409)
    (stored.all fun b => 1 ≤ b.revision && b.revision ≤ 9007199254740991)
  initFrom config websites [] [] stored

-- ====== calls

/-- The clock, and the id the platform draws. -/
structure BindEnv where
  now : Instant
  randomUUID : Uuid

structure BindInput where
  serverId : Json
  databaseName : Json
  websiteId : Json
  applicationId : Json
  confirmation : Json

/-- `bindDatabase`: the bindings afterwards; a database that is bound so
already is left alone. -/
def bindDatabase (env : BindEnv) (websites : List (Website config.net))
    (bindings : List Binding) (input : BindInput) :
    Except Failure (List Binding) := do
  let name : DatabaseName ← demand
    (refuse "invalid_database_name" "Database name is invalid")
    (Matching.read? input.databaseName)
  let serverId ← identity input.serverId "invalid_server_id" "serverId"
  let websiteId ← identity input.websiteId "invalid_website_id" "websiteId"
  let ownership ← resolveOwnership config websites serverId websiteId
    input.applicationId
  ensure (refuse "database_binding_confirmation_mismatch"
      "Database binding confirmation does not match" 409)
    (input.confirmation == .str
      s!"bind-database:{serverId.text}:{name.text}:{websiteId.text}")
  match bindings.find? fun b =>
      b.serverId == serverId && b.databaseName.key == name.key with
  | some existing =>
      ensure (refuse "database_already_bound"
          "Database is already bound to another Website" 409)
        (existing.websiteId == websiteId
          && existing.applicationId == ownership.applicationId
          && existing.unixUser == ownership.unixUser
          && existing.databaseName == name)
      return bindings
  | none =>
      return bindings ++ [{
        id := env.randomUUID
        serverId
        databaseName := name
        websiteId
        applicationId := ownership.applicationId
        unixUser := ownership.unixUser
        revision := 1
        createdAt := env.now
        updatedAt := env.now }]

end Ownership

structure UnbindInput where
  bindingId : Json
  expectedRevision : Json
  confirmation : Json

/-- `unbindDatabase`: the bindings afterwards. -/
def unbindDatabase (bindings : List Binding) (input : UnbindInput) :
    Except Failure (List Binding) := do
  let id ← identity input.bindingId "invalid_database_binding_id"
    "databaseBindingId"
  let expected ← demand (refuse "invalid_database_binding_revision"
      "A positive expectedRevision is required")
    (((SafeNat.read? input.expectedRevision).map SafeNat.val).filter
      (1 ≤ ·))
  let (index, b) ← demand (refuse "database_binding_not_found"
      "Database binding not found" 404)
    (locate (fun b => b.id == id) bindings)
  ensure (refuse "database_binding_revision_conflict"
      "Database binding changed before removal" 409)
    (b.revision == expected)
  ensure (refuse "database_binding_confirmation_mismatch"
      "Database unbind confirmation does not match" 409)
    (input.confirmation == .str s!"unbind-database:{b.id.text}:{b.revision}")
  return bindings.eraseIdx index

-- ====== control

/-- The two registries. -/
structure Control (config : Websites.Config) where
  websites : List (Website config.net)
  bindings : List Binding

inductive Rejection where
  | website (e : Websites.Failure)
  | binding (e : Failure)

inductive ControlCall where
  | updateWebsite (now : Instant) (input : Websites.UpdateInput)
  | bindDatabase (env : BindEnv) (input : BindInput)
  | unbindDatabase (input : UnbindInput)

namespace Control

variable {config : Websites.Config}

/-- What a call that is accepted leads to. -/
def accept (s : Control config) :
    ControlCall → Except Rejection (Control config)
  | .updateWebsite now input =>
      match Websites.updateWebsite config now s.websites input with
      | .ok websites => .ok { s with websites }
      | .error e => .error (.website e)
  | .bindDatabase env input =>
      match Databases.bindDatabase config env s.websites s.bindings input with
      | .ok bindings => .ok { s with bindings }
      | .error e => .error (.binding e)
  | .unbindDatabase input =>
      match Databases.unbindDatabase s.bindings input with
      | .ok bindings => .ok { s with bindings }
      | .error e => .error (.binding e)

def step (s : Control config) (c : ControlCall) :
    Control config × Except Rejection Unit :=
  match s.accept c with
  | .ok s' => (s', .ok ())
  | .error e => (s, .error e)

/-- One call after another, a refused one changing nothing. -/
def machine (config : Websites.Config) :
    Machine (Control config) ControlCall (Except Rejection Unit) where
  step := step

/-- What the registry of bindings does when the process starts. -/
def start (s : Control config) : Except Failure Unit :=
  initBindings config s.websites s.bindings

end Control

end Yunpanel.Databases
