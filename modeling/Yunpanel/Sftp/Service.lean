/-
The SFTP key service: calls in flight over the registry and the host.

# How a call is split

A call changes the keys of its website in memory in one segment, once its
look-ups are back, and waits for the registry's write. It then reads the
active keys in another, and from there on works on the copy: it inspects
the file of the website, writes a temporary file, renames it over, and
inspects again. Each operation of the file system is a segment of its own,
and the temporary file of a website has one name for all calls.

# What is not in the state

Owner, mode and kind of what an `lstat` finds are answers of the
environment, as is whether an operation fails; the contents of the files
are in the state.
-/
import Yunpanel.Lib.Flight
import Yunpanel.Sftp.Keys

namespace Yunpanel.Sftp

open Json Lib Lib.Result
open Databases (SiteUser)

-- ====== state

/-- The keys in memory, the files of the websites by their Unix user, and
their temporary files. -/
structure Host where
  keys : List Key
  files : SiteUser → Option String
  temps : SiteUser → Option String

def Host.setFile (h : Host) (user : SiteUser) (content : Option String) :
    Host :=
  { h with files := Function.update h.files user content }

def Host.setTemp (h : Host) (user : SiteUser) (content : Option String) :
    Host :=
  { h with temps := Function.update h.temps user content }

/-- What `lstat` says of the directory of the files. -/
inductive Root where
  | missing | managed | drifted | failed
  deriving DecidableEq

/-- What a segment finds around it. -/
structure Env where
  moment : Moment
  ok : Bool
  root : Root
  managed : Bool

-- ====== calls

inductive RootStep where
  | stat | mkdir | chown | chmod | verify
  deriving DecidableEq

inductive WriteStep where
  | clear | write | chown | chmod | rename
  | sweep (written : Bool)
  deriving DecidableEq

inductive VerifyStep where
  | root | stat | read
  deriving DecidableEq

inductive Stage where
  | entered (c : Call)
  | saving (website : Identity)
  | resolving (website : Identity)
  | rooting (spec : Spec) (step : RootStep)
  | checking (spec : Spec)
  | comparing (spec : Spec)
  | writing (spec : Spec) (step : WriteStep)
  | verifying (spec : Spec) (step : VerifyStep)

inductive Note where
  | returned
  | rejected (e : Failure)

abbrev Segment : Type := Host × Option Stage × List Note

def rejected (h : Host) (code message : String) (status : Nat := 409) :
    Segment :=
  (h, none, [.rejected (refuse code message status)])

def returned (h : Host) : Segment := (h, none, [.returned])

def hostedRuntimeTypes : List String := ["static", "node", "php", "python"]

/-- `websiteIdentity(rawWebsiteId)` -/
def websiteIdentity (c : Context) (websiteId : Json) :
    Except Failure Uuid := do
  let id ← uuid "websiteId" "invalid_website_id" websiteId
  let site ← demand (refuse "website_not_found" "Website not found" 404)
    (c.getWebsite id)
  ensure (refuse "sftp_key_website_unsupported"
      "Website does not have a managed SFTP Unix identity" 409)
    (hostedRuntimeTypes.contains site.runtimeType
      && site.applicationId.isSome && site.unixUser.isSome)
  return id

/-- The website of a call, as the service and the registry look it up. -/
def Call.identity (c : Context) (call : Call) : Except Failure Identity := do
  let id ← websiteIdentity c call.websiteId
  requireWebsite c id

/-- The look-ups of a call, and what it does to the keys. -/
def Call.change (c : Context) (m : Moment) (keys : List Key) (call : Call) :
    Except Failure (Identity × Option (List Key)) := do
  let website ← call.identity c
  let next ← call.mutate c website m keys
  return (website, next)

def Host.mutate (h : Host) (c : Context) (m : Moment) (call : Call) :
    Segment :=
  match call.change c m h.keys with
  | .error e => (h, none, [.rejected e])
  | .ok (website, some keys) => ({ h with keys }, some (.saving website), [])
  | .ok (website, none) => (h, some (.resolving website), [])

/-- The active keys of the website, once and for all. -/
def Host.resolve (h : Host) (c : Context) (website : Identity) : Segment :=
  match desired c website h.keys with
  | .error e => (h, none, [.rejected e])
  | .ok spec => (h, some (.rooting spec .stat), [])

/-- `ensureRoot(spec)` -/
def Host.ensureRoot (h : Host) (spec : Spec) (env : Env) :
    RootStep → Segment
  | .stat =>
      match env.root with
      | .missing => (h, some (.rooting spec .mkdir), [])
      | .managed => (h, some (.checking spec), [])
      | .drifted => rejected h "sftp_authorized_keys_root_drift"
          "SFTP authorized-keys root ownership or mode drifted"
      | .failed => rejected h "sftp_authorized_keys_inspection_failed"
          "SFTP authorized-keys metadata could not be inspected"
  | .mkdir => prepared (.rooting spec .chown)
  | .chown => prepared (.rooting spec .chmod)
  | .chmod => prepared (.rooting spec .verify)
  | .verify =>
      match env.root with
      | .managed => (h, some (.checking spec), [])
      | _ => rejected h "sftp_authorized_keys_root_prepare_failed"
          "SFTP authorized-keys root was not created"
where
  prepared (next : Stage) : Segment :=
    if env.ok then (h, some next, [])
    else rejected h "sftp_authorized_keys_root_prepare_failed"
      "SFTP authorized-keys root could not be prepared"

/-- `optionalStat(spec.target)` before anything is written. -/
def Host.check (h : Host) (spec : Spec) (env : Env) : Segment :=
  if env.ok then
    match h.files spec.unixUser with
    | none => (h, some (.writing spec .clear), [])
    | some _ =>
        if env.managed then (h, some (.comparing spec), [])
        else rejected h "sftp_authorized_keys_file_drift"
          "SFTP authorized-keys file ownership or mode drifted"
  else rejected h "sftp_authorized_keys_inspection_failed"
    "SFTP authorized-keys metadata could not be inspected"

def readFailed (h : Host) : Segment :=
  rejected h "sftp_authorized_keys_read_failed"
    "SFTP authorized-keys file could not be read"

/-- `current.startsWith(MANAGED_HEADER)` -/
def isManaged (content : String) : Bool :=
  managedHeader.toList.isPrefixOf content.toList

def unmanaged (h : Host) : Segment :=
  rejected h "sftp_authorized_keys_unmanaged_conflict"
    "Existing authorized-keys file is not owned by YunPanel"

/-- `optionalRead(spec.target)` before anything is written. -/
def Host.compare (h : Host) (spec : Spec) (env : Env) : Segment :=
  match h.files spec.unixUser, env.ok with
  | some current, true =>
      if !isManaged current then unmanaged h
      else if current = spec.content then returned h
      else (h, some (.writing spec .clear), [])
  | _, _ => readFailed h

/-- `atomicWrite(spec)`; what fails in it goes on to the last `rm`. -/
def Host.write (h : Host) (spec : Spec) (env : Env) : WriteStep → Segment
  -- `rm(temporary, { force: true }).catch(() => {})`
  | .clear =>
      (if env.ok then h.setTemp spec.unixUser none else h,
        some (.writing spec .write), [])
  | .write =>
      if env.ok then
        (h.setTemp spec.unixUser (some spec.content),
          some (.writing spec .chown), [])
      else (h, some (.writing spec (.sweep false)), [])
  | .chown => owned (.writing spec .chmod)
  | .chmod => owned (.writing spec .rename)
  | .rename =>
      match h.temps spec.unixUser, env.ok with
      | some content, true =>
          ((h.setFile spec.unixUser (some content)).setTemp spec.unixUser none,
            some (.writing spec (.sweep true)), [])
      | _, _ => (h, some (.writing spec (.sweep false)), [])
  | .sweep written =>
      let h := if env.ok then h.setTemp spec.unixUser none else h
      if written then (h, some (.verifying spec .root), [])
      else rejected h "sftp_authorized_keys_write_failed"
        "SFTP authorized-keys file could not be materialized"
where
  /-- `chown` and `chmod` of the temporary file. -/
  owned (next : Stage) : Segment :=
    if env.ok && (h.temps spec.unixUser).isSome then (h, some next, [])
    else (h, some (.writing spec (.sweep false)), [])

def unverified (h : Host) : Segment :=
  rejected h "sftp_authorized_keys_unverified"
    ("SFTP authorized-keys file could not be verified after "
      ++ "materialization")

/-- `inspect(rawIntent)` after the write. -/
def Host.verify (h : Host) (spec : Spec) (env : Env) : VerifyStep → Segment
  | .root =>
      match env.root with
      | .managed => (h, some (.verifying spec .stat), [])
      | .missing => unverified h
      | .drifted => rejected h "sftp_authorized_keys_root_drift"
          "SFTP authorized-keys root ownership or mode drifted"
      | .failed => rejected h "sftp_authorized_keys_inspection_failed"
          "SFTP authorized-keys metadata could not be inspected"
  | .stat =>
      if env.ok && env.managed && (h.files spec.unixUser).isSome then
        (h, some (.verifying spec .read), [])
      else unverified h
  | .read =>
      match h.files spec.unixUser, env.ok with
      | some current, true =>
          if !isManaged current then unmanaged h
          else if current = spec.content then returned h
          else unverified h
      | _, _ => unverified h

/-- One segment of a call. -/
def Host.resume (c : Context) (h : Host) : Stage → Env → Segment
  | .entered call, env => h.mutate c env.moment call
  | .saving website, env =>
      if env.ok then (h, some (.resolving website), [])
      else rejected h "sftp_key_write_failed" "the store refused" 503
  | .resolving website, _ => h.resolve c website
  | .rooting spec step, env => h.ensureRoot spec env step
  | .checking spec, env => h.check spec env
  | .comparing spec, env => h.compare spec env
  | .writing spec step, env => h.write spec env step
  | .verifying spec step, env => h.verify spec env step

/-- The service with its calls in flight. Nothing but the calls touches the
registry and the files. -/
def protocol (c : Context) : Protocol Host Call Stage Env Empty Note where
  enter := .entered
  resume := Host.resume c
  world h _ := h
  reopen h := h

end Yunpanel.Sftp
