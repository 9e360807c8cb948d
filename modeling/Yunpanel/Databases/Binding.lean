/-
A database that belongs to a website.

A binding says which database of a server a website uses, and through it
the application and the user of the site. The registry of bindings and the
registry of credentials both keep records that name these, and both refuse
with a code, a message and a status.
-/
import Yunpanel.Js.Fields
import Yunpanel.Lib.Result

namespace Yunpanel.Databases

-- ====== failures

/-- Why a call rejects: an error of one of the two registries, or a write
that failed. -/
inductive Failure where
  | registry (code message : String) (status : Nat)
  | store
  deriving DecidableEq, Repr

/-- `new DatabaseBindingRegistryError(code, message, status)`, and the same
for credentials. -/
def refuse (code message : String) (status : Nat := 400) : Failure :=
  .registry code message status

namespace Failure

/-- `error.status`, of an error a registry threw. -/
def status? : Failure → Option Nat
  | registry _ _ status => some status
  | store => none

end Failure

-- ====== names

/-- `SYSTEM_SCHEMAS` -/
def systemSchemas : List String :=
  ["information_schema", "mysql", "performance_schema", "sys"]

/-- `ROUNDCUBE_SCHEMA`, of a name in lower case. -/
def isRoundcube (cs : List Char) : Bool :=
  ["roundcube", "roundcubemail"].any fun name =>
    cs == name.toList || (name.toList ++ ['_']).isPrefixOf cs

def isInfrastructureDatabase (name : String) : Bool :=
  let lowered := Text.lower name.toList
  systemSchemas.any (fun schema => schema.toList == lowered)
    || isRoundcube lowered

/-- `DATABASE_NAME_PATTERN` -/
def isDatabaseText (s : String) : Bool :=
  Text.inClass (fun c => Text.isAlnum c || c == '_') 1 64 s

def isDatabaseName (s : String) : Bool :=
  isDatabaseText s && !isInfrastructureDatabase s

abbrev DatabaseName := Matching isDatabaseName

/-- `databaseName.toLowerCase()` -/
def DatabaseName.key (name : DatabaseName) : List Char :=
  Text.lower name.text.toList

/-- `APP_USER_PATTERN` -/
def isSiteUser (s : String) : Bool :=
  let head := "yunapp-".toList
  head.isPrefixOf s.toList && (s.toList.drop head.length).length == 12
    && (s.toList.drop head.length).all Text.isHex

abbrev SiteUser := Matching isSiteUser

-- ====== records

structure Binding where
  id : Uuid
  serverId : Uuid
  databaseName : DatabaseName
  websiteId : Uuid
  applicationId : Uuid
  unixUser : SiteUser
  revision : Nat
  createdAt : Instant
  updatedAt : Instant
  deriving DecidableEq

/-- A name that matches the pattern is not empty. -/
theorem DatabaseName.text_ne_empty (name : DatabaseName) :
    name.text ≠ "" := by
  intro hempty
  have hok := name.ok
  rw [hempty] at hok
  revert hok
  decide

end Yunpanel.Databases
