/-
The store of environments as it is in its file, and the older version of it.

A store of version 1 has the variables alone. The loader counts them for
each application, gives each application an environment at revision 1, and
writes the result as a store of version 2; from the next start on it is read
as one. The time of that change is the text of the latest `updatedAt` among
the variables of the application, as it stands there, or the clock's reading
where none of them is a date.
-/
import Yunpanel.Environment.Registry
import Yunpanel.Lib.Result

namespace Yunpanel.Environment

open Lib Json Applications

-- ====== dates

/-- What the platform knows of dates. -/
structure Calendar where
  /-- `Date.parse(text)`, where it is a number -/
  parse : String → Option Int
  /-- `new Date(ms).toISOString()` -/
  toISOString : Int → String

/-- Why a store is not loaded: an error of the registry's checks, or a plain
one. -/
inductive Rejection where
  | registry (e : Failure)
  | error (message : String)
  deriving DecidableEq

def ofRegistry {α : Type} : Except Failure α → Except Rejection α
  | .ok a => .ok a
  | .error e => .error (.registry e)

/-- The text is the one `toISOString` writes, of 24 characters. -/
def Calendar.isCanonical (calendar : Calendar) (text : String) : Bool :=
  Text.length text == 24
    && (calendar.parse text).any fun ms => calendar.toISOString ms == text

-- ====== version 2

namespace ChangeSource

def text : ChangeSource → String
  | single => "single"
  | importMerge => "import_merge"
  | importReplace => "import_replace"
  | migration => "migration"

/-- `CHANGE_SOURCES.has` -/
def ofText? (s : String) : Option ChangeSource :=
  [single, importMerge, importReplace, migration].find? fun c => c.text == s

end ChangeSource

/-- `record[name]`, `null` where there is none. -/
def fieldOf (name : String) : Json → Json
  | .obj fields => Fields.get fields name
  | _ => .null

/-- Whether `record[name] === null`; a field that is missing is not. -/
def isNull (name : String) : Json → Bool
  | .obj fields => (fields.lookup name).any fun value => Json.same value .null
  | _ => false

/-- A field that may be null. -/
def nullableField {α : Type} (name : String) (record : Json)
    (read : Json → Except Rejection α) : Except Rejection (Option α) :=
  if isNull name record then .ok none
  else (read (fieldOf name record)).map some

/-- The state of one application's environment, as stored. -/
structure SavedEnvironment where
  applicationId : Uuid
  revision : Nat
  appliedRevision : Option Nat
  appliedReleaseId : Option Uuid
  lastChangedAt : Option String
  lastAppliedAt : Option String
  lastChange : Option Change
  deriving DecidableEq

def Change.json (change : Change) : Json :=
  .obj [("source", .str change.source.text), ("added", .num change.added),
    ("updated", .num change.updated), ("deleted", .num change.deleted)]

def natJson (n : Nat) : Json := .num n

def SavedEnvironment.json (m : SavedEnvironment) : Json :=
  .obj [("applicationId", m.applicationId.json), ("revision", natJson m.revision),
    ("appliedRevision", ofOption natJson m.appliedRevision),
    ("appliedReleaseId", ofOption Uuid.json m.appliedReleaseId),
    ("lastChangedAt", ofOption .str m.lastChangedAt),
    ("lastAppliedAt", ofOption .str m.lastAppliedAt),
    ("lastChange", ofOption Change.json m.lastChange)]

/-- `validateTimestamp`, of a value that is not null. -/
def validateTimestamp (calendar : Calendar) (name : String) (value : Json) :
    Except Rejection String :=
  Lib.Result.demand (.error (name ++ " is invalid"))
    (value.str?.filter calendar.isCanonical)

/-- The checks of `lastChange`, where it is not null. -/
def readChange (value : Json) : Except Rejection Change :=
  let count (name : String) : Option Nat :=
    (SafeNat.read? (fieldOf name value)).map SafeNat.val
  Lib.Result.demand
    (.error "application environment change metadata is invalid")
    (do
      let source ← (fieldOf "source" value).str?.bind ChangeSource.ofText?
      let added ← count "added"
      let updated ← count "updated"
      let deleted ← count "deleted"
      return { source, added, updated, deleted })

/-- The timestamps and the revisions of an environment fit. -/
def SavedEnvironment.timestampsFit (m : SavedEnvironment) : Bool :=
  !((m.revision == 0 && (m.lastChange.isSome || m.lastChangedAt.isSome))
    || (decide (0 < m.revision)
      && (m.lastChange.isNone || m.lastChangedAt.isNone))
    || (m.appliedRevision.isNone && m.lastAppliedAt.isSome)
    || (m.appliedRevision.isSome && m.lastAppliedAt.isNone))

/-- `validateEnvironmentState`, of a record as stored. -/
def readEnvironment (calendar : Calendar) (record : Json) :
    Except Rejection SavedEnvironment := do
  if record.object?.isNone then
    .error (.error "invalid application environment metadata")
  else do
    let applicationId ← ofRegistry
      (normalizeApplicationId (fieldOf "applicationId" record))
    let revision ← ofRegistry
      (validateEnvironmentRevision (fieldOf "revision" record))
    let appliedRevision ← nullableField "appliedRevision" record fun value =>
      ofRegistry
        (validateEnvironmentRevision value "applied environment revision")
    Lib.Result.ensure
      (.error "applied application environment revision exceeds saved revision")
      (appliedRevision.all (decide <| · ≤ revision))
    let appliedReleaseId ← nullableField "appliedReleaseId" record fun value =>
      ofRegistry (normalizeApplicationId value)
    Lib.Result.ensure
      (.error "application environment applied metadata is incomplete")
      (appliedRevision.isNone == appliedReleaseId.isNone)
    let lastChange ← nullableField "lastChange" record readChange
    let lastChangedAt ← nullableField "lastChangedAt" record
      (validateTimestamp calendar "application environment change timestamp")
    let lastAppliedAt ← nullableField "lastAppliedAt" record
      (validateTimestamp calendar "application environment apply timestamp")
    let m : SavedEnvironment :=
      ⟨applicationId, revision, appliedRevision, appliedReleaseId,
        lastChangedAt, lastAppliedAt, lastChange⟩
    Lib.Result.ensure
      (.error "application environment timestamps do not match revision state")
      m.timestampsFit
    return m

-- ====== version 1

/-- What the loader gathers of the variables of one application. -/
structure Details where
  count : Nat
  timestamp : Option String
  deriving DecidableEq

/-- `record.updatedAt`, where it is a date. -/
def timeOf (calendar : Calendar) (record : Json) : Option (String × Int) :=
  (fieldOf "updatedAt" record).str?.bind fun text =>
    (calendar.parse text).map fun ms => (text, ms)

/-- One variable more. -/
def Details.counted (calendar : Calendar) (record : Json) (d : Details) :
    Details where
  count := d.count + 1
  timestamp :=
    match timeOf calendar record with
    | none => d.timestamp
    | some (text, ms) =>
        if d.timestamp.all fun current =>
            (calendar.parse current).any fun before => decide (before < ms) then
          some text
        else d.timestamp

/-- `INTERNAL_KEYS.has(record?.key)` -/
def isInternal (record : Json) : Bool :=
  (fieldOf "key" record).str?.any internalKeys.contains

/-- One turn of the loop over the variables. -/
def countVariable (calendar : Calendar) (byApplication : List (Uuid × Details))
    (record : Json) : Except Rejection (List (Uuid × Details)) :=
  if isInternal record then .ok byApplication
  else do
    let applicationId ← ofRegistry
      (normalizeApplicationId (fieldOf "applicationId" record))
    return upsert (fun entry => entry.1 == applicationId)
      (fun entry => (applicationId, ((entry.map Prod.snd).getD ⟨0, none⟩).counted
        calendar record)) byApplication

/-- The environment a migration makes of an application's variables. -/
def migrated (calendar : Calendar) (now : Int) (entry : Uuid × Details) :
    SavedEnvironment where
  applicationId := entry.1
  revision := 1
  appliedRevision := none
  appliedReleaseId := none
  lastChangedAt := some (entry.2.timestamp.getD (calendar.toISOString now))
  lastAppliedAt := none
  lastChange := some ⟨.migration, entry.2.count, 0, 0⟩

-- ====== the loader

/-- `state`, with the variables as the file has them. -/
structure SavedState where
  records : List Json
  environments : List SavedEnvironment

/-- What `persist` writes. -/
def SavedState.json (s : SavedState) : Json :=
  .obj [("version", .num 2), ("variables", .arr s.records),
    ("environments", .arr (s.environments.map SavedEnvironment.json))]

def unsupported : Rejection :=
  .error "unsupported or invalid application environment state"

/-- The branch of `init` for a store of version 1: what it loads, and
writes. -/
def initV1 (calendar : Calendar) (now : Int) (records : List Json) :
    Except Rejection SavedState := do
  let byApplication ← records.foldlM (countVariable calendar) []
  return {
    records
    environments := byApplication.map (migrated calendar now) }

/-- The branch for the current version. -/
def initV2 (calendar : Calendar) (records environments : List Json) :
    Except Rejection SavedState := do
  let environments ← environments.mapM (readEnvironment calendar)
  Lib.Result.ensure
    (.error "duplicate application environment metadata")
    (decide (environments.map SavedEnvironment.applicationId).Nodup)
  return { records, environments }

/-- `init`, of the file's content. -/
def initFile (calendar : Calendar) (now : Int) (parsed : Json) :
    Except Rejection SavedState :=
  match fieldOf "version" parsed, fieldOf "variables" parsed,
      fieldOf "environments" parsed with
  | .num 1, .arr records, _ => initV1 calendar now records
  | .num 2, .arr records, .arr environments =>
      initV2 calendar records environments
  | _, _, _ => .error unsupported

end Yunpanel.Environment
