/-
Cron tasks of websites: the registry and the file a task becomes.

A task belongs to a hosted website and runs as the website's Unix user. Its
schedule, its command and its name are kept as their checks leave them, and
every change of a task adds one to its revision.
-/
import Yunpanel.Js.Collation
import Yunpanel.Lib.Table
import Yunpanel.Databases.Binding
import Yunpanel.Jobs.Job

namespace Yunpanel.Cron

open Json Lib.Result
open Databases (SiteUser isSiteUser)

-- ====== failures

/-- An error of the registry or of the service over it, a write that
failed, or an error of the job registry. -/
inductive Failure where
  | refused (code message : String) (status : Nat)
  | store
  | job (e : Jobs.Failure)
  deriving DecidableEq

def refuse (code message : String) (status : Nat := 400) : Failure :=
  .refused code message status

def stateInvalid (message : String) : Failure :=
  refuse "cron_state_invalid" message 409

-- ====== schedules

/-- `FIELD_RANGES` -/
def fieldRanges : List (Nat × Nat) :=
  [(0, 59), (0, 23), (1, 31), (1, 12), (0, 7)]

/-- `/^\d{1,2}$/u` -/
def isNumber (cs : List Char) : Bool :=
  (cs.length == 1 || cs.length == 2) && cs.all Text.isDigit

/-- `Number.parseInt(value, 10)` -/
def parseDigits (cs : List Char) : Nat := Nat.ofDigitChars 10 cs 0

def boundedNumber (cs : List Char) (range : Nat × Nat) : Option Nat :=
  if isNumber cs && range.1 ≤ parseDigits cs && parseDigits cs ≤ range.2
  then some (parseDigits cs)
  else none

/-- The part of an atom before its step. -/
def cronBase (base : List Char) (stepped : Bool) (range : Nat × Nat) :
    Bool :=
  if base = ['*'] then true
  else if base.contains '-' then
    match base.splitOn '-' with
    | [left, right] =>
        match boundedNumber left range, boundedNumber right range with
        | some left, some right => left ≤ right
        | _, _ => false
    | _ => false
  else !stepped && (boundedNumber base range).isSome

def cronAtom (atom : List Char) (range : Nat × Nat) : Bool :=
  match atom.splitOn '/' with
  | [base] => base != [] && cronBase base false range
  | [base, step] =>
      base != [] && isNumber step && 1 ≤ parseDigits step
        && parseDigits step ≤ range.2 - range.1 + 1
        && cronBase base true range
  | _ => false

def cronField (field : List Char) (range : Nat × Nat) : Bool :=
  1 ≤ field.length && field.length ≤ 64
    && (field.splitOn ',').length ≤ 32
    && (field.splitOn ',').all fun atom => cronAtom atom range

/-- `value.trim().split(/\s+/u)` of a text that is not blank; a blank one
has too few fields either way. -/
def words (cs : List Char) : List (List Char) :=
  (cs.splitOnP Text.isSpace).filter (· ≠ [])

def normalizeCronSchedule (value : Json) : Except Failure String := do
  let s ← demand (refuse "cron_schedule_invalid"
      "schedule must be a five-field cron expression")
    (value.str?.filter fun s => Text.length s ≤ 320
      && !s.toList.any fun c => c == '\r' || c == '\n' || c.toNat == 0)
  let fields := words s.toList
  ensure (refuse "cron_schedule_invalid"
      "schedule must be a valid numeric five-field cron expression")
    (fields.length == fieldRanges.length
      && (fields.zip fieldRanges).all fun field => cronField field.1 field.2)
  return String.ofList ([' '].intercalate fields)

-- ====== texts

/-- A trimmed text of some length without control characters. -/
def printableText (maxLength : Nat) (s : String) : Option String :=
  let text := String.ofList (Text.trim s.toList)
  if 1 ≤ Text.length text && Text.length text ≤ maxLength
      && !text.toList.any Text.isControl then some text
  else none

def normalizeCronCommand (value : Json) : Except Failure String := do
  let s ← demand (refuse "cron_command_invalid" "command must be a string")
    value.str?
  demand (refuse "cron_command_invalid"
      "command must be a printable string up to 4096 characters")
    (printableText 4096 s)

/-- `printable(value, 'name', 80)` -/
def taskName (value : Json) : Except Failure String := do
  let s ← demand (refuse "cron_name_invalid" "name must be a string")
    value.str?
  demand (refuse "cron_name_invalid"
      "name must be a printable string up to 80 characters")
    (printableText 80 s)

/-- A check leaves the text as it is. -/
def isCanonical (normalize : Json → Except Failure String) (s : String) :
    Bool :=
  match normalize (.str s) with
  | .ok t => t == s
  | .error _ => false

abbrev TaskName := Matching (isCanonical taskName)

abbrev Schedule := Matching (isCanonical normalizeCronSchedule)

abbrev Command := Matching (isCanonical normalizeCronCommand)

-- ====== records

abbrev Revision := Ranged 1 9007199254740991

structure Task where
  id : Uuid
  websiteId : Uuid
  serverId : Uuid
  applicationId : Uuid
  unixUser : SiteUser
  name : TaskName
  schedule : Schedule
  command : Command
  enabled : Bool
  revision : Revision
  createdAt : Instant
  updatedAt : Instant
  deriving DecidableEq

/-- A record that is still to be checked. -/
structure Draft where
  id : Uuid
  websiteId : Uuid
  serverId : Uuid
  applicationId : Uuid
  unixUser : SiteUser
  name : String
  schedule : String
  command : String
  enabled : Bool
  revision : Int
  createdAt : Instant
  updatedAt : Instant

def normalizePersisted (draft : Draft) : Except Failure Task := do
  let invalid := stateInvalid "Persisted cron task state is invalid"
  let changed := stateInvalid "Persisted cron task state is not canonical"
  let revision ← demand invalid (Ranged.read? (.num draft.revision))
  let _ ← (taskName (.str draft.name)).mapError fun _ => invalid
  let _ ← (normalizeCronSchedule (.str draft.schedule)).mapError
    fun _ => invalid
  let _ ← (normalizeCronCommand (.str draft.command)).mapError
    fun _ => invalid
  let name ← demand changed (Matching.ofText? draft.name)
  let schedule ← demand changed (Matching.ofText? draft.schedule)
  let command ← demand changed (Matching.ofText? draft.command)
  return {
    id := draft.id
    websiteId := draft.websiteId
    serverId := draft.serverId
    applicationId := draft.applicationId
    unixUser := draft.unixUser
    name, schedule, command
    enabled := draft.enabled
    revision
    createdAt := draft.createdAt
    updatedAt := draft.updatedAt }

-- ====== websites

/-- What a task needs of its website. -/
structure Site where
  id : Uuid
  serverId : Uuid
  applicationId : Option Uuid
  runtimeType : String
  unixUser : Option String

/-- What a look-up of a website finds. -/
inductive Lookup where
  | unavailable
  | found (site : Option Site)

structure SiteBinding where
  websiteId : Uuid
  serverId : Uuid
  applicationId : Uuid
  unixUser : SiteUser
  deriving DecidableEq

def Task.binding (task : Task) : SiteBinding where
  websiteId := task.websiteId
  serverId := task.serverId
  applicationId := task.applicationId
  unixUser := task.unixUser

/-- `HOSTED_RUNTIME_TYPES` -/
def hostedRuntimeTypes : List String := ["static", "node", "php", "python"]

def websiteBinding (site : Site) (websiteId : Uuid) :
    Except Failure SiteBinding := do
  let unsupported := refuse "cron_website_unsupported"
    "Cron tasks require a hosted Website with a managed site Unix identity"
    409
  ensure unsupported
    (site.id == websiteId && hostedRuntimeTypes.contains site.runtimeType)
  let applicationId ← demand unsupported site.applicationId
  let unixUser ← demand unsupported (site.unixUser.bind Matching.ofText?)
  return ⟨site.id, site.serverId, applicationId, unixUser⟩

def currentBinding (websiteId : Uuid) : Lookup → Except Failure SiteBinding
  | .unavailable => .error (refuse "cron_website_unavailable"
      "Website could not be verified" 503)
  | .found none => .error (refuse "cron_website_not_found"
      "Website was not found" 404)
  | .found (some site) => websiteBinding site websiteId

-- ====== registry

/-- What a call finds around it: the website as the service and as the
registry look it up, the clock, a fresh identifier, whether the store takes
the write; and the same for the job registry. -/
structure Env where
  hosted : Lookup
  bound : Lookup
  now : Option Instant
  randomId : Uuid
  stored : Bool
  jobId : Uuid
  jobNow : Instant
  jobStored : Bool

def uuid (field code : String) (value : Json) : Except Failure Uuid :=
  demand (refuse code (field ++ " is invalid")) (Uuid.read? value)

def cronTaskId : Json → Except Failure Uuid :=
  uuid "cronTaskId" "invalid_cron_task_id"

def nowIso (env : Env) : Except Failure Instant :=
  demand (refuse "cron_clock_invalid"
    "Cron task registry clock is invalid" 503) env.now

/-- `positiveInteger(expectedRevision)` -/
def positiveInteger (value : Json) : Except Failure Revision :=
  demand (refuse "cron_revision_invalid"
    "expectedRevision must be a positive integer") (Ranged.read? value)

/-- `typeof enabled !== 'boolean'` -/
def enabledFlag (value : Json) : Except Failure Bool :=
  demand (refuse "cron_enabled_invalid" "enabled must be a boolean")
    value.bool?

/-- `MAX_TASKS_PER_WEBSITE` -/
def maxTasksPerWebsite : Nat := 100

/-- `next.tasks.sort(…)` by identifier. -/
def sortTasks (tasks : List Task) : List Task :=
  tasks.insertionSort fun a b =>
    Text.localeCompare a.id.text b.id.text ≠ .gt

structure CreateInput where
  websiteId : Json
  name : Json
  schedule : Json
  command : Json
  enabled : Option Json

/-- `createTask(input)`: the task and the state that is to be stored. -/
def createTask (env : Env) (input : CreateInput) (tasks : List Task) :
    Except Failure (Task × List Task) := do
  let enabled ← enabledFlag (input.enabled.getD (.bool true))
  let websiteId ← uuid "websiteId" "invalid_website_id" input.websiteId
  let binding ← currentBinding websiteId env.bound
  let name ← taskName input.name
  let schedule ← normalizeCronSchedule input.schedule
  let command ← normalizeCronCommand input.command
  ensure (refuse "cron_task_limit_exceeded"
      "A Website may have at most 100 cron tasks" 409)
    ((tasks.filter fun task => task.websiteId == binding.websiteId).length
      < maxTasksPerWebsite)
  let now ← nowIso env
  let task ← normalizePersisted {
    id := env.randomId
    websiteId := binding.websiteId
    serverId := binding.serverId
    applicationId := binding.applicationId
    unixUser := binding.unixUser
    name, schedule, command, enabled
    revision := 1
    createdAt := now
    updatedAt := now }
  ensure (refuse "cron_identity_conflict"
      "Cron task identity already exists" 409)
    (!tasks.any fun other => other.id == task.id)
  return (task, sortTasks (tasks ++ [task]))

structure UpdateInput where
  expectedRevision : Json
  name : Option Json
  schedule : Option Json
  command : Option Json
  enabled : Option Json

def UpdateInput.isEmpty (input : UpdateInput) : Bool :=
  input.name.isNone && input.schedule.isNone && input.command.isNone
    && input.enabled.isNone

def taskNotFound : Failure :=
  refuse "cron_task_not_found" "Cron task was not found" 404

/-- The task a mutation is about, and that nothing changed since. -/
def currentTask (env : Env) (id : Uuid) (expected : Revision)
    (tasks : List Task) : Except Failure (Nat × Task) := do
  let (i, current) ← demand taskNotFound
    (Lib.locate (fun task => task.id == id) tasks)
  ensure (refuse "cron_revision_conflict"
    "Cron task changed after it was read" 409) (current.revision == expected)
  let binding ← currentBinding current.websiteId env.bound
  ensure (refuse "cron_website_binding_drift"
      "Website execution identity changed after the cron task was created"
      409)
    (current.binding == binding)
  return (i, current)

/-- A field that is updated, or stays. -/
def updatedText (normalize : Json → Except Failure String)
    (sent : Option Json) (current : String) : Except Failure String :=
  match sent with
  | none => .ok current
  | some value => normalize value

/-- `updateTask(taskId, input)`: the task and the state that is to be
stored. -/
def updateTask (env : Env) (taskId : Json) (input : UpdateInput)
    (tasks : List Task) : Except Failure (Task × List Task) := do
  let id ← cronTaskId taskId
  let expected ← positiveInteger input.expectedRevision
  let enabled ← (input.enabled.map enabledFlag).elim (.ok none)
    (fun flag => flag.map some)
  ensure (refuse "cron_update_empty"
    "At least one cron task change is required") (!input.isEmpty)
  let (i, current) ← currentTask env id expected tasks
  let name ← updatedText taskName input.name current.name.text
  let schedule ← updatedText normalizeCronSchedule input.schedule
    current.schedule.text
  let command ← updatedText normalizeCronCommand input.command
    current.command.text
  let now ← nowIso env
  let updated ← normalizePersisted {
    id := current.id
    websiteId := current.websiteId
    serverId := current.serverId
    applicationId := current.applicationId
    unixUser := current.unixUser
    name, schedule, command
    enabled := enabled.getD current.enabled
    revision := current.revision.val + 1
    createdAt := current.createdAt
    updatedAt := now }
  return (updated, tasks.set i updated)

/-- `deleteTask(taskId, { expectedRevision })` -/
def deleteTask (env : Env) (taskId expectedRevision : Json)
    (tasks : List Task) : Except Failure (List Task) := do
  let id ← cronTaskId taskId
  let expected ← positiveInteger expectedRevision
  let (i, _) ← currentTask env id expected tasks
  return tasks.eraseIdx i

/-- `getTask(taskId)` -/
def getTask (taskId : Json) (tasks : List Task) :
    Except Failure (Option Task) := do
  let id ← cronTaskId taskId
  return tasks.find? fun task => task.id == id

-- ====== the file

/-- `escapeCronPercent(value)`, after an even number of backslashes or an
odd one. -/
def escapeCronPercent : Bool → List Char → List Char
  | _, [] => []
  | odd, c :: cs =>
      if c = '\\' then c :: escapeCronPercent (!odd) cs
      else if c = '%' && !odd then '\\' :: c :: escapeCronPercent false cs
      else c :: escapeCronPercent false cs

/-- `renderCronTaskFile` of a task, whose texts its checks leave alone. -/
def renderCronTaskFile (task : Task) : String :=
  let taskLine := task.schedule.text ++ " " ++ task.unixUser.text ++ " "
    ++ String.ofList (escapeCronPercent false task.command.text.toList)
  "\n".intercalate [
    "# Managed by YunPanel. Manual edits are overwritten.",
    "SHELL=/bin/sh",
    "PATH=/usr/local/bin:/usr/bin:/bin",
    "MAILTO=\"\"",
    if task.enabled then taskLine else "# disabled: " ++ taskLine,
    ""]

/-- `cronUser(value)` -/
def cronUser (value : Json) : Except Failure String :=
  demand (refuse "cron_user_invalid"
      "Cron user must be a managed Website Unix identity")
    (value.str?.filter isSiteUser)

/-- What `renderCronTaskFile` is called with, by whoever calls it. -/
structure RenderInput where
  taskId : Json
  user : Json
  schedule : Json
  command : Json
  enabled : Option Json

/-- The lines of a task's file. -/
def fileLines (account schedule command : String) (enabled : Bool) :
    List String :=
  let taskLine := schedule ++ " " ++ account ++ " "
    ++ String.ofList (escapeCronPercent false command.toList)
  ["# Managed by YunPanel. Manual edits are overwritten.",
    "SHELL=/bin/sh",
    "PATH=/usr/local/bin:/usr/bin:/bin",
    "MAILTO=\"\"",
    if enabled then taskLine else "# disabled: " ++ taskLine]

/-- `renderCronTaskFile(input)` -/
def renderCronTask (input : RenderInput) : Except Failure String := do
  let _ ← demand (refuse "invalid_uuid" "cronTaskId must be a UUID")
    (Uuid.read? input.taskId)
  let account ← cronUser input.user
  let schedule ← normalizeCronSchedule input.schedule
  let command ← normalizeCronCommand input.command
  let enabled ← enabledFlag (input.enabled.getD (.bool true))
  return "\n".intercalate
    (fileLines account schedule command enabled ++ [""])

end Yunpanel.Cron
