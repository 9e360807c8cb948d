/-
The recovery record: which jobs a crash would leave unsettled.

The durable registry keeps a second file next to the job store. It names
every job whose outcome on the host may not have reached the other
registries yet, by job and server. `normalizeState` is what the loader
accepts of that file; `addJob`, `removeJob` and `replaceJobs` are the
transforms `queueMutation` persists, each before it becomes the store's
state.
-/
import Yunpanel.Js.Value

namespace Yunpanel.Jobs

-- ====== identities

/-- A job as the recovery record names it. -/
structure Identity where
  jobId : String
  serverId : String
  deriving DecidableEq, Repr

/-- `${serverId}:${jobId}`, the recovery store's `identityKey` too. -/
def Identity.key (identity : Identity) : String :=
  identity.serverId ++ ":" ++ identity.jobId

/-- `safeRecoveryJob`, of an id and a server id. -/
def safeRecoveryJob (jobId serverId : String) : Option Identity :=
  if 8 ≤ Text.length jobId ∧ Text.length jobId ≤ 128
      ∧ 1 ≤ Text.length serverId ∧ Text.length serverId ≤ 128 then
    some { jobId, serverId }
  else none

/-- `normalizeJob`: what the recovery store takes as an identity. -/
def Identity.normal (identity : Identity) : Bool :=
  Text.inClass Text.isKeyChar 8 128 identity.jobId
    && Text.inClass Text.isKeyChar 1 128 identity.serverId

/-- `uniqueRecoveryJobs`: the first of each key. -/
def uniqueRecoveryJobs : List Identity → List Identity :=
  go []
where
  go (seen : List String) : List Identity → List Identity
    | [] => []
    | job :: jobs =>
        if job.key ∈ seen then go seen jobs
        else job :: go (job.key :: seen) jobs

/-- Order of two strings by their characters. -/
def textLe : List Char → List Char → Bool
  | [], _ => true
  | _ :: _, [] => false
  | a :: as, b :: bs =>
      if a.val = b.val then textLe as bs else a.val < b.val

/-- Insert a string into a sorted list. -/
def insertText (s : String) : List String → List String
  | [] => [s]
  | t :: ts =>
      if textLe s.toList t.toList then s :: t :: ts else t :: insertText s ts

/-- `[...strings].sort()` -/
def sortTexts : List String → List String
  | [] => []
  | s :: ss => insertText s (sortTexts ss)

/-- `strings.join('\n')` -/
def joinLines : List String → String
  | [] => ""
  | [s] => s
  | s :: t :: ts => s ++ "\n" ++ joinLines (t :: ts)

/-- `recoveryIdentity`: one text for a set of identities. -/
def recoveryIdentity (jobs : List Identity) : String :=
  joinLines (sortTexts (jobs.map Identity.key))

-- ====== record

/-- The recovery file's content; a missing file reads as the empty
record. -/
structure RecoveryRecord where
  detectedAt : Option Instant
  jobs : List Identity
  deriving DecidableEq, Repr

namespace RecoveryRecord

/-- `emptyState` -/
def empty : RecoveryRecord := { detectedAt := none, jobs := [] }

def keys (r : RecoveryRecord) : List String := r.jobs.map Identity.key

/-- `normalizeState`: what `init` accepts. -/
def normal (r : RecoveryRecord) : Bool :=
  r.jobs.all Identity.normal && decide r.keys.Nodup
    && (r.jobs.isEmpty == r.detectedAt.isNone)

/-- The record `add` leaves. -/
def addJob (now : Instant) (job : Identity) (r : RecoveryRecord) :
    RecoveryRecord :=
  if job.key ∈ r.keys then r
  else
    { detectedAt := if r.jobs.isEmpty then some now else r.detectedAt
      jobs := r.jobs ++ [job] }

/-- The record `remove` leaves. -/
def removeJob (job : Identity) (r : RecoveryRecord) : RecoveryRecord :=
  let jobs := r.jobs.filter fun candidate => candidate.key ≠ job.key
  if jobs.length = r.jobs.length then r
  else { detectedAt := if jobs.isEmpty then none else r.detectedAt, jobs }

/-- The record `replace` writes. -/
def replaceJobs (now : Instant) (jobs : List Identity) : RecoveryRecord :=
  { detectedAt := if jobs.isEmpty then none else some now, jobs }

end RecoveryRecord

end Yunpanel.Jobs
