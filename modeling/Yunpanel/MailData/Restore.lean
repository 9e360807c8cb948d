/-
Restoring the mail data of a mailbox or a domain from a backup.

The backup is copied to a hidden stage beside the live tree, the live tree
is put aside under another hidden name, the stage takes its place, and what
was put aside is removed. All of this, the removal included, is in one
`try`: whatever fails is answered by `undo`. What was looked up before
(`checked`) has changed nothing; the managed parents are made after it.
-/
import Yunpanel.MailData.Disk

namespace Yunpanel.MailData.Restore

open Lib Lib.Exec

variable (dg : Digests)

-- ====== errors

def transactionInvalid : Rejection :=
  .own "mail_data_restore_transaction_invalid"
    "Mail data restore transaction id is invalid"

def snapshotInvalid : Rejection :=
  .own "mail_data_restore_snapshot_invalid"
    "Mail data restore target snapshot is invalid"

def vmailUnavailable : Rejection :=
  .own "mail_data_restore_vmail_unavailable"
    "Managed vmail identity could not be resolved safely"

def parentUnavailable : Rejection :=
  .own "mail_data_restore_parent_unsafe"
    "Mail data restore parent is unavailable or unsafe"

def parentUnsafe : Rejection :=
  .own "mail_data_restore_parent_unsafe"
    "Mail data restore parent ownership or mode is unsafe"

def copyFailed : Rejection :=
  .own "mail_data_restore_copy_failed"
    "Mail data backup could not be materialized safely"

def refused : Refusal → Rejection
  | .symlink =>
      .own "mail_data_restore_backup_unsafe"
        "Mail data backup contains a symbolic link"
  | .unsupported =>
      .own "mail_data_restore_backup_unsafe"
        "Mail data backup contains an unsupported file type"
  | .tooLarge =>
      .own "mail_data_restore_too_large"
        "Mail data restore exceeds the supported size"

def backupMismatch : Rejection :=
  .own "mail_data_restore_backup_mismatch"
    "Mail data backup does not match the requested restore target"

def backupEmpty : Rejection :=
  .own "mail_data_restore_backup_empty"
    "Mail data backup does not contain restorable data"

def staleAfterPreview : Rejection :=
  .own "mail_data_restore_target_stale"
    "Mail data target changed after restore preview"

def recoveryRequired : Rejection :=
  .own "mail_data_restore_recovery_required"
    "An interrupted mail data restore requires explicit recovery"

def targetChanged : Rejection :=
  .own "mail_data_restore_target_changed"
    "Mail data changed after the pre-restore backup was created"

def stageMismatch : Rejection :=
  .own "mail_data_restore_stage_mismatch"
    "Staged mail data does not match the selected backup"

def staleBeforeActivation : Rejection :=
  .own "mail_data_restore_target_stale"
    "Mail data target changed before restore activation"

def verificationFailed : Rejection :=
  .own "mail_data_restore_verification_failed"
    "Restored mail data did not pass verification"

def rollbackFailedCode : String := "mail_data_restore_rollback_failed"

def restoredNotRemoved : Rejection :=
  .own rollbackFailedCode
    "Restored mail data could not be removed during rollback"

def previousNotRestored : Rejection :=
  .own rollbackFailedCode
    "Previous mail data could not be restored after failure"

def cleanupFailedCode : String := "mail_data_restore_cleanup_failed"

def cleanupFailed : Rejection :=
  .own cleanupFailedCode "Empty restore parent could not be cleaned up"

def restoreFailed : Rejection :=
  .own "mail_data_restore_failed"
    "Mail data restore failed and the previous state was restored"

-- ====== answers

/-- A look at the live tree: `lstat`, and whether its entries can be
read. -/
structure Look where
  seen : Fate := none
  reads : Bool := true

structure ParentAnswers where
  seen : Fate := none
  made : Fate := none
  chown : Fate := none
  chmod : Fate := none
  seenAgain : Fate := none
  /-- It is there, a directory and no link. -/
  isDirectory : Bool := true
  /-- It has the mode and the owner of a managed directory. -/
  managed : Bool := true

inductive Rmdir where
  | removed
  | missing
  | notEmpty
  | failed

/-- How the copy of a file goes: where it fails, what there is of the file
by then. -/
inductive Copy where
  | copied
  | failed (left : Option (List UInt8))

/-- What a restore meets on its way, in order. -/
structure Answers where
  selected : Except Rejection (Selected dg)
  inspected : Except Rejection Inspection
  vmail : Bool := true
  /-- The content of the backup made before the restore. -/
  preRestore : Except Rejection Content
  previousSeen : Fate := none
  before : Look := {}
  rootParentSeen : Fate := none
  rootParentIsDirectory : Bool := true
  parents : Parent → ParentAnswers := fun _ => {}
  stageSeen : Fate := none
  stageCleared : Removal := .done
  stageMade : String → Fate := fun _ => none
  stageOwned : String → Fate := fun _ => none
  stageCopied : String → Copy := fun _ => .copied
  inspectedAgain : Except Rejection Inspection
  beforeActivation : Look := {}
  setAside : Fate := none
  activated : Fate := none
  /-- The live tree can be read and is owned by the vmail user. -/
  verified : Bool := true
  previousRemoved : Removal := .done
  stageDropped : Removal := .done
  targetDropped : Removal := .done
  putBack : Fate := none
  rmdir : Parent → Rmdir := fun _ => .removed

-- ====== what is checked

/-- What is known before anything is changed. -/
structure Checked where
  selected : Selected dg
  present : Bool
  preRestore : Content

/-- `preStateMatches(targetPath, targetPreviouslyPresent, preRestore)` -/
def preStateMatches (l : Look) (present : Bool) (preRestore : Content)
    (d : Disk) : Except Rejection Bool := do
  let there ← pathState l.seen .target d
  if there != present then return false
  else if !present then return true
  else return contentTree dg l.reads .target d == some preRestore

variable {dg}

def checked (request : Request) (o : Answers dg) (d : Disk) :
    Except Rejection (Checked dg) := do
  let selected ← checkRequest dg transactionInvalid snapshotInvalid
    backupMismatch o.selected request
  if selected.manifest.sourcePresent ≠ true then .error backupEmpty else do
  let target ← inspectTarget o.inspected d
  if target.snapshotSha256 ≠ request.expectedTargetSnapshotSha256
      ∨ target.dataPath ≠ selected.manifest.sourcePath then
    .error staleAfterPreview
  else if o.vmail ≠ true then .error vmailUnavailable else do
  let preRestore ← o.preRestore
  let previous ← pathState o.previousSeen .previous d
  if previous then .error recoveryRequired else do
  let same ← preStateMatches dg o.before target.present preRestore d
  if same then return ⟨selected, target.present, preRestore⟩
  else .error targetChanged

-- ====== parents

/-- The managed directories above the tree of a scope. -/
def required : Scope → List Parent
  | .domain => [.root]
  | .mailbox => [.root, .domain]

/-- `assertDirectory(targetPath)` -/
def assertDirectory (seen : Fate) (isDirectory : Bool) :
    Except Rejection Unit := do
  seen.check
  if isDirectory then return () else .error parentUnavailable

/-- A managed directory is made where it is missing. -/
def makeManaged (a : ParentAnswers) (p : Parent) (created : List Parent) :
    Run (List Parent) := do
  let present ← look fun d => a.seen.check.map fun _ => d.parent p
  if present then pure created else do
    ofExcept a.made.check
    modify (Disk.make p true)
    ofExcept a.chown.check
    ofExcept a.chmod.check
    return created ++ [p]

/-- `ensureManagedParent`, from one of the directories on; the directories
it makes. -/
def ensureManaged (o : Answers dg) : List Parent → List Parent →
    Run (List Parent)
  | [], created => pure created
  | p :: ps, created => do
      let a := o.parents p
      let created ← makeManaged a p created
      ofExcept (assertDirectory a.seenAgain a.isDirectory)
      if a.managed ≠ true then fail parentUnsafe
      else ensureManaged o ps created

def ensureManagedParent (o : Answers dg) (scope : Scope) :
    Run (List Parent) := do
  ofExcept (assertDirectory o.rootParentSeen o.rootParentIsDirectory)
  ensureManaged o (required scope) []

-- ====== stage

/-- An entry comes to be in the stage; the first one is its root. -/
def addToStage (e : Entry) (d : Disk) : Disk :=
  d.put .stage (some (match d.tree .stage with
    | none => ⟨[]⟩
    | some t => ⟨t.below ++ [e]⟩))

/-- What there is of a file whose copy failed. -/
def leaveFile (e : Entry) : Option (List UInt8) → Run Unit
  | some content => modify (addToStage { e with node := .file content })
  | none => pure ()

/-- `copyBackupFile(sourcePath, destinationPath, vmail)` -/
def copyBackupFile (o : Answers dg) (e : Entry) : Run Unit :=
  match o.stageCopied e.relative with
  | .copied => modify (addToStage e)
  | .failed left => do
      leaveFile e left
      fail copyFailed

def makeEntry (o : Answers dg) (e : Entry) : Run Unit :=
  match e.node with
  | .directory => do
      ofExcept (o.stageMade e.relative).check
      modify (addToStage e)
      ofExcept (o.stageOwned e.relative).check
  | .file _ => copyBackupFile o e
  | .symlink => pure ()
  | .special => pure ()

/-- What `visit` does for one entry of the backup: a link or a special
file is refused. -/
def visit (o : Answers dg) (p : Progress) (e : Entry) : Run Progress := do
  makeEntry o e
  ofExcept ((p.add dg e).mapError refused)

/-- `materializeTree(sourceRoot, stagePath, vmail)` -/
def materializeTree (o : Answers dg) (source : Tree) : Run Content := do
  let progress ← source.entries.foldlM (visit o) {}
  return progress.content dg

-- ====== swap

/-- The live tree is what it was when the restore began. -/
def unchanged (request : Request) (o : Answers dg) (c : Checked dg)
    (live : Target) (d : Disk) : Except Rejection Bool :=
  if live.snapshotSha256 ≠ request.expectedTargetSnapshotSha256
      ∨ live.present ≠ c.present then .ok false
  else preStateMatches dg o.beforeActivation c.present c.preRestore d

/-- Everything up to the stage standing in the place of the live tree. -/
def activate (request : Request) (o : Answers dg) (c : Checked dg) :
    Run Unit := do
  let staged ← materializeTree o c.selected.data
  if staged ≠ c.selected.manifest.content then fail stageMismatch else do
  let live ← look (inspectTarget o.inspectedAgain)
  let same ← look (unchanged request o c live)
  if same ≠ true then fail staleBeforeActivation else do
  onlyIf c.present (do
    rename o.setAside .target .previous
    modify (Disk.begin true))
  rename o.activated .stage .target
  modify (Disk.begin true)
  let verified ← Exec.read (contentTree dg o.verified .target)
  if verified ≠ some c.selected.manifest.content then
    fail verificationFailed
  else pure ()

/-- `rollbackSwap(targetPath, previousPath, targetPreviouslyPresent)` -/
def rollbackSwap (o : Answers dg) (present : Bool) : Run Unit := do
  attempt (rm o.targetDropped true .target) fun _ => fail restoredNotRemoved
  onlyIf present
    (attempt (rename o.putBack .previous .target) fun _ =>
      fail previousNotRestored)

def removeDirectory (o : Answers dg) (p : Parent) : Run Unit :=
  match o.rmdir p with
  | .removed => modify (Disk.make p false)
  | .missing => pure ()
  | .notEmpty => pure ()
  | .failed => fail cleanupFailed

def cleanupCreatedParents (o : Answers dg) (created : List Parent) :
    Run Unit :=
  forEach (removeDirectory o) created.reverse

/-- The `catch` of a restore. -/
def undo {α : Type} (o : Answers dg) (present : Bool)
    (created : List Parent) (e : Rejection) : Run α := do
  let _ ← caught (rm o.stageDropped true .stage)
  let mutationStarted ← Exec.read Disk.begun
  onlyIf mutationStarted (rollbackSwap o present)
  attempt (cleanupCreatedParents o created) fun cleanupError =>
    if e.isOwn then fail cleanupError else pure ()
  if e.isOwn then fail e else fail restoreFailed

structure Restored where
  transactionId : String
  backupId : String
  preRestoreBackupId : String
  scope : Scope
  identity : String
  content : Content
  deriving DecidableEq

/-- The result also says version 1, that the tree is there, and that it was
applied with side effects. -/
def restored (request : Request) (c : Checked dg) : Restored where
  transactionId := request.transactionId
  backupId := c.selected.manifest.backupId
  preRestoreBackupId := "pre-restore:" ++ request.transactionId
  scope := request.scope
  identity := request.identity
  content := c.selected.manifest.content

/-- The parents, and a place for the stage. -/
def prepare (o : Answers dg) (scope : Scope) : Run (List Parent) := do
  let created ← ensureManagedParent o scope
  let stage ← look (pathState o.stageSeen .stage)
  onlyIf stage (rm o.stageCleared true .stage)
  modify (Disk.begin false)
  return created

def restoreNow (request : Request) (o : Answers dg) : Run Restored := do
  let c ← look (checked request o)
  let created ← prepare o c.selected.manifest.scope
  attempt (do
    activate request o c
    onlyIf c.present (rm o.previousRemoved true .previous)
    return restored request c)
    (undo o c.present created)

end Yunpanel.MailData.Restore
