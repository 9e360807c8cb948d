/-
Deleting the mail data of a mailbox or a domain that a backup holds.

The live tree is renamed to a tombstone, looked at once more, and removed.
Nothing is renamed unless the tree is, by its content, the one in the
backup; a failure after that puts the tombstone back where it still is that
tree.
-/
import Yunpanel.MailData.Disk

namespace Yunpanel.MailData.Delete

open Lib Lib.Exec

variable (dg : Digests)

-- ====== errors

def transactionInvalid : Rejection :=
  .own "mail_data_delete_transaction_invalid"
    "Mail data delete transaction id is invalid"

def snapshotInvalid : Rejection :=
  .own "mail_data_delete_snapshot_invalid"
    "Mail data delete target snapshot is invalid"

def vmailUnavailable : Rejection :=
  .own "mail_data_delete_vmail_unavailable"
    "Managed vmail identity could not be resolved safely"

def backupMismatch : Rejection :=
  .own "mail_data_delete_backup_mismatch"
    "Mail data backup does not match the delete target"

def staleAfterPreview : Rejection :=
  .own "mail_data_delete_target_stale"
    "Mail data target changed after delete preview"

def presenceStale : Rejection :=
  .own "mail_data_delete_backup_stale"
    "Mail data presence no longer matches the selected backup"

def recoveryRequired : Rejection :=
  .own "mail_data_delete_recovery_required"
    "An interrupted mail data delete requires explicit recovery"

def backupStale : Rejection :=
  .own "mail_data_delete_backup_stale"
    "Live mail data does not match the selected verified backup"

def activationFailed : Rejection :=
  .own "mail_data_delete_activation_failed"
    "Mail data target remained visible after delete activation"

def activationDrift : Rejection :=
  .own "mail_data_delete_activation_drift"
    "Mail data changed during delete activation"

def incomplete : Rejection :=
  .own "mail_data_delete_incomplete"
    "Mail data delete did not reach a clean final state"

def rollbackFailed : Rejection :=
  .own "mail_data_delete_rollback_failed"
    "Mail data delete failed and rollback could not restore the live path"

def deleteFailed : Rejection :=
  .own "mail_data_delete_failed"
    "Mail data delete failed; restore from the verified backup if recovery is required"

-- ====== answers

/-- What a deletion meets on its way, in order. -/
structure Answers where
  selected : Except Rejection (Selected dg)
  inspected : Except Rejection Inspection
  tombstoneSeen : Fate := none
  vmail : Bool := true
  /-- The tree can be read and is owned by the vmail user. -/
  before : Bool := true
  renamed : Fate := none
  targetAfterRename : Fate := none
  quarantined : Bool := true
  removed : Removal := .done
  finalTarget : Fate := none
  finalTombstone : Fate := none
  targetAtRollback : Fate := none
  tombstoneAtRollback : Fate := none
  rollbackEvidence : Bool := true
  putBack : Fate := none

variable {dg}

/-- What is known once the backup and the presence of the tree agree. -/
def checked (request : Request) (o : Answers dg) (d : Disk) :
    Except Rejection (Selected dg × Bool) := do
  let selected ← checkRequest dg transactionInvalid snapshotInvalid
    backupMismatch o.selected request
  let target ← inspectTarget o.inspected d
  if target.snapshotSha256 ≠ request.expectedTargetSnapshotSha256
      ∨ target.dataPath ≠ selected.manifest.sourcePath then
    .error staleAfterPreview
  else if target.present ≠ selected.manifest.sourcePresent then
    .error presenceStale
  else do
  let tombstone ← pathState o.tombstoneSeen .tombstone d
  if tombstone then .error recoveryRequired
  else return (selected, target.present)

/-- `matchesBackup(before, selected.manifest)`, once the vmail user is
known. -/
def matched (o : Answers dg) (selected : Selected dg) (d : Disk) :
    Except Rejection Unit :=
  if o.vmail ≠ true then .error vmailUnavailable
  else if contentTree dg o.before .target d
      ≠ some selected.manifest.content then .error backupStale
  else .ok ()

structure Deleted where
  transactionId : String
  backupId : String
  scope : Scope
  identity : String
  sourcePresent : Bool
  content : Content
  deriving DecidableEq

def deleted (request : Request) (s : Selected dg) (present : Bool) :
    Deleted where
  transactionId := request.transactionId
  backupId := s.manifest.backupId
  scope := request.scope
  identity := request.identity
  sourcePresent := present
  content := s.manifest.content

/-- `const [a, b] = await Promise.all([pathState(targetPath),
pathState(tombstone)])` -/
def bothStates (target tombstone : Fate) (d : Disk) :
    Except Rejection (Bool × Bool) := do
  let there ← pathState target .target d
  let kept ← pathState tombstone .tombstone d
  return (there, kept)

/-- The `try` of a deletion. -/
def removeTree (o : Answers dg) (s : Selected dg) : Run Unit := do
  rename o.renamed .target .tombstone
  modify (Disk.begin true)
  let targetAfterRename ← look (pathState o.targetAfterRename .target)
  if targetAfterRename then fail activationFailed else do
  let quarantined ← Exec.read (contentTree dg o.quarantined .tombstone)
  if quarantined ≠ some s.manifest.content then fail activationDrift else do
  rm o.removed false .tombstone
  modify (Disk.begin false)
  let (finalTarget, finalTombstone) ←
    look (bothStates o.finalTarget o.finalTombstone)
  if finalTarget || finalTombstone then fail incomplete else pure ()

/-- What puts the tombstone back. -/
def putBack (o : Answers dg) (s : Selected dg) : Run Unit := do
  let (target, tombstone) ←
    look (bothStates o.targetAtRollback o.tombstoneAtRollback)
  if (!target && tombstone) = true then do
    let evidence ← Exec.read (contentTree dg o.rollbackEvidence .tombstone)
    if evidence = some s.manifest.content then do
      attempt (rename o.putBack .tombstone .target)
        fun _ => fail rollbackFailed
      modify (Disk.begin false)
    else pure ()
  else pure ()

/-- The `catch` of a deletion. -/
def undo {α : Type} (o : Answers dg) (s : Selected dg) (e : Rejection) :
    Run α := do
  let renamed ← Exec.read Disk.begun
  onlyIf renamed (putBack o s)
  if e.isOwn then fail e else fail deleteFailed

def deleteNow (request : Request) (o : Answers dg) : Run Deleted := do
  let (s, present) ← look (checked request o)
  if present = true then do
    look (matched o s)
    modify (Disk.begin false)
    attempt (do
      removeTree o s
      return deleted request s true)
      (undo o s)
  else return deleted request s false

end Yunpanel.MailData.Delete
