/-
Mail trees on the disk, and what the managers of mail data do to them.

# Trees

A tree is a directory and the entries below it, in the order in which the
managers walk through them: a directory before what is in it, and that by
name. Walking through a tree adds up its files, directories and bytes and
feeds one line for each entry to a hash (`Progress`); what comes of it is
the tree's `Content`.

# The disk

There are four places of interest for one call: the tree that is live, and
the hidden directories beside it. Every operation on them answers from
outside (`Fate`, `Removal`): it may fail, and a removal that fails may have
taken some of the entries already.
-/
import Yunpanel.Js.Text
import Yunpanel.Lib.Exec

namespace Yunpanel.MailData

open Lib Lib.Exec

-- ====== trees

inductive Node where
  | directory
  | file (content : List UInt8)
  | symlink
  | special
  deriving DecidableEq

/-- An entry, by its path from the root of the tree. -/
structure Entry where
  relative : String
  node : Node
  deriving DecidableEq

structure Tree where
  below : List Entry
  deriving DecidableEq

/-- The root, which is a directory, and what is below. -/
def Tree.entries (t : Tree) : List Entry := ⟨"", .directory⟩ :: t.below

/-- What is fed to the hash: `['d', relative]` or
`['f', relative, bytes, sha256]`. -/
inductive Line where
  | d (relative : String)
  | f (relative : String) (bytes : Nat) (sha256 : String)
  deriving DecidableEq

structure Digests where
  sha256 : List UInt8 → String
  tree : List Line → String

structure Progress where
  lines : List Line := []
  files : Nat := 0
  directories : Nat := 0
  bytes : Nat := 0
  deriving DecidableEq

structure Content where
  contentSha256 : String
  files : Nat
  directories : Nat
  bytes : Nat
  deriving DecidableEq

/-- Why an entry is not counted. -/
inductive Refusal where
  | symlink
  | unsupported
  | tooLarge
  deriving DecidableEq

/-- `visit`, but for what it does to the disk. -/
def Progress.add (dg : Digests) (p : Progress) (e : Entry) :
    Except Refusal Progress :=
  match e.node with
  | .directory =>
      .ok { p with
        directories :=
          if e.relative = "" then p.directories else p.directories + 1
        lines := p.lines ++ [.d e.relative] }
  | .file content =>
      let bytes := p.bytes + content.length
      if bytes ≤ 9007199254740991 then
        .ok { p with
          files := p.files + 1
          bytes
          lines := p.lines ++ [.f e.relative content.length (dg.sha256 content)] }
      else .error .tooLarge
  | .symlink => .error .symlink
  | .special => .error .unsupported

def Progress.content (dg : Digests) (p : Progress) : Content :=
  ⟨dg.tree p.lines, p.files, p.directories, p.bytes⟩

/-- What walking through a tree comes to. -/
def Tree.content (dg : Digests) (t : Tree) : Except Refusal Content :=
  (t.entries.foldlM (Progress.add dg) {}).map (Progress.content dg)

-- ====== errors

/-- What a call rejects with: an error of the manager's own class, or any
other. -/
inductive Rejection where
  | own (code message : String)
  | other (message : String)
  deriving DecidableEq

/-- `error instanceof MailDataRestoreError`, or `MailDataDeleteError` -/
def Rejection.isOwn : Rejection → Bool
  | .own _ _ => true
  | .other _ => false

def Rejection.code : Rejection → Option String
  | .own code _ => some code
  | .other _ => none

-- ====== disk

inductive Place where
  | target
  | stage
  | previous
  | tombstone
  deriving DecidableEq

/-- The directories above the live tree: that of all mail, and that of a
domain. -/
inductive Parent where
  | root
  | domain
  deriving DecidableEq

structure Disk where
  tree : Place → Option Tree
  parent : Parent → Bool
  /-- The variable of the call that runs: `mutationStarted` of a restore,
  `renamed` of a deletion. -/
  begun : Bool

namespace Disk

def put (p : Place) (t : Option Tree) (d : Disk) : Disk :=
  { d with tree := Function.update d.tree p t }

def make (p : Parent) (here : Bool) (d : Disk) : Disk :=
  { d with parent := Function.update d.parent p here }

def begin (begun : Bool) (d : Disk) : Disk := { d with begun }

@[simp] theorem put_tree (p q : Place) (t : Option Tree) (d : Disk) :
    (d.put p t).tree q = if q = p then t else d.tree q :=
  Function.update_apply ..

@[simp] theorem put_begun (p : Place) (t : Option Tree) (d : Disk) :
    (d.put p t).begun = d.begun := rfl

@[simp] theorem make_tree (p : Parent) (here : Bool) (d : Disk) :
    (d.make p here).tree = d.tree := rfl

@[simp] theorem make_begun (p : Parent) (here : Bool) (d : Disk) :
    (d.make p here).begun = d.begun := rfl

@[simp] theorem begin_tree (b : Bool) (d : Disk) :
    (d.begin b).tree = d.tree := rfl

@[simp] theorem begin_begun (b : Bool) (d : Disk) :
    (d.begin b).begun = b := rfl

end Disk

abbrev Run (α : Type) := Exec Disk Rejection α

-- ====== operations

/-- How an operation went: the message of its failure. -/
abbrev Fate := Option String

def Fate.check : Fate → Except Rejection Unit
  | none => .ok ()
  | some message => .error (.other message)

/-- `pathState(targetPath).present` -/
def pathState (f : Fate) (p : Place) (d : Disk) : Except Rejection Bool := do
  f.check
  return (d.tree p).isSome

/-- `contentTree`, `verifyLiveTree`: none where an entry cannot be read, is
not owned as asked for, or is no part of a mail tree. -/
def contentTree (dg : Digests) (reads : Bool) (p : Place) (d : Disk) :
    Option Content :=
  if reads then (d.tree p).bind fun t => (t.content dg).toOption else none

/-- What a recursive removal comes to: it may stop half-way, with some of
the entries still there, or fail when nothing is left. -/
inductive Removal where
  | done
  | stopped (stays : Entry → Bool) (message : String)
  | gone (message : String)

namespace Removal

def left : Removal → Tree → Option Tree
  | .done, _ => none
  | .stopped stays _, t => some ⟨t.below.filter stays⟩
  | .gone _, _ => none

def fate : Removal → Fate
  | .done => none
  | .stopped _ message => some message
  | .gone message => some message

end Removal

/-- `rm(path, { recursive: true, force })` -/
def rm (r : Removal) (force : Bool) (p : Place) : Run Unit := do
  match ← Exec.read fun d => d.tree p with
  | some t =>
      modify (Disk.put p (r.left t))
      Exec.ofExcept r.fate.check
  | none =>
      if force then Exec.ofExcept r.fate.check
      else fail (.other "ENOENT: no such file or directory")

/-- `rename(from, to)`: a directory takes the place of an empty one
only. -/
def rename (f : Fate) (source destination : Place) : Run Unit := do
  Exec.ofExcept f.check
  let moved ← Exec.read fun d => d.tree source
  let there ← Exec.read fun d => d.tree destination
  match moved with
  | none => fail (.other "ENOENT: no such file or directory")
  | some t =>
      if (there.any fun u => !u.below.isEmpty) = true then
        fail (.other "ENOTEMPTY: directory not empty")
      else
        modify fun d => (d.put source none).put destination (some t)

-- ====== backups

inductive Scope where
  | mailbox
  | domain
  deriving DecidableEq

structure Manifest where
  backupId : String
  scope : Scope
  identity : String
  sourcePath : String
  sourcePresent : Bool
  content : Content
  deriving DecidableEq

/-- A backup that has been verified: its data are what the manifest
says. -/
structure Selected (dg : Digests) where
  manifest : Manifest
  data : Tree
  verified : data.content dg = .ok manifest.content

/-- What an inspection tells besides whether the tree is there. -/
structure Inspection where
  snapshotSha256 : String
  dataPath : String
  deriving DecidableEq

structure Target extends Inspection where
  present : Bool

/-- `inspectTarget(scope, identity)` -/
def inspectTarget (r : Except Rejection Inspection) (d : Disk) :
    Except Rejection Target := do
  let inspection ← r
  return { inspection with present := (d.tree .target).isSome }

structure Request where
  transactionId : String
  backupId : String
  scope : Scope
  identity : String
  expectedTargetSnapshotSha256 : String

/-- `TRANSACTION_ID_PATTERN` -/
def isTransactionId : String → Bool := Text.inClass Text.isKeyChar 8 128

/-- `SHA256_PATTERN` -/
def isSha256 : String → Bool := Text.inClass Text.isHex 64 64

/-- The checks both managers begin with. -/
def checkRequest (dg : Digests) (invalidTransaction invalidSnapshot
    mismatch : Rejection) (selected : Except Rejection (Selected dg))
    (request : Request) : Except Rejection (Selected dg) :=
  if isTransactionId request.transactionId ≠ true then
    .error invalidTransaction
  else if isSha256 request.expectedTargetSnapshotSha256 ≠ true then
    .error invalidSnapshot
  else do
    let s ← selected
    if s.manifest.scope ≠ request.scope
        ∨ s.manifest.identity ≠ request.identity then
      .error mismatch
    else .ok s

end Yunpanel.MailData
