/-
The files of a site, and what a worker does to them.

A tree is a function of paths, the lists of segments below the managed
root; the root itself is the empty path. Each operation answers from
outside whether it fails (`Fate`); a removal that fails may have taken some
of the entries, and a write that fails may have written a part.
-/
import Yunpanel.Js.Text
import Yunpanel.Lib.Exec

namespace Yunpanel.SiteFiles

open Lib Lib.Exec

-- ====== trees

abbrev Bytes := List UInt8

inductive Node where
  | directory (mode : Nat)
  | file (content : Bytes) (mode : Nat)
  | symlink (mode : Nat)
  | other (mode : Nat)
  deriving DecidableEq

namespace Node

def isDirectory : Node → Bool
  | directory _ => true
  | _ => false

def isSymbolicLink : Node → Bool
  | symlink _ => true
  | _ => false

def mode : Node → Nat
  | directory mode => mode
  | file _ mode => mode
  | symlink mode => mode
  | other mode => mode

def type : Node → String
  | directory _ => "directory"
  | file _ _ => "file"
  | symlink _ => "symlink"
  | other _ => "other"

def size : Node → Option Nat
  | file content _ => some content.length
  | _ => none

def withMode (mode : Nat) : Node → Node
  | directory _ => directory mode
  | file content _ => file content mode
  | symlink _ => symlink mode
  | other _ => other mode

end Node

abbrev Path := List String

abbrev Tree := Path → Option Node

namespace Tree

def put (p : Path) (n : Option Node) (t : Tree) : Tree :=
  Function.update t p n

/-- Everything at and below a path comes to be at and below another. -/
def move (source target : Path) (t : Tree) : Tree := fun q =>
  if target <+: q then t (source ++ q.drop target.length)
  else if source <+: q then none
  else t q

/-- Of what is at and below a path, only some stays. -/
def remove (p : Path) (stays : Path → Bool) (t : Tree) : Tree := fun q =>
  if p <+: q ∧ stays q = false then none else t q

end Tree

-- ====== errors

/-- An error of the system. -/
structure SysError where
  code : String
  message : String
  deriving DecidableEq

/-- What is thrown inside the worker: a `SiteFileWorkerError`, or an error
of the system. -/
inductive Thrown where
  | worker (code message : String) (status : Nat)
  | system (e : SysError)
  deriving DecidableEq

namespace Thrown

def message : Thrown → String
  | worker _ message _ => message
  | system e => e.message

def notFound : Thrown :=
  worker "site_file_not_found" "File or directory not found" 404

/-- `mapSystemError(error)` -/
def mapSystemError : Thrown → Thrown
  | worker code message status => worker code message status
  | system e =>
      if e.code = "ENOENT" then notFound
      else if e.code = "EACCES" ∨ e.code = "EPERM" then
        worker "site_file_permission_denied" "Permission denied" 403
      else if e.code = "EEXIST" then
        worker "site_file_exists" "Destination already exists" 409
      else if e.code = "ENOTEMPTY" then
        worker "site_file_directory_not_empty" "Directory is not empty" 409
      else if e.code = "ENOTDIR" then
        worker "site_file_not_directory" "Path must identify a directory" 409
      else if e.code = "EISDIR" then
        worker "site_file_is_directory" "Target is a directory" 409
      else
        worker "site_file_worker_failed" "Filesystem operation failed" 503

end Thrown

abbrev Run (α : Type) := Exec Tree Thrown α

-- ====== operations

/-- How an operation went: what it failed with. -/
abbrev Fate := Option SysError

def Fate.check : Fate → Except Thrown Unit
  | none => .ok ()
  | some e => .error (.system e)

def enoent : SysError := ⟨"ENOENT", "ENOENT: no such file or directory"⟩

def eexist : SysError := ⟨"EEXIST", "EEXIST: file already exists"⟩

def eisdir : SysError :=
  ⟨"EISDIR", "EISDIR: illegal operation on a directory"⟩

/-- How a look at a path goes: it may fail, but says that nothing is there
only where nothing is. -/
abbrev Sight := Option {e : SysError // e.code ≠ "ENOENT"}

def lstat (f : Sight) (p : Path) (t : Tree) : Except SysError Node :=
  match f, t p with
  | some e, _ => .error e.val
  | none, none => .error enoent
  | none, some n => .ok n

/-- `open(path, 'wx', mode)` -/
def openNew (f : Fate) (p : Path) (mode : Nat) : Run Unit := do
  ofExcept f.check
  let there ← Exec.read fun t => (t p).isSome
  if there then fail (.system eexist)
  else modify (Tree.put p (some (.file [] mode)))

/-- `handle.writeFile(content)`: a part of it, where it fails. -/
def writeOpen (f : Fate) (half : Bytes) (p : Path) (mode : Nat)
    (content : Bytes) : Run Unit := do
  modify (Tree.put p (some (.file
    (match f with
      | none => content
      | some _ => half) mode)))
  ofExcept f.check

/-- What a renaming makes of the tree. -/
def Tree.renamed (source target : Path) (n : Node) (t : Tree) : Tree :=
  if n.isDirectory then t.move source target
  else (t.put source none).put target (some n)

/-- `rename(source, target)`: no directory is replaced by a file. -/
def rename (f : Fate) (source target : Path) : Run Unit := do
  ofExcept f.check
  let moved ← Exec.read fun t => t source
  let there ← Exec.read fun t => t target
  match moved with
  | none => fail (.system enoent)
  | some n =>
      if (there.any Node.isDirectory && !n.isDirectory) = true then
        fail (.system eisdir)
      else modify (Tree.renamed source target n)

/-- `rm(path, { force: true })` of a file. -/
def rmFile (f : Fate) (p : Path) : Run Unit := do
  ofExcept f.check
  let there ← Exec.read fun t => t p
  if there.any Node.isDirectory then fail (.system eisdir)
  else modify (Tree.put p none)

/-- How a removal goes: where it fails, which of the entries are still
there. -/
inductive Removal where
  | done
  | failed (e : SysError) (stays : Path → Bool)

/-- `rm(path, { recursive, force: false })` of something that is there. -/
def rm (r : Removal) (recursive : Bool) (p : Path) : Run Unit :=
  match r with
  | .done => modify (Tree.remove p fun _ => false)
  | .failed e stays => do
      onlyIf recursive (modify (Tree.remove p stays))
      fail (.system e)

/-- `mkdir(path, { recursive: false, mode })` -/
def mkdir (f : Fate) (p : Path) (mode : Nat) : Run Unit := do
  ofExcept f.check
  let there ← Exec.read fun t => (t p).isSome
  if there then fail (.system eexist)
  else modify (Tree.put p (some (.directory mode)))

def chmod (f : Fate) (p : Path) (mode : Nat) : Run Unit := do
  ofExcept f.check
  modify fun t => t.put p ((t p).map (Node.withMode mode))

end Yunpanel.SiteFiles
