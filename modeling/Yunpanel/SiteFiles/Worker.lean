/-
The site-file worker: `executeSiteFileOperation`.

Every operation first looks things up and checks them, which changes
nothing, then changes the tree, then looks at what it has made. The checks
of an operation are one function of the tree (`…Plan`); what it does with
their result is a program.
-/
import Yunpanel.Js.Fields
import Yunpanel.Lib.Canonical
import Yunpanel.Lib.Machine
import Yunpanel.Secrets.Keys
import Yunpanel.SiteFiles.Tree

namespace Yunpanel.SiteFiles

open Lib Lib.Exec Json

-- ====== limits

def maxPathBytes : Nat := 1024
def maxSegmentBytes : Nat := 255
def maxListEntries : Nat := 1000
def maxTransferBytes : Nat := 16 * 1024 * 1024
def maxTextBytes : Nat := 512 * 1024

-- ====== errors

namespace Thrown

def requestInvalid (message : String) : Thrown :=
  worker "site_file_request_invalid" message 400

def pathInvalid (field : String) : Thrown :=
  worker "site_file_path_invalid" (field ++ " is invalid") 400

def rootInvalid : Thrown :=
  worker "site_file_root_invalid" "Managed root is invalid" 409

def rootUnavailable : Thrown :=
  worker "site_file_root_unavailable" "Managed root is unavailable" 409

def symlinkRejected : Thrown :=
  worker "site_file_symlink_rejected" "Symbolic links cannot be followed" 409

def notDirectory (message : String) : Thrown :=
  worker "site_file_not_directory" message 409

def alreadyExists : Thrown :=
  worker "site_file_exists" "Destination already exists" 409

def notRegular : Thrown :=
  worker "site_file_not_regular" "Path must identify a regular file" 409

def tooLarge (maxBytes : Nat) : Thrown :=
  worker "site_file_too_large"
    ("File exceeds the " ++ toString maxBytes ++ " byte limit") 413

def contentInvalid : Thrown :=
  worker "site_file_content_invalid" "File content encoding is invalid" 400

def changed : Thrown :=
  worker "site_file_changed" "File changed since it was opened" 409

def notText : Thrown :=
  worker "site_file_not_text" "File is not valid UTF-8 text" 409

def destinationInvalid : Thrown :=
  worker "site_file_destination_invalid" "Rename destination is invalid" 409

end Thrown

-- ====== paths

def isPathSegment (s : List Char) : Bool :=
  s != [] && s != ['.'] && s != ['.', '.']
    && (String.ofList s).utf8ByteSize ≤ maxSegmentBytes

/-- `relativePath(value, { allowRoot, field })`, as segments. -/
def relativePath (value : Json) (allowRoot : Bool) (field : String) :
    Except Thrown Path :=
  match value with
  | .str s =>
      if maxPathBytes < s.utf8ByteSize
          ∨ s.toList.any (fun c => c.toNat == 0x5c || Text.isControl c) then
        .error (.pathInvalid field)
      else
        let normalized := s.toList.dropWhile (· == '/')
        if normalized = [] then
          if allowRoot then .ok [] else .error (.pathInvalid field)
        else
          let segments := normalized.splitOn '/'
          if segments.all isPathSegment then .ok (segments.map String.ofList)
          else .error (.pathInvalid field)
  | _ => .error (.pathInvalid field)

def pathText (p : Path) : String := "/".intercalate p

def isRootName (cs : List Char) : Bool :=
  cs != [] && cs.all fun c =>
    Text.isLower c || Text.isUpper c || Text.isDigit c || c == '.' || c == '_'
      || c == '-'

def isUuidText (cs : List Char) : Bool :=
  Text.shape uuidShape (Text.lower cs)

/-- A segment, in any case. -/
def reads (cs : List Char) (word : String) : Bool :=
  Text.lower cs == word.toList

/-- What may stand behind the application in `ROOT_PATTERN`. -/
def isRootRest : List (List Char) → Bool
  | [] => true
  | first :: rest =>
      ((reads first "current" || reads first "public_html"
          || reads first "public") && rest.all isRootName)
        || match rest with
          | release :: names =>
              reads first "releases" && isUuidText release
                && names.all isRootName
          | [] => false

/-- `ROOT_PATTERN` -/
def isManagedRoot (s : String) : Bool :=
  match s.toList.splitOn '/' with
  | [] :: var :: place :: panel :: apps :: application :: rest =>
      reads var "var" && (reads place "www" || reads place "lib")
        && reads panel "yunpanel" && reads apps "apps"
        && isUuidText application && isRootRest rest
  | _ => false

-- ====== answers

/-- What a worker meets on its way. -/
structure Answers where
  rootStat : Except SysError Bool := .ok true
  realpath : Except SysError String
  walked : Path → Sight := fun _ => none
  walkedAgain : Path → Sight := fun _ => none
  absent : Sight := none
  names : Except SysError (List String) := .ok []
  listed : String → Sight := fun _ => none
  read : Fate := none
  /-- `randomBytes(12).toString('hex')` -/
  suffix : String
  opened : Fate := none
  written : Fate := none
  half : Bytes := []
  synced : Fate := none
  closed : Fate := none
  renamed : Fate := none
  temporaryRemoved : Fate := none
  made : Fate := none
  chmod : Fate := none
  moved : Fate := none
  walkedFor : Nat → Path → Sight := fun _ _ => none
  removed : Nat → Removal := fun _ => .done
  /-- The look at what was made. -/
  reported : Sight := none

/-- What the worker is given of the process and the host: the digest, the
collation, and what `stat` tells besides the type, size and mode. -/
structure Env where
  sha256 : Bytes → String
  compare : String → String → Ordering
  uid : Path → Nat
  gid : Path → Nat
  modifiedAt : Path → String

variable (env : Env) (o : Answers)

/-- `managedRoot(request.root, dependencies)`; the tree is that of the root
that was resolved. -/
def managedRoot (root : Json) : Except Thrown Unit :=
  match root with
  | .str s =>
      if isManagedRoot s ≠ true then .error .rootInvalid
      else
        match o.rootStat, o.realpath with
        | .ok isDirectory, .ok resolved =>
            if isDirectory ∧ isManagedRoot resolved = true then .ok ()
            else .error .rootInvalid
        | _, _ => .error .rootUnavailable
  | _ => .error .rootInvalid

-- ====== walks

/-- The rest of a walk, from where it has come. -/
def walkFrom (sights : Path → Sight) (allowFinalSymlink : Bool) (t : Tree) :
    Path → Path → Except Thrown (Path × Node)
  | _, [] =>
      .error (.worker "site_file_path_invalid" "File path is invalid" 400)
  | here, segment :: rest =>
      let current := here ++ [segment]
      match lstat (sights current) current t with
      | .error e =>
          if e.code = "ENOENT" then .error .notFound else .error (.system e)
      | .ok info =>
          let final := rest.isEmpty
          if info.isSymbolicLink && !(allowFinalSymlink && final) then
            .error .symlinkRejected
          else if !final && !info.isDirectory then
            .error (.notDirectory "A parent path is not a directory")
          else if final then .ok (current, info)
          else walkFrom sights allowFinalSymlink t current rest

/-- `walk(root, relative, dependencies, { allowFinalSymlink })` -/
def walk (sights : Path → Sight) (allowFinalSymlink : Bool) (relative : Path)
    (t : Tree) : Except Thrown (Path × Node) :=
  if relative = [] then
    match lstat (sights []) [] t with
    | .ok info => .ok ([], info)
    | .error e => .error (.system e)
  else walkFrom sights allowFinalSymlink t [] relative

/-- `destination(root, relative, dependencies)` -/
def destination (sights : Path → Sight) (relative : Path) (t : Tree) :
    Except Thrown Path := do
  let (absolute, info) ← walk sights false relative.dropLast t
  if !info.isDirectory then
    .error (.notDirectory "Destination parent is not a directory")
  else return absolute ++ [relative.getLastD ""]

/-- `ensureAbsent(absolute, dependencies)` -/
def ensureAbsent (absolute : Path) (t : Tree) : Except Thrown Unit :=
  match lstat o.absent absolute t with
  | .ok _ => .error .alreadyExists
  | .error e => if e.code = "ENOENT" then .ok () else .error (.system e)

/-- `regularFile(entry, { maxBytes })`; the file's content. -/
def regularFile (maxBytes : Nat) : Node → Except Thrown Bytes
  | .symlink _ => .error .symlinkRejected
  | .file content _ =>
      if maxBytes < content.length then .error (.tooLarge maxBytes)
      else .ok content
  | _ => .error .notRegular

-- ====== results

structure Metadata where
  path : String
  name : String
  type : String
  size : Option Nat
  mode : String
  uid : Nat
  gid : Nat
  modifiedAt : String
  deriving DecidableEq

/-- `(info.mode & 0o7777).toString(8).padStart(4, '0')` -/
def modeText (mode : Nat) : String :=
  String.ofList ((Nat.toDigits 8 (mode % 4096)).leftpad 4 '0')

def metadata (info : Node) (p : Path) : Metadata where
  path := pathText p
  name := p.getLastD ""
  type := info.type
  size := info.size
  mode := modeText info.mode
  uid := env.uid p
  gid := env.gid p
  modifiedAt := env.modifiedAt p

structure BatchEntry where
  path : String
  deleted : Bool
  error : Option String
  deriving DecidableEq

inductive Result where
  | listing (directory : Metadata) (entries : List Metadata)
  | created (file : Metadata) (created : Bool)
  | download (file : Metadata) (content : String)
  | text (file : Metadata) (content sha256 : String)
  | written (file : Metadata) (sha256 : String)
  | directory (directory : Metadata)
  | renamed (entry : Metadata) (previousPath : String)
  | deleted (path type : String)
  | batch (deleted : List BatchEntry)
  deriving DecidableEq

/-- A look at what was made. -/
def report (absolute : Path) (t : Tree) : Except Thrown Node :=
  (lstat o.reported absolute t).mapError .system

-- ====== content

def base64Char (n : Nat) : Char :=
  "ABCDEFGHIJKLMNOPQRSTUVWXYZabcdefghijklmnopqrstuvwxyz0123456789+/".toList.getD
    n '='

/-- `content.toString('base64')` -/
def base64OfBytes : Bytes → List Char
  | a :: b :: c :: rest =>
      base64Char (a.toNat / 4)
        :: base64Char (a.toNat % 4 * 16 + b.toNat / 16)
        :: base64Char (b.toNat % 16 * 4 + c.toNat / 64)
        :: base64Char (c.toNat % 64) :: base64OfBytes rest
  | [a, b] =>
      [base64Char (a.toNat / 4), base64Char (a.toNat % 4 * 16 + b.toNat / 16),
        base64Char (b.toNat % 16 * 4), '=']
  | [a] => [base64Char (a.toNat / 4), base64Char (a.toNat % 4 * 16), '=', '=']
  | [] => []

def isBase64Char (c : Char) : Bool :=
  Text.isUpper c || Text.isLower c || Text.isDigit c || c == '+' || c == '/'

/-- `/^(?:[A-Za-z0-9+/]{4})*(?:[A-Za-z0-9+/]{2}==|[A-Za-z0-9+/]{3}=)?$/` -/
def isBase64Text (cs : List Char) : Bool :=
  let body := cs.takeWhile (· != '=')
  let padding := cs.length - body.length
  cs.length % 4 == 0 && padding ≤ 2 && body.all isBase64Char
    && (cs.drop body.length).all (· == '=')

/-- `decodedContent(value)` -/
def decodedContent (value : Json) : Except Thrown Bytes :=
  match value with
  | .str s =>
      if isBase64Text s.toList ≠ true then .error .contentInvalid
      else
        let content := Secrets.bytesOfBase64 s.toList
        if maxTransferBytes < content.length then
          .error (.tooLarge maxTransferBytes)
        else if base64OfBytes content ≠ s.toList then .error .contentInvalid
        else .ok content
  | _ => .error .contentInvalid

/-- `Buffer.from(text, 'utf8')` -/
def utf8 (text : String) : Bytes := text.toUTF8.toList

/-- `new TextDecoder('utf-8', { fatal: true }).decode(content)` -/
def decodeText (content : Bytes) : Except Thrown String :=
  match String.fromUTF8? ⟨content.toArray⟩ with
  | some text =>
      if text.toList.head? = some (Char.ofNat 0xfeff) then
        .ok (String.ofList text.toList.tail)
      else .ok text
  | none => .error .notText

-- ====== write

/-- The name a file is written under before it takes its place. -/
def temporaryPath (absolute : Path) : Path :=
  absolute.dropLast
    ++ [absolute.getLastD "" ++ ".yunpanel-" ++ o.suffix ++ ".tmp"]

/-- `atomicWrite(absolute, content, mode, dependencies)` -/
def atomicWrite (absolute : Path) (content : Bytes) (mode : Nat) :
    Run Unit :=
  attempt (do
    openNew o.opened (temporaryPath o absolute) mode
    writeOpen o.written o.half (temporaryPath o absolute) mode content
    ofExcept o.synced.check
    ofExcept o.closed.check
    rename o.renamed (temporaryPath o absolute) absolute)
  fun e => do
    let _ ← caught (rmFile o.temporaryRemoved (temporaryPath o absolute))
    fail e

/-- `(info.mode & 0o777) | 0o640` -/
def safeMode (mode : Nat) : Nat := (mode % 512) ||| 416

def fileMode : Nat := 416

def directoryMode : Nat := 488

/-- What is to be written, and where. -/
structure Planned where
  item : Path
  absolute : Path
  content : Bytes
  mode : Nat
  deriving DecidableEq

/-- Write what was planned and look at it. -/
def carryOut (p : Planned) : Run Metadata := do
  atomicWrite o p.absolute p.content p.mode
  let info ← look (report o p.absolute)
  return metadata env info p.item

-- ====== operations

/-- `exactRequest(request, fields)` -/
def exactRequest (fields : List String) (message : String) (request : Json) :
    Except Thrown Fields :=
  match exactObject fields request with
  | some found => .ok found
  | none => .error (.requestInvalid message)

def listOperation (request : Json) (t : Tree) : Except Thrown Result := do
  let fields ← exactRequest ["operation", "root", "path"]
    "List request fields are invalid" request
  let item ← relativePath (fields.get "path") true "path"
  let (absolute, info) ← walk o.walked false item t
  if !info.isDirectory then
    .error (.notDirectory "Path must identify a directory")
  else
    let names ← o.names.mapError .system
    if maxListEntries < names.length then
      .error (.worker "site_file_list_too_large"
        ("Directory exceeds the " ++ toString maxListEntries
          ++ " entry limit") 413)
    else
      let entries ← names.mapM fun name =>
        ((lstat (o.listed name) (absolute ++ [name]) t).mapError
          Thrown.system).map fun child => metadata env child (item ++ [name])
      return .listing (metadata env info item)
        (Canonical.sortBy (fun left right =>
          if left.type = right.type then env.compare left.name right.name
          else if left.type = "directory" then .lt
          else if right.type = "directory" then .gt
          else env.compare left.name right.name) entries)

/-- What `download` and `read_text` look at. -/
def readEntry (maxBytes : Nat) (request : Json) (t : Tree) :
    Except Thrown (Metadata × Bytes) := do
  let fields ← exactRequest ["operation", "root", "path"]
    "Read request fields are invalid" request
  let item ← relativePath (fields.get "path") false "path"
  let (_, info) ← walk o.walked false item t
  let content ← regularFile maxBytes info
  o.read.check
  return (metadata env info item, content)

def downloadOperation (request : Json) (t : Tree) : Except Thrown Result := do
  let (file, content) ← readEntry env o maxTransferBytes request t
  return .download file (String.ofList (base64OfBytes content))

def readTextOperation (request : Json) (t : Tree) : Except Thrown Result := do
  let (file, content) ← readEntry env o maxTextBytes request t
  let text ← decodeText content
  return .text file text (env.sha256 content)

def createFilePlan (request : Json) (t : Tree) : Except Thrown Planned := do
  let fields ← exactRequest ["operation", "root", "path"]
    "File creation request fields are invalid" request
  let item ← relativePath (fields.get "path") false "path"
  let absolute ← destination o.walked item t
  ensureAbsent o absolute t
  return ⟨item, absolute, [], fileMode⟩

def createFile (request : Json) : Run Result := do
  let planned ← look (createFilePlan o request)
  let file ← carryOut env o planned
  return .created file true

/-- The file that an upload replaces, if there is one. -/
def existingFile (item : Path) (t : Tree) :
    Except Thrown (Option Node) :=
  match walk o.walkedAgain false item t with
  | .ok (_, info) => .ok (some info)
  | .error (.worker code message status) =>
      if code = "site_file_not_found" then .ok none
      else .error (.worker code message status)
  | .error (.system e) => .error (.system e)

/-- `if (existing) regularFile(existing)` -/
def checkExisting : Option Node → Except Thrown Unit
  | none => .ok ()
  | some info => do
      let _ ← regularFile maxTransferBytes info
      return ()

def uploadPlan (request : Json) (t : Tree) :
    Except Thrown (Planned × Bool) := do
  let fields ← exactRequest ["operation", "root", "path", "content"]
    "Upload request fields are invalid" request
  let item ← relativePath (fields.get "path") false "path"
  let absolute ← destination o.walked item t
  let existing ← existingFile o item t
  checkExisting existing
  let content ← decodedContent (fields.get "content")
  return (⟨item, absolute, content,
    existing.elim fileMode fun info => safeMode info.mode⟩, existing.isNone)

def upload (request : Json) : Run Result := do
  let (planned, created) ← look (uploadPlan o request)
  let file ← carryOut env o planned
  return .created file created

/-- `SHA256_PATTERN` -/
def isSha256 : String → Bool := Text.inClass Text.isHex 64 64

/-- The texts of an edit. -/
def editTexts (fields : Fields) : Except Thrown (String × String) :=
  match (fields.get "content").str?, (fields.get "expectedSha256").str? with
  | some content, some expected =>
      if isSha256 expected then .ok (content, expected)
      else .error (.requestInvalid "Text edit request fields are invalid")
  | _, _ => .error (.requestInvalid "Text edit request fields are invalid")

/-- Everything a text edit looks at before it writes. -/
def writeTextPlan (request : Json) (t : Tree) : Except Thrown Planned := do
  let fields ← exactRequest
    ["operation", "root", "path", "content", "expectedSha256"]
    "Text edit request fields are invalid" request
  let (text, expected) ← editTexts fields
  let item ← relativePath (fields.get "path") false "path"
  let (absolute, info) ← walk o.walked false item t
  let previous ← regularFile maxTextBytes info
  o.read.check
  if env.sha256 previous ≠ expected then .error .changed
  else if maxTextBytes < (utf8 text).length then
    .error (.tooLarge maxTextBytes)
  else return ⟨item, absolute, utf8 text, safeMode info.mode⟩

/-- The second half of a text edit. -/
def replaceText (planned : Planned) : Run Result := do
  let file ← carryOut env o planned
  return .written file (env.sha256 planned.content)

def writeText (request : Json) : Run Result := do
  let planned ← look (writeTextPlan env o request)
  replaceText env o planned

def mkdirPlan (request : Json) (t : Tree) : Except Thrown (Path × Path) := do
  let fields ← exactRequest ["operation", "root", "path"]
    "Directory request fields are invalid" request
  let item ← relativePath (fields.get "path") false "path"
  let absolute ← destination o.walked item t
  ensureAbsent o absolute t
  return (item, absolute)

def makeDirectory (request : Json) : Run Result := do
  let (item, absolute) ← look (mkdirPlan o request)
  mkdir o.made absolute directoryMode
  chmod o.chmod absolute directoryMode
  let info ← look (report o absolute)
  return .directory (metadata env info item)

/-- What a renaming moves, and where to. -/
structure Moving where
  item : Path
  source : Path
  destination : Path
  target : Path

def renamePlan (request : Json) (t : Tree) : Except Thrown Moving := do
  let fields ← exactRequest ["operation", "root", "path", "destination"]
    "Rename request fields are invalid" request
  let item ← relativePath (fields.get "path") false "path"
  let destinationPath ←
    relativePath (fields.get "destination") false "destination"
  if item.isPrefixOf destinationPath then .error .destinationInvalid
  else
    let (source, info) ← walk o.walked false item t
    if info.isSymbolicLink then
      .error (.worker "site_file_symlink_rejected"
        "Symbolic links cannot be renamed" 409)
    else
      let target ← destination o.walkedAgain destinationPath t
      ensureAbsent o target t
      return ⟨item, source, destinationPath, target⟩

def renameOperation (request : Json) : Run Result := do
  let m ← look (renamePlan o request)
  rename o.moved m.source m.target
  let info ← look (report o m.target)
  return .renamed (metadata env info m.destination) (pathText m.item)

def deletePlan (request : Json) (t : Tree) :
    Except Thrown (Path × Path × Node) := do
  let fields ← exactRequest ["operation", "root", "path"]
    "Delete request fields are invalid" request
  let item ← relativePath (fields.get "path") false "path"
  let (absolute, info) ← walk o.walked true item t
  return (item, absolute, info)

def deleteOperation (request : Json) : Run Result := do
  let (item, absolute, info) ← look (deletePlan o request)
  rm (o.removed 0) info.isDirectory absolute
  return .deleted (pathText item)
    (if info.isSymbolicLink then "symlink"
      else if info.isDirectory then "directory" else "file")

-- ====== batch

def batchPaths (request : Json) : Except Thrown (List Json) := do
  let fields ← exactRequest ["operation", "root", "paths"]
    "Batch delete requires a non-empty paths array" request
  match fields.get "paths" with
  | .arr paths =>
      if paths.isEmpty then
        .error (.requestInvalid "Batch delete requires a non-empty paths array")
      else if 200 < paths.length then
        .error (.worker "site_file_request_too_large"
          "Batch delete cannot exceed 200 items at once" 413)
      else return paths
  | _ => .error (.requestInvalid "Batch delete requires a non-empty paths array")

/-- The `try` for one of the paths. -/
def removeItem (i : Nat) (item : Path) : Run Unit := do
  let (absolute, info) ← look (walk (o.walkedFor i) true item)
  rm (o.removed i) info.isDirectory absolute

def batchEntry (item : Path) : Except Thrown Unit → BatchEntry
  | .ok _ => ⟨pathText item, true, none⟩
  | .error e => ⟨pathText item, false, some e.message⟩

/-- The paths, from one of them on; the path itself is checked outside of
the `try`. -/
def removeItems : Nat → List Json → Run (List BatchEntry)
  | _, [] => pure []
  | i, p :: ps => do
      let item ← ofExcept (relativePath p false "path")
      let outcome ← caught (removeItem o i item)
      let rest ← removeItems (i + 1) ps
      return batchEntry item outcome :: rest

def batchDelete (request : Json) : Run Result := do
  let paths ← look fun _ => batchPaths request
  let entries ← removeItems o 0 paths
  return .batch entries

-- ====== worker

inductive Operation where
  | list
  | download
  | readText
  | upload
  | writeText
  | createFile
  | mkdir
  | rename
  | delete
  | batchDelete
  deriving DecidableEq

/-- `OPERATIONS` -/
def operation? : Json → Option Operation
  | .str "list" => some .list
  | .str "download" => some .download
  | .str "read_text" => some .readText
  | .str "upload" => some .upload
  | .str "write_text" => some .writeText
  | .str "create_file" => some .createFile
  | .str "mkdir" => some .mkdir
  | .str "rename" => some .rename
  | .str "delete" => some .delete
  | .str "batch_delete" => some .batchDelete
  | _ => none

def dispatch (request : Json) : Operation → Run Result
  | .list => look (listOperation env o request)
  | .download => look (downloadOperation env o request)
  | .readText => look (readTextOperation env o request)
  | .upload => upload env o request
  | .writeText => writeText env o request
  | .createFile => createFile env o request
  | .mkdir => makeDirectory env o request
  | .rename => renameOperation env o request
  | .delete => deleteOperation o request
  | .batchDelete => batchDelete o request

def executeSiteFileOperation (request : Json) : Run Result :=
  match operation? ((request.object?.getD []).get "operation") with
  | none =>
      fail (.requestInvalid "Site file worker request is invalid")
  | some operation =>
      attempt (do
        ofExcept (managedRoot o ((request.object?.getD []).get "root"))
        dispatch env o request operation)
      fun e => fail e.mapSystemError

-- ====== overlap

/-- How far a worker has come with its edit. -/
inductive Editor where
  | waiting
  | holding (planned : Planned)
  | finished (result : Except Thrown Result)

/-- The tree and the workers on it. -/
structure Shared (ι : Type) where
  tree : Tree
  editor : ι → Editor

/-- Everything that `write_text` does before it replaces the file. -/
def editPlan (env : Env) (o : Answers) (request : Json) (t : Tree) :
    Except Thrown Planned := do
  managedRoot o ((request.object?.getD []).get "root")
  writeTextPlan env o request t

section Machine

variable {ι : Type} [DecidableEq ι]

/-- One of the workers does the next half of its edit. -/
def Shared.step (env : Env) (request : ι → Json) (s : Shared ι) (i : ι)
    (o : Answers) : Shared ι :=
  match s.editor i with
  | .waiting =>
      match editPlan env o (request i) s.tree with
      | .ok planned =>
          { s with editor := Function.update s.editor i (.holding planned) }
      | .error e =>
          { s with
            editor := Function.update s.editor i
              (.finished (.error e.mapSystemError)) }
  | .holding planned =>
      let (result, tree) := (replaceText env o planned).run s.tree
      ⟨tree, Function.update s.editor i
        (.finished (result.mapError Thrown.mapSystemError))⟩
  | .finished _ => s

def editing (env : Env) (request : ι → Json) :
    Machine (Shared ι) (ι × Answers) Unit where
  step s input := (s.step env request input.1 input.2, ())

end Machine

end Yunpanel.SiteFiles
