/-
Paths inside the checkout of an application, as they are checked
everywhere, and what the checks throw.

Each value carries what was checked of it, so that whatever was normalized
once is in normal form from then on.
-/
import Yunpanel.Js.Fields

namespace Yunpanel.Applications

open Json

-- ====== failures

/-- Why a call rejects: the registry's own error, an error of the shared
checks, a write that failed, or a file that is no store of applications. -/
inductive Failure where
  | registry (code message : String) (status : Nat)
  | validation (code message : String)
  | store
  | invalidStore
  deriving DecidableEq, Repr

/-- `new ApplicationRegistryError(code, message, status)` -/
def refuse (code message : String) (status : Nat := 400) : Failure :=
  .registry code message status

/-- A test that throws where it fails. -/
def demand {α : Type} (e : Failure) : Option α → Except Failure α
  | some a => .ok a
  | none => .error e

/-- `if (!condition) throw …` -/
def ensure (e : Failure) (condition : Bool) : Except Failure Unit :=
  if condition then .ok () else .error e

/-- A value one of a few. -/
abbrev OneOf (options : List String) := Matching options.contains

-- ====== texts

/-- A letter, a digit, or one of dot, underscore, slash and dash. -/
def isPathChar (c : Char) : Bool :=
  Text.isAlnum c || c == '.' || c == '_' || c == '/' || c == '-'

/-- `s.includes(part)` -/
def includes (part s : String) : Bool :=
  s.toList.tails.any fun rest => part.toList.isPrefixOf rest

-- ====== paths

/-- The length and the characters of a path inside a checkout. -/
def isPathText (s : String) : Bool :=
  s.toList.all isPathChar && 1 ≤ s.toList.length && s.toList.length ≤ 180
    && s.toList.head? != some '/'

def isBuildPath (s : String) : Bool :=
  isPathText s && (s.toList.splitOn '/').all fun segment =>
    segment != [] && segment != ['.'] && segment != ['.', '.']

abbrev BuildPath := Matching isBuildPath

/-- A path, or the root of the checkout. -/
def isRootPath (s : String) : Bool := s == "." || isBuildPath s

abbrev RootPath := Matching isRootPath

def invalidBuildPath (message : String) : Failure :=
  .validation "invalid_build_path" message

/-- `normalizeRelativeBuildPath(value)` -/
def normalizeRelativeBuildPath (value : Json) :
    Except Failure BuildPath := do
  let s ← demand (invalidBuildPath "Build output path is invalid")
    (value.str?.filter isPathText)
  demand
    (invalidBuildPath
      "Build output path contains traversal or empty segments")
    (Matching.ofText? s)

/-- `normalizeRelativeBuildPath(value, { allowDot: true })` -/
def normalizeRootPath (value : Json) : Except Failure RootPath :=
  if value = .str "." then .ok ⟨".", rfl⟩
  else
    (normalizeRelativeBuildPath value).map fun path =>
      ⟨path.text, by rw [isRootPath, path.ok, Bool.or_true]⟩

/-- `SCRIPT_PATTERN` -/
def isScript (s : String) : Bool :=
  Text.headed Text.isAlnum
    (fun c => Text.isAlnum c || c == ':' || c == '_' || c == '-') 63 s

abbrev Script := Matching isScript

end Yunpanel.Applications
