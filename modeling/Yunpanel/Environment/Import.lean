/-
Reading an environment that was pasted or uploaded as text.

The parser takes the text line by line. What a line may look like is said
by regular expressions, and the ones here walk a line from the left as
those do: none of them can be matched in two ways, so no choice is left to
the order of alternatives. A dot of a regular expression matches no line
terminator, and JavaScript has two of them besides the line breaks.
-/
import Yunpanel.Environment.Bundle

namespace Yunpanel.Environment

open Json Applications

-- ====== characters

/-- `[ \t]` -/
def isTab (c : Char) : Bool := c == ' ' || c == '\t'

/-- U+2028 and U+2029. -/
def isSeparator (c : Char) : Bool := c == '\u2028' || c == '\u2029'

/-- What `.` matches. -/
def isDot (c : Char) : Bool := c != '\n' && c != '\r' && !isSeparator c

-- ====== lines

/-- `s.replace(/\r\n/g, '\n')` -/
def joinCrLf : List Char → List Char
  | '\r' :: '\n' :: rest => '\n' :: joinCrLf rest
  | c :: rest => c :: joinCrLf rest
  | [] => []

/-- The whole line's expression after its name: blanks, `=`, blanks, and
the rest of the line. -/
def afterName (cs : List Char) : Option (List Char) :=
  match cs.dropWhile isTab with
  | '=' :: rest =>
      let fragment := rest.dropWhile isTab
      if fragment.all isDot then some fragment else none
  | _ => none

/-- `(?:export[ \t]+)?` -/
def stripExport (cs : List Char) : List Char :=
  if "export".toList.isPrefixOf cs
      ∧ ((cs.drop 6).head?.any isTab) = true then
    (cs.drop 6).dropWhile isTab
  else cs

/-- `line.match(…)`: the name, and the fragment that is its value. -/
def matchLine (line : List Char) : Option (List Char × List Char) :=
  match stripExport (line.dropWhile isTab) with
  | [] => none
  | c :: cs =>
      if isKeyHead c then
        (afterName (cs.dropWhile isKeyRest)).map fun fragment =>
          (c :: cs.takeWhile isKeyRest, fragment)
      else none

-- ====== values

/-- `(?:[ \t]+#.*)?$`: nothing, or blanks and a comment. -/
def isTail (cs : List Char) : Bool :=
  cs.isEmpty
    || (cs.head?.any isTab
      && match cs.dropWhile isTab with
        | '#' :: comment => comment.all isDot
        | _ => false)

/-- The body of a single-quoted value and what follows its quote. -/
def singleQuoted : List Char → Option (List Char × List Char)
  | [] => none
  | c :: cs =>
      if c = '\'' then some ([], cs)
      else (singleQuoted cs).map fun (body, rest) => (c :: body, rest)

/-- The body of a double-quoted value without its escapes, and what
follows its quote. -/
def doubleQuoted : List Char → Option (List Char × List Char)
  | [] => none
  | '\\' :: c :: cs =>
      if c = '\\' ∨ c = '"' then
        (doubleQuoted cs).map fun (body, rest) => (c :: body, rest)
      else none
  | c :: cs =>
      if c = '"' then some ([], cs)
      else if c = '\\' then none
      else (doubleQuoted cs).map fun (body, rest) => (c :: body, rest)

/-- `fragment.slice(0, fragment.search(/[ \t]+#/))`, all of it where there
is no comment. -/
def beforeComment : List Char → List Char
  | [] => []
  | c :: cs =>
      if isTab c ∧ (cs.dropWhile isTab).head? = some '#' then []
      else c :: beforeComment cs

/-- `s.trimEnd()` -/
def trimEnd (cs : List Char) : List Char :=
  (cs.reverse.dropWhile Text.isSpace).reverse

def invalidEnvironmentImport (message : String) : Failure :=
  .validation "invalid_environment_import" message

def importLineMessage (lineNumber : Nat) (message : String) : String :=
  "Environment import line " ++ toString lineNumber ++ " " ++ message

def importLineValue (fragment : List Char) (lineNumber : Nat) :
    Except Failure EnvironmentValue :=
  match Text.trim fragment with
  | [] => .ok ⟨"", rfl⟩
  | '\'' :: quoted => do
      let (body, _) ← demand
        (invalidEnvironmentImport (importLineMessage lineNumber
          "has an invalid single-quoted value"))
        ((singleQuoted quoted).filter fun found => isTail found.2)
      normalizeEnvironmentValue (.str (String.ofList body))
  | '"' :: quoted => do
      let (body, _) ← demand
        (invalidEnvironmentImport (importLineMessage lineNumber
          "has an invalid double-quoted value"))
        ((doubleQuoted quoted).filter fun found => isTail found.2)
      normalizeEnvironmentValue (.str (String.ofList body))
  | trimmed =>
      normalizeEnvironmentValue
        (.str (String.ofList (trimEnd (beforeComment trimmed))))

-- ====== texts

/-- `MAX_ENVIRONMENT_IMPORT_LENGTH` -/
def maxImportLength : Nat := 12288

/-- A line that gives nothing: blank, or a comment. -/
def isIdle (line : List Char) : Bool :=
  (Text.trim line).isEmpty
    || (line.dropWhile Text.isSpace).head? == some '#'

/-- One turn of the loop over the lines. -/
def importLine (vars : Variables) (line : List Char) (lineNumber : Nat) :
    Except Failure Variables := do
  ensure
    (invalidEnvironmentImport
      (importLineMessage lineNumber "has an invalid line ending"))
    (!line.contains '\r')
  if isIdle line then return vars
  let (name, fragment) ← demand
    (invalidEnvironmentImport
      (importLineMessage lineNumber "must use KEY=value syntax"))
    (matchLine line)
  let key ← normalizeEnvironmentKey (.str (String.ofList name))
  ensure
    (.validation "duplicate_environment_key"
      ("Environment import contains duplicate key " ++ key.text))
    (!vars.any fun v => v.1 == key)
  let value ← importLineValue fragment lineNumber
  let vars := vars ++ [(key, value)]
  ensure environmentLimitExceeded (decide (vars.length ≤ maxVariables))
  return vars

def importLines (vars : Variables) :
    List (List Char) → Nat → Except Failure Variables
  | [], _ => .ok vars
  | line :: rest, lineNumber => do
      let vars ← importLine vars line lineNumber
      importLines vars rest (lineNumber + 1)

/-- `value.startsWith('\ufeff') ? value.slice(1) : value` -/
def stripBom : List Char → List Char
  | '\ufeff' :: rest => rest
  | cs => cs

def parseApplicationEnvironmentImport (value : Json) :
    Except Failure Variables := do
  let text ← demand
    (invalidEnvironmentImport "Environment import must be bounded UTF-8 text")
    (value.str?.filter fun s =>
      decide (Text.length s ≤ maxImportLength) && !s.toList.contains '\x00')
  importLines [] ((joinCrLf (stripBom text.toList)).splitOn '\n') 1

end Yunpanel.Environment
