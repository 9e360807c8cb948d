/-
The environment of an application: keys, values, and whole bundles.

A key is a shell name in capitals that the panel does not keep for itself,
a value any text of one line, and a bundle at most a hundred of them. Keys
and values carry what was checked of them, so that a value normalized once
is normal from then on.
-/
import Yunpanel.Applications.Sources

namespace Yunpanel.Environment

open Json Applications

-- ====== keys

def isKeyHead (c : Char) : Bool := Text.isUpper c || c == '_'

def isKeyRest (c : Char) : Bool := isKeyHead c || Text.isDigit c

/-- `ENVIRONMENT_KEY_PATTERN` -/
def isKeyText (s : String) : Bool := Text.headed isKeyHead isKeyRest 127 s

/-- `RESERVED_KEYS` -/
def reservedKeys : List String :=
  ["NODE_ENV", "HOST", "PORT", "YUNPANEL_APPLICATION_ID",
    "YUNPANEL_GIT_CREDENTIAL", "YUNPANEL_GITHUB_WEBHOOK_SECRET"]

def isEnvironmentKey (s : String) : Bool :=
  isKeyText s && !reservedKeys.contains s

abbrev EnvironmentKey := Matching isEnvironmentKey

def normalizeEnvironmentKey (value : Json) :
    Except Failure EnvironmentKey := do
  let s ← demand
    (.validation "invalid_environment_key"
      "Environment variable name is invalid")
    (value.str?.filter isKeyText)
  demand
    (.validation "reserved_environment_key"
      "Environment variable name is managed by YunPanel")
    (Matching.ofText? s)

-- ====== values

/-- `MAX_ENVIRONMENT_VALUE_LENGTH` -/
def maxValueLength : Nat := 8192

/-- At most so many units, and no NUL or line break among them. -/
def isEnvironmentValue (s : String) : Bool :=
  decide (Text.length s ≤ maxValueLength)
    && s.toList.all fun c => c != '\x00' && c != '\n' && c != '\r'

abbrev EnvironmentValue := Matching isEnvironmentValue

def normalizeEnvironmentValue (value : Json) :
    Except Failure EnvironmentValue :=
  demand
    (.validation "invalid_environment_value"
      "Environment variable value is invalid")
    (Matching.read? value)

-- ====== bundles

/-- Variables in the order they were put into an object. -/
abbrev Variables := List (EnvironmentKey × EnvironmentValue)

/-- The properties of an object: its keys are distinct. -/
structure Properties where
  entries : Fields
  distinct : (entries.map Prod.fst).Nodup

/-- `MAX_ENVIRONMENT_VARIABLES` -/
def maxVariables : Nat := 100

def environmentLimitExceeded : Failure :=
  .validation "environment_limit_exceeded"
    "Application environment supports at most 100 variables"

/-- One turn of the loop: the entry, normalized. -/
def normalizeEntry (entry : String × Json) :
    Except Failure (EnvironmentKey × EnvironmentValue) := do
  let key ← normalizeEnvironmentKey (.str entry.1)
  let value ← normalizeEnvironmentValue entry.2
  return (key, value)

/-- `normalizeApplicationEnvironmentBundle`, of an object or of something
that is none. A key is left as it is, so distinct keys stay distinct and
every entry of the object becomes one of the result. -/
def normalizeApplicationEnvironmentBundle (value : Option Properties) :
    Except Failure Variables := do
  let properties ← demand
    (.validation "invalid_environment_bundle"
      "Application environment bundle must be an object") value
  ensure environmentLimitExceeded
    (decide (properties.entries.length ≤ maxVariables))
  properties.entries.mapM normalizeEntry

end Yunpanel.Environment
