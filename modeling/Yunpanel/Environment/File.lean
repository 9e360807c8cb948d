/-
The environment file of a Node application.

The panel's own variables come first and then the user's in the order of
their keys, each as one line with its value in double quotes.
-/
import Yunpanel.Lib.EnvironmentFile
import Yunpanel.Environment.Bundle
import Yunpanel.Applications.Runtimes
import Yunpanel.Js.Collation

namespace Yunpanel.Environment

open Json Applications

-- ====== quoting

/-- `s.replaceAll(c, by)` for a single character. -/
def replaceAll (c : Char) (replacement : List Char) (cs : List Char) :
    List Char :=
  cs.flatMap fun d => if d = c then replacement else [d]

def quoteEnvironmentValue (value : String) : String :=
  String.ofList ('"' :: (replaceAll '"' ['\\', '"']
    (replaceAll '\\' ['\\', '\\'] value.toList) ++ ['"']))

-- ====== rendering

/-- `values[key] = value` -/
def assignText (key value : String) :
    List (String × String) → List (String × String)
  | [] => [(key, value)]
  | (k, v) :: rest =>
      if k = key then (k, value) :: rest
      else (k, v) :: assignText key value rest

/-- `String(port)` -/
def portText : Option Port → String
  | some port => toString port.val
  | none => "null"

/-- The variables that are the panel's. -/
def managedValues (applicationId : Uuid) (runtime : NodeRuntime) :
    List (String × String) :=
  [("NODE_ENV", runtime.mode.text), ("HOST", "127.0.0.1"),
    ("PORT", portText runtime.port),
    ("YUNPANEL_APPLICATION_ID", applicationId.text)]

/-- `${key}=${quoteEnvironmentValue(value)}`, and a line break. -/
def environmentLine (entry : String × String) : String :=
  entry.1 ++ "=" ++ quoteEnvironmentValue entry.2 ++ "\n"

/-- The lines of the file, each with its line break. -/
def environmentText (values : List (String × String)) : String :=
  String.join (values.map environmentLine)

def textsOf (vars : Variables) : List (String × String) :=
  vars.map fun v => (v.1.text, v.2.text)

/-- `for (const key of Object.keys(custom).sort()) values[key] = …` -/
def withCustom (custom values : List (String × String)) :
    List (String × String) :=
  (Text.sort (custom.map Prod.fst)).foldl
    (fun values key =>
      assignText key ((custom.lookup key).getD "undefined") values) values

def renderNodeEnvironmentFile (applicationId runtime : Json)
    (environment : Option Properties) : Except Failure String := do
  let id ← demand
    (.validation "invalid_uuid" "applicationId must be a UUID")
    (Uuid.read? applicationId)
  let runtime ← normalizeNodeRuntimeConfig true runtime
  let custom ← normalizeApplicationEnvironmentBundle environment
  return environmentText
    (withCustom (textsOf custom) (managedValues id runtime))

/-- What systemd reads in the file: the assignments in their order. -/
def assignments (text : String) : List (String × String) :=
  (Lib.EnvironmentFile.read text.toList).map fun a =>
    (String.ofList a.1, String.ofList a.2)

end Yunpanel.Environment
