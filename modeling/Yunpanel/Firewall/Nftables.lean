/-
The nftables manager: putting a ruleset in force, and taking it back.

# The host

What is in force (`live`) and what `/etc/nftables.conf` holds, which is
loaded at the next boot. The program `nft` is given by `Nft`: how it reads
a file and how it prints a ruleset. What it does with what it read is
`Lib.Nft.load`.

# What may go wrong

Every step answers from `Applying` or `Restoring`: whether a file can be
written, whether `nft` can be run, what the units say, and what the live
ruleset becomes when a unit is started. A file under `/tmp` and one that a
failed write leaves beside the configuration are not part of the host.
-/
import Yunpanel.Js.Lines
import Yunpanel.Lib.Exec
import Yunpanel.Lib.Nft

namespace Yunpanel.Firewall

open Lib Lib.Exec Lib.Nft

-- ====== errors

/-- What a call rejects with: a `NftablesManagerError`, or an error of the
system, which is passed on. -/
inductive Rejection where
  | manager (code message : String)
  | system (message : String)
  deriving DecidableEq

/-- `error.stderr || error.stdout || error.message` -/
def Rejection.message : Rejection → String
  | .manager _ message => message
  | .system message => message

-- ====== patterns

/-- A word of a pattern, in any case; what stands behind it. -/
def word : List Char → List Char → Option (List Char)
  | [], cs => some cs
  | _ :: _, [] => none
  | w :: ws, c :: cs => if c.toLower = w then word ws cs else none

/-- `\s+` -/
def spaces : List Char → Option (List Char)
  | [] => none
  | c :: cs =>
      if Text.isSpace c then some (cs.dropWhile Text.isSpace) else none

/-- A pattern matches somewhere in a text. -/
def occurs (p : List Char → Option (List Char)) (cs : List Char) : Bool :=
  cs.tails.any fun t => (p t).isSome

/-- `tcp\s+dport\s+` -/
def tcpDport (cs : List Char) : Option (List Char) :=
  word "tcp".toList cs >>= spaces >>= word "dport".toList >>= spaces

/-- `\s+accept` -/
def accept (cs : List Char) : Option (List Char) :=
  spaces cs >>= word "accept".toList

/-- ``new RegExp(`tcp\s+dport\s+${portNum}\s+accept`, 'i')`` -/
def singlePort (port : Int) (cs : List Char) : Option (List Char) :=
  tcpDport cs >>= word (toString port).toList >>= accept

/-- `/tcp\s+dport\s+\{([^}]+)\}\s+accept/i`, with what stands between the
braces. -/
def multiPort (cs : List Char) : Option (List Char × List Char) := do
  let opened ← tcpDport cs >>= word ['\x7b']
  let inner := opened.takeWhile (· ≠ '\x7d')
  let rest ← word ['\x7d'] (opened.drop inner.length) >>= accept
  if inner = [] then none else some (inner, rest)

/-- The matches of `multiPort` one after the other; each goes on behind the
one before. -/
def multiPorts : Nat → List Char → List (List Char)
  | 0, _ => []
  | _, [] => []
  | n + 1, c :: cs =>
      match multiPort (c :: cs) with
      | some (inner, rest) => inner :: multiPorts n rest
      | none => multiPorts n cs

-- ====== host

/-- How `nft` reads a file and prints a ruleset. -/
structure Nft where
  read : String → Except String (List Command)
  list : Ruleset → String

/-- What `nft -f` makes of a ruleset. -/
def Nft.load (nft : Nft) (text : String) (r : Ruleset) :
    Except String Ruleset := do
  let commands ← nft.read text
  Lib.Nft.load commands r

structure Host where
  live : Ruleset
  /-- `/etc/nftables.conf` -/
  persisted : Option String
  deriving DecidableEq

abbrev Run (α : Type) := Exec Host Rejection α

/-- How writing a file went: the message of the step that failed. -/
abbrev Fate := Option String

def Fate.check : Fate → Run Unit
  | none => pure ()
  | some message => fail (.system message)

/-- A file that is written under `/tmp` and given to `nft`. -/
structure FileRun where
  written : Fate := none
  run : Fate := none

/-- What the ruleset becomes, or the message of what failed. -/
def FileRun.outcome (f : FileRun) (nft : Nft) (text : String) (r : Ruleset) :
    Except String Ruleset :=
  match f.written, f.run with
  | some message, _ => .error message
  | none, some message => .error message
  | none, none => nft.load text r

/-- `nft -f` of a file written for it. -/
def nftFile (nft : Nft) (f : FileRun) (text : String) : Run Unit := do
  match f.outcome nft text (← Exec.read Host.live) with
  | .ok live => modify fun h => { h with live }
  | .error message => fail (.system message)

/-- `atomicWrite(configPath, content, 0o755)` -/
structure AtomicWrite where
  written : Fate := none
  chmod : Fate := none
  renamed : Fate := none

def AtomicWrite.fate (w : AtomicWrite) : Fate :=
  w.written <|> w.chmod <|> w.renamed

def atomicWrite (w : AtomicWrite) (content : String) : Run Unit := do
  w.fate.check
  modify fun h => { h with persisted := some content }

/-- The bouncer's unit: what `is-active` prints, unless it fails, and what
the live ruleset becomes when the unit is restarted. -/
structure Bouncer where
  stdout : Option String := none
  restart : Ruleset → Ruleset := id

def printsActive (stdout : String) : Bool :=
  Text.trim stdout.toList == "active".toList

/-- What is found of the other firewalls: what `ufw status` prints, if ufw
is there and the program can be run, and what `systemctl is-active` prints
of firewalld. -/
structure OtherFirewalls where
  ufwStatus : Option String := none
  firewalld : Option String := none

/-- `/status:\s*active/i` -/
def saysActive (cs : List Char) : Option (List Char) := do
  let rest ← word "status:".toList cs
  word "active".toList (rest.dropWhile Text.isSpace)

/-- `inspectConflictingFirewalls().conflictDetected` -/
def OtherFirewalls.conflictDetected (o : OtherFirewalls) : Bool :=
  o.ufwStatus.any (fun stdout => occurs saysActive stdout.toList)
    || o.firewalld.any printsActive

-- ====== validation

/-- A port as it was given, and the integer `Number` makes of it. -/
structure SshPort where
  text : String
  number : Option Int
  deriving DecidableEq

def defaultSshPort : SshPort := ⟨"22", some 22⟩

def invalidSshPort (port : SshPort) : Rejection :=
  .manager "invalid_ssh_port"
    ("SSH port must be a valid integer between 1 and 65535: " ++ port.text)

def sshLockoutRisk (port : Int) : Rejection :=
  .manager "ssh_lockout_risk"
    ("Candidate ruleset does not explicitly allow SSH port "
      ++ toString port
      ++ " in TCP accept rules. Apply aborted to prevent server lockout.")

/-- The rules of a candidate accept a port. -/
def allowsPort (content : String) (port : Int) : Bool :=
  let cs := content.toList
  occurs (singlePort port) cs
    || (multiPorts cs.length cs).any fun inner =>
      ((inner.splitOn ',').map Text.trim).contains (toString port).toList

def assertSshPortAllowed (content : String) (sshPort : SshPort) :
    Except Rejection Unit :=
  match sshPort.number with
  | none => .error (invalidSshPort sshPort)
  | some port =>
      if port < 1 ∨ 65535 < port then .error (invalidSshPort sshPort)
      else if allowsPort content port then .ok ()
      else .error (sshLockoutRisk port)

def isBlank (text : String) : Bool := Text.trim text.toList == []

/-- `nft -c -f` looks at what `nft -f` would do. -/
def validateRulesetCandidate (nft : Nft) (f : FileRun) (content : String)
    (allowedSshPort : SshPort) (live : Ruleset) : Except Rejection Unit :=
  if isBlank content then
    .error (.manager "invalid_candidate"
      "Candidate ruleset content cannot be empty")
  else do
    assertSshPortAllowed content allowedSshPort
    match f.outcome nft content live with
    | .ok _ => .ok ()
    | .error message =>
        .error (.manager "candidate_syntax_error"
          ("nft syntax validation failed: "
            ++ String.ofList (Text.trim message.toList)))

-- ====== apply

/-- What `applyRuleset` is given; `rendered` is what the template makes of
the port and the options. -/
structure Apply where
  candidateContent : Option String := none
  allowedSshPort : SshPort := defaultSshPort
  rendered : Except Rejection String := .ok ""
  forceConflictOverride : Bool := false
  persist : Bool := true
  enableService : Bool := true

/-- What an `applyRuleset` meets on its way. -/
structure Applying where
  others : OtherFirewalls := {}
  checked : FileRun := {}
  /-- `nft list ruleset` can be run. -/
  listed : Bool := true
  applied : FileRun := {}
  putBack : FileRun := {}
  persisted : AtomicWrite := {}
  enabled : Bool := true
  /-- What starting the unit makes of the live ruleset. -/
  start : Ruleset → Ruleset := id
  bouncer : Bouncer := {}
  now : String := ""

def conflictingFirewall : Rejection :=
  .manager "conflicting_firewall_detected"
    "Conflicting firewall (UFW or firewalld) is currently active. UFW must be disabled to ensure nftables remains the single firewall authority."

/-- What is to be applied, after everything that is looked at before. -/
def contentToApply (nft : Nft) (request : Apply) (o : Applying)
    (live : Ruleset) : Except Rejection String :=
  if (o.others.conflictDetected && !request.forceConflictOverride) = true then
    .error conflictingFirewall
  else do
    let content ← match request.candidateContent with
      | some content => .ok content
      | none => request.rendered
    validateRulesetCandidate nft o.checked content request.allowedSshPort live
    return content

/-- Load what was listed before, as well as it goes. -/
def putBack (nft : Nft) (f : FileRun) (current : String) : Run Unit :=
  if isBlank current then pure ()
  else do
    let _ ← caught (nftFile nft f current)
    return ()

/-- What a `rollbackRuleset` meets on its way. -/
structure Restoring where
  /-- `nft flush ruleset` -/
  flushed : Fate := none
  applied : FileRun := {}
  persisted : AtomicWrite := {}
  bouncer : Bouncer := {}

def flushRuleset : String := "flush ruleset"

def rollbackFailed (message : String) : Rejection :=
  .manager "rollback_failed"
    ("Failed to rollback nftables ruleset: " ++ message)

end Yunpanel.Firewall
