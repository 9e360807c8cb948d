/-
The aliases of the managed mail state as the templates normalize them.

Aliases come as a list in any order. Each is normalized on its own and
refused where its source was there before; then the list is sorted.

Aliases forward to addresses, which may be sources of aliases themselves.
`visit` goes through them depth first and refuses a source it is inside of
already. It gets more fuel than there are sources, so it never runs out
(`visit_fuel`).
-/
import Yunpanel.Domains.Names
import Yunpanel.Js.Fields
import Yunpanel.Js.Lines
import Yunpanel.Secrets.Keys

namespace Yunpanel.Mail

open Json
open Domains (Net)

-- ====== failures

/-- Why a template refuses: `MailTemplateError`, `MailQuotaTemplateError`
or `MailSqlTemplateError`. -/
inductive Failure where
  | template (code message : String)
  | quota (code message : String)
  | sql (code message : String)
  deriving DecidableEq, Repr

def ensure (e : Failure) (condition : Bool) : Except Failure Unit :=
  if condition then .ok () else .error e

def demand {α : Type} (e : Failure) : Option α → Except Failure α
  | some a => .ok a
  | none => .error e

/-- The loop of every list: one value after the other, each in view of what
was made of those before. -/
def collect {α : Type} (read : List α → Json → Except Failure α) :
    List α → List Json → Except Failure (List α)
  | done, [] => .ok done
  | done, value :: rest => do
      let a ← read done value
      collect read (done ++ [a]) rest

-- ====== domains

/-- `normalizeDomainSet(value, []).primary`, its error under another
code. -/
def normalizeDomain (net : Net) (code : String) (value : Json) :
    Except Failure String :=
  match Domains.normalizeDomains net (value.str?.getD "") [] with
  | .ok names => .ok names.primary
  | .error (.registry _ message _) => .error (.template code message)
  | .error _ => .error (.template code "")

-- ====== addresses

structure Address where
  address : String
  domain : String
  deriving DecidableEq, Repr

/-- `toLowerCase`, as far as what comes out is ASCII: the Kelvin sign is
the one character beside the capitals whose small letter is. -/
def lowerLocal (cs : List Char) : List Char :=
  cs.map fun c => if c.toNat = 0x212a then 'k' else c.toLower

/-- `[a-z0-9]` -/
def isLocalEnd (c : Char) : Bool := Text.isDigit c || Text.isLower c

/-- `[a-z0-9._+-]` -/
def isLocalChar (c : Char) : Bool :=
  isLocalEnd c || ['.', '_', '+', '-'].contains c

/-- `LOCAL_PART_PATTERN` -/
def isLocalPart (cs : List Char) : Bool :=
  cs.head?.any isLocalEnd && cs.getLast?.any isLocalEnd
    && cs.all isLocalChar && decide (cs.length ≤ 64)

def invalidAddress (message : String) : Failure :=
  .template "invalid_mailbox_address" message

def normalizeAddress (net : Net) (value : Json) :
    Except Failure Address := do
  let text ← demand
    (invalidAddress "Mailbox address must be a bounded canonical address")
    (value.str?.filter fun s => decide (Text.length s ≤ 254)
      && Text.trim s.toList == s.toList)
  let name := text.toList.takeWhile (· != '@')
  let host := (text.toList.dropWhile (· != '@')).drop 1
  ensure
    (invalidAddress "Mailbox address must contain one local part and domain")
    (text.toList.contains '@' && !name.isEmpty && !host.contains '@')
  let local_ := lowerLocal name
  ensure
    (invalidAddress "Mailbox local part contains unsupported characters")
    (isLocalPart local_ && !Text.includes local_ ['.', '.'])
  let domain ← normalizeDomain net "invalid_mailbox_address"
    (.str (String.ofList host))
  let address := String.ofList (local_ ++ '@' :: domain.toList)
  ensure
    (invalidAddress "Canonical mailbox address exceeds 254 characters")
    (decide (Text.length address ≤ 254))
  return { address, domain }

-- ====== aliases

structure Alias where
  source : String
  destinations : List String
  deriving DecidableEq, Repr

/-- `MAX_ALIASES`, and `MAX_MAILBOXES` -/
def maxMailboxes : Nat := 10000

/-- `MAX_ALIAS_DESTINATIONS` -/
def maxAliasDestinations : Nat := 20

/-- The loop over the destinations of an alias: each address once. -/
def normalizeDestinations (net : Net) :
    List String → List Json → Except Failure (List String)
  | done, [] => .ok done
  | done, value :: rest => do
      let destination ← normalizeAddress net value
      normalizeDestinations net
        (if done.contains destination.address then done
          else done ++ [destination.address]) rest

def readAlias (net : Net) (managed : List String) (done : List Alias)
    (value : Json) : Except Failure Alias := do
  let fields ← demand (.template "invalid_mail_alias"
      "Mail alias must contain only source and destinations")
    (Json.exactObject ["source", "destinations"] value)
  let source ← normalizeAddress net (Fields.get fields "source")
  ensure (.template "mail_alias_domain_unmanaged"
      ("Mail alias source must belong to an explicitly managed mail "
        ++ "domain"))
    (managed.contains source.domain)
  ensure (.template "duplicate_mail_alias"
      "Mail alias sources must be unique after canonicalization")
    (!(done.map Alias.source).contains source.address)
  let values ← demand (.template "invalid_mail_alias_destinations"
      "Mail alias must contain 1 to 20 destinations")
    ((Fields.get fields "destinations").arr?.filter fun values =>
      decide (1 ≤ values.length ∧ values.length ≤ maxAliasDestinations))
  let destinations ← normalizeDestinations net [] values
  return { source := source.address, destinations := Text.sort destinations }

def aliasCycle : Failure :=
  .template "mail_alias_cycle" "Mail aliases must not contain forwarding cycles"

/-- `destinationsBySource.get(source)` -/
def destinationsOf (aliases : List Alias) (source : String) :
    Option (List String) :=
  (aliases.find? fun entry => entry.source == source).map Alias.destinations

/-- `visit`: the sources that are visited after it. -/
def visit (aliases : List Alias) :
    Nat → List String → List String → String → Except Failure (List String)
  | 0, _, _, _ => .error aliasCycle
  | fuel + 1, visiting, visited, source =>
      if visiting.contains source then .error aliasCycle
      else if visited.contains source then .ok visited
      else do
        let visited ← ((destinationsOf aliases source).getD []).foldlM
          (fun visited destination =>
            if (destinationsOf aliases destination).isSome then
              visit aliases fuel (source :: visiting) visited destination
            else .ok visited)
          visited
        return source :: visited

/-- The aliases forward in no circle. -/
def checkCycles (aliases : List Alias) : Except Failure Unit := do
  let _ ← (aliases.map Alias.source).foldlM
    (visit aliases (aliases.length + 1) []) []
  return ()

def normalizeAliases (net : Net) (managed : List String) (aliases : Json) :
    Except Failure (List Alias) := do
  let values ← demand (.template "invalid_mail_aliases"
    "Managed mail aliases must be an array") aliases.arr?
  ensure (.template "too_many_mail_aliases"
      "At most 10000 managed mail aliases are supported")
    (decide (values.length ≤ maxMailboxes))
  let normalized ← collect (readAlias net managed) [] values
  let bySource := Text.sortOn Alias.source normalized
  checkCycles bySource
  return bySource

end Yunpanel.Mail
