/-
Host names and identities as the domain registry normalizes them.

# What is asked of the platform

Unicode normalization, `domainToASCII`, `isIP` and the URL parser are the
platform's. `Net` is what the program calls of them, with the laws it
relies on: normalizing ASCII changes nothing, a name that is already in the
form `domainToASCII` produces is left alone, and an address is written in
the alphabet of addresses and canonical from then on.

# What is here

`normalizeDomainName` down to `normalizeDomainSet` are what every name of a
domain goes through, `normalizeProxyHost` what an upstream host goes
through, `assertUuid` what an id given by a caller goes through.
-/
import Yunpanel.Js.Value
import Mathlib.Data.List.Sort

namespace Yunpanel.Domains

-- ====== failures

/-- Why a call of the registry rejects: its own error, a write that failed,
or a file that is no store of domains. -/
inductive Failure where
  | registry (code message : String) (status : Nat)
  | store
  | invalidStore
  deriving DecidableEq, Repr

/-- `new DomainRegistryError(code, message, status)` -/
def refuse (code message : String) (status : Nat := 400) : Failure :=
  .registry code message status

-- ====== platform

/-- `[a-z0-9]` -/
def isAlnum (c : Char) : Bool := Text.isDigit c || Text.isLower c

/-- A character of a normalized host name. -/
def isHostChar (c : Char) : Bool := isAlnum c || c == '-' || c == '.'

inductive IpVersion where
  | v4 | v6
  deriving DecidableEq, Repr

/-- What the program calls of the platform. -/
structure Net where
  /-- `s.normalize('NFC')` -/
  nfc : String → String
  domainToASCII : String → String
  isIP : String → Option IpVersion
  /-- ``new URL(`http://[${s}]/`).hostname.slice(1, -1)`` -/
  ipv6Hostname : String → Option String
  nfc_ascii : ∀ s, (∀ c ∈ s.toList, c.toNat < 128) → nfc s = s
  domainToASCII_stable : ∀ s name, name.toList.all isHostChar = true →
    String.ofList (Text.stripDot (Text.lower (domainToASCII s).toList))
      = name → domainToASCII name = name
  isIP_v4 : ∀ s, isIP s = some .v4 →
    s.toList.length ≤ 15 ∧ s ≠ ""
      ∧ ∀ c ∈ s.toList, Text.isDigit c = true ∨ c = '.'
  isIP_v6 : ∀ s, isIP s = some .v6 → ':' ∈ s.toList
  ipv6Hostname_canonical : ∀ s host, isIP s = some .v6 →
    ipv6Hostname s = some host → isIP host = some .v6
      ∧ ipv6Hostname host = some host ∧ host.toList.length ≤ 39
      ∧ ∀ c ∈ host.toList, Text.isHex c = true ∨ c = ':'

-- ====== host names

/-- `/[\u3002\uff0e\uff61]/` -/
def isWideDot (c : Char) : Bool :=
  c.toNat == 0x3002 || c.toNat == 0xff0e || c.toNat == 0xff61

def normalizeDomainName (net : Net) (value : String) : String :=
  let dotted := (Text.trim value.toList).map
    fun c => if isWideDot c then '.' else c
  let input := Text.stripDot dotted
  if input.isEmpty then ""
  else if input.contains '*' then String.ofList (Text.lower input)
  else if input.any Text.isControl then ""
  else
    let ascii := net.domainToASCII (net.nfc (String.ofList input))
    String.ofList (Text.stripDot (Text.lower ascii.toList))

/-- `/^[a-z0-9](?:[a-z0-9-]*[a-z0-9])?$/` -/
def isLabel (label : List Char) : Bool :=
  label.head?.any isAlnum && label.getLast?.any isAlnum
    && label.all fun c => isAlnum c || c == '-'

/-- `validateDomainName` and the throw of `assertDomainName`; the registry
rethrows it as its own error. -/
def assertDomainName (net : Net) (value : String) :
    Except Failure String :=
  let domain := normalizeDomainName net value
  if domain = "" ∨ 253 < Text.length domain then
    .error (refuse "invalid_domain_length"
      "Domain must contain 1 to 253 characters")
  else if domain.toList.contains '*' then
    .error (refuse "wildcard_not_supported"
      "Wildcard domains are not supported in V1")
  else
    let labels := Text.splitDots domain.toList
    if labels.length < 2 then
      .error (refuse "fqdn_required"
        "A fully qualified domain name is required")
    else
      match labels.find? fun label =>
          decide (label.length < 1 ∨ 63 < label.length)
            || !isLabel label with
      | some label =>
          if label.length < 1 ∨ 63 < label.length then
            .error (refuse "invalid_domain_label"
              "Each domain label must contain 1 to 63 characters")
          else
            .error (refuse "invalid_domain_label"
              ("Domain labels may only contain letters, numbers and "
                ++ "interior hyphens"))
      | none => .ok domain

/-- The names of one domain. -/
structure DomainSet where
  primary : String
  aliases : List String
  deriving DecidableEq, Repr

/-- The loop of `normalizeDomainSet`: each alias once, and none that is
there already. -/
def normalizeAliases (net : Net) (seen : List String) :
    List String → Except Failure (List String)
  | [] => .ok []
  | name :: rest => do
      let normalized ← assertDomainName net name
      if normalized ∈ seen then normalizeAliases net seen rest
      else
        let others ← normalizeAliases net (normalized :: seen) rest
        return normalized :: others

/-- `normalizeDomainSet`, under the registry's `normalizeDomains`. -/
def normalizeDomains (net : Net) (primaryDomain : String)
    (aliases : List String) : Except Failure DomainSet := do
  let primary ← assertDomainName net primaryDomain
  let aliases ← normalizeAliases net [primary] aliases
  if 20 < aliases.length then
    throw (refuse "too_many_aliases"
      "A domain may have at most 20 aliases in V1")
  return { primary, aliases }

-- ====== upstream hosts

/-- `/^[a-z0-9](?:[a-z0-9-]{0,61}[a-z0-9])?$/` -/
def isProxyLabel (label : List Char) : Bool :=
  isLabel label && decide (label.length ≤ 63)

/-- `/[/:?#@[\]]/` -/
def isUrlChar (c : Char) : Bool := "/:?#@[]".toList.contains c

/-- The last part of `normalizeProxyHost`, for what is not an address. -/
def dnsHost (net : Net) (input : List Char) : Option String :=
  if input.any isUrlChar then none
  else
    let ascii := Text.stripDot
      (Text.lower (net.domainToASCII (String.ofList input)).toList)
    if ascii.isEmpty
        || decide (253 < Text.length (String.ofList ascii))
        || (Text.splitDots ascii).any (fun l => !isProxyLabel l)
    then none
    else some (String.ofList ascii)

/-- `normalizeProxyHost` once the brackets are off. -/
def addressOrName (net : Net) (input : List Char) : Option String :=
  match net.isIP (String.ofList input) with
  | some .v4 => some (String.ofList input)
  | some .v6 => net.ipv6Hostname (String.ofList input)
  | none => dnsHost net input

def normalizeProxyHost (net : Net) (value : String) : Option String :=
  let trimmed := Text.trim value.toList
  if trimmed.isEmpty || decide (253 < Text.length (String.ofList trimmed))
      || value.toList.any (fun c => c.toNat ≤ 0x20 || c.toNat == 0x7f) then
    none
  else
    let bracketed := trimmed.head? == some '['
      && trimmed.getLast? == some ']'
    if (trimmed.contains '[' || trimmed.contains ']') && !bracketed then
      none
    else
      addressOrName net
        (if bracketed then (trimmed.drop 1).dropLast else trimmed)

-- ====== UUIDs

/-- `assertUuid`: the id in lower case, where it is one. -/
def assertUuid (value : String) : Option String :=
  let lowered := Text.lower value.toList
  if Text.shape uuidShape lowered then some (String.ofList lowered)
  else none

/-- `normalizeWebsiteId` -/
def normalizeWebsiteId : Option String → Except Failure (Option String)
  | none => .ok none
  | some value =>
      match assertUuid value with
      | some id => .ok (some id)
      | none =>
          .error (refuse "invalid_website_id"
            "websiteId must be a valid Website UUID")

end Yunpanel.Domains
