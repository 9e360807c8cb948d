/-
The values of DNS records: what the panel accepts, what it sends to
PowerDNS, and how it reads that back.

`recordValue` is what a value given by a caller or a template goes through,
`powerDnsContent` writes what came out in the form of the PowerDNS API, and
`canonicalContent` shows it in the panel again. Values are lists of
characters here.
-/
import Yunpanel.Domains.Names

namespace Yunpanel.Dns

open Domains (Net)

-- ====== failures

/-- Why a call of the DNS code rejects, with the status of the error. -/
inductive Failure where
  | refused (code message : String) (status : Nat)
  deriving DecidableEq, Repr

def refuse (code message : String) (status : Nat := 400) : Failure :=
  .refused code message status

/-- The platform, where an address stays one in lower case. -/
structure Platform extends Net where
  isIP_lower : ∀ cs, isIP (String.ofList cs) = some .v6 →
    isIP (String.ofList (Text.lower cs)) = some .v6

-- ====== types

/-- `SUPPORTED_TYPES` -/
inductive RecordType where
  | soa | ns | a | aaaa | cname | mx | txt | caa | srv
  deriving DecidableEq, Repr

def RecordType.text : RecordType → String
  | soa => "SOA"
  | ns => "NS"
  | a => "A"
  | aaaa => "AAAA"
  | cname => "CNAME"
  | mx => "MX"
  | txt => "TXT"
  | caa => "CAA"
  | srv => "SRV"

-- ====== patterns

/-- `value.split(/\s+/)` -/
def splitSpaces : List Char → List (List Char)
  | [] => [[]]
  | c :: cs =>
      if Text.isSpace c then
        if cs.head?.any Text.isSpace then splitSpaces cs
        else [] :: splitSpaces cs
      else
        match splitSpaces cs with
        | [] => [[c]]
        | word :: words => (c :: word) :: words

/-- The words of a template string, one space apart. -/
def spaced (words : List (List Char)) : List Char :=
  [' '].intercalate words

def decimal (n : Nat) : List Char := Nat.toDigits 10 n

/-- What `.` does not match. -/
def isLineEnd (c : Char) : Bool :=
  [0x0a, 0x0d, 0x2028, 0x2029].contains c.toNat

/-- `[a-z0-9-]`, whatever the case of the letters. -/
def isTagChar (c : Char) : Bool :=
  Text.isDigit c || Text.isLower c || Text.isUpper c || c == '-'

/-- `/^(\d+)\s+([a-z0-9-]+)\s+(.+)$/i`: the flags, the tag and the value.
The spaces before the value are as many as leave it a character. -/
def matchCaa (value : List Char) :
    Option (List Char × List Char × List Char) :=
  let flags := value.takeWhile Text.isDigit
  let afterFlags := value.dropWhile Text.isDigit
  let tagged := afterFlags.dropWhile Text.isSpace
  let tag := tagged.takeWhile isTagChar
  let afterTag := tagged.dropWhile isTagChar
  let rest := afterTag.dropWhile Text.isSpace
  let content := if rest.isEmpty then afterTag.tail.getLast?.toList else rest
  if flags.isEmpty || !afterFlags.head?.any Text.isSpace || tag.isEmpty
      || !afterTag.head?.any Text.isSpace || content.isEmpty
      || content.any isLineEnd then none
  else some (flags, tag, content)

-- ====== desired state

namespace DesiredState

def invalidRecord (message : String) : Failure :=
  refuse "dns_zone_record_invalid" message

/-- `domain(value, field)` -/
def domain (net : Net) (value : List Char) (field : String) :
    Except Failure (List Char) :=
  match Domains.normalizeDomains net (String.ofList value) [] with
  | .ok names => .ok names.primary.toList
  | .error _ => .error (refuse "dns_zone_domain_invalid" (field ++ " is invalid"))

def fqdn (net : Net) (value : List Char) (field : String) :
    Except Failure (List Char) :=
  domain net (Text.stripDot value) field

def uint (value : List Char) (field : String) (max : Nat := 65535) :
    Except Failure Nat :=
  if !value.all Text.isDigit || value.length < 1 || 10 < value.length then
    .error (invalidRecord (field ++ " is invalid"))
  else if max < Nat.ofDigitChars 10 value 0 then
    .error (invalidRecord (field ++ " is invalid"))
  else .ok (Nat.ofDigitChars 10 value 0)

/-- `/[\r\n\u0000]/` -/
def isForbidden (c : Char) : Bool := c == '\r' || c == '\n' || c.toNat == 0

/-- What the value of a record of some type is normalized to. -/
def normalizeValue (p : Platform) (type : RecordType)
    (normalized : List Char) : Except Failure (List Char) :=
  match type with
  | .a =>
      if p.isIP (String.ofList normalized) = some .v4 then .ok normalized
      else .error (invalidRecord "A record value is invalid")
  | .aaaa =>
      if p.isIP (String.ofList normalized) = some .v6 then
        .ok (Text.lower normalized)
      else .error (invalidRecord "AAAA record value is invalid")
  | .ns => fqdn p.toNet normalized "NS target"
  | .cname => fqdn p.toNet normalized "CNAME target"
  | .mx =>
      match splitSpaces normalized with
      | [priority, target] => do
          let priority ← uint priority "MX priority"
          let target ← fqdn p.toNet target "MX target"
          return spaced [decimal priority, target]
      | _ => .error (invalidRecord "MX record requires priority and target")
  | .srv =>
      match splitSpaces normalized with
      | [priority, weight, port, target] => do
          let priority ← uint priority "SRV priority"
          let weight ← uint weight "SRV weight"
          let port ← uint port "SRV port"
          let target ← fqdn p.toNet target "SRV target"
          return spaced [decimal priority, decimal weight, decimal port, target]
      | _ => .error (invalidRecord
          "SRV record requires priority, weight, port and target")
  | .caa =>
      match (matchCaa normalized).filter fun parts =>
          parts.1.length ≤ 3 && parts.2.1.length ≤ 15 with
      | some (flags, tag, value) => do
          let flags ← uint flags "CAA flags" 255
          return spaced [decimal flags, Text.lower tag, value]
      | none => .error (invalidRecord
          "CAA record requires flags, tag and value")
  | .soa =>
      match splitSpaces normalized with
      | [primaryNs, rname, serial, refresh, retry, expire, minimum] => do
          let primaryNs ← fqdn p.toNet primaryNs "SOA primary nameserver"
          let rname ← fqdn p.toNet rname "SOA responsible mailbox"
          let serial ← uint serial "SOA serial" 4294967295
          let refresh ← uint refresh "SOA refresh" 2419200
          let retry ← uint retry "SOA retry" 2419200
          let expire ← uint expire "SOA expire" 4294967295
          let minimum ← uint minimum "SOA minimum" 2419200
          return spaced [primaryNs, rname, decimal serial, decimal refresh,
            decimal retry, decimal expire, decimal minimum]
      | _ => .error (invalidRecord "SOA record value is invalid")
  | .txt => .ok normalized

def recordValue (p : Platform) (type : RecordType) (value : List Char) :
    Except Failure (List Char) :=
  if Text.length (String.ofList value) < 1
      || 4096 < Text.length (String.ofList value)
      || value.any isForbidden then
    .error (invalidRecord (type.text ++ " record value is invalid"))
  else normalizeValue p type (Text.trim value)

end DesiredState

-- ====== zone manager

/-- `fqdn(value)` of the zone manager. -/
def fqdn (value : List Char) : List Char := Text.stripDot value ++ ['.']

def escapeQuoted (value : List Char) : List Char :=
  value.flatMap fun c => if c == '\\' || c == '"' then ['\\', c] else [c]

def quoted (value : List Char) : List Char :=
  '"' :: (escapeQuoted value ++ ['"'])

/-- The loop of `txtChunks`, with the chunk so far and its bytes. -/
def txtChunksFrom (current : List Char) (bytes : Nat) :
    List Char → List (List Char)
  | [] => if current.isEmpty then [] else [current]
  | c :: cs =>
      if 240 < bytes + c.utf8Size && !current.isEmpty then
        current :: txtChunksFrom [c] c.utf8Size cs
      else txtChunksFrom (current ++ [c]) (bytes + c.utf8Size) cs

def txtChunks (value : List Char) : List (List Char) :=
  match txtChunksFrom [] 0 value with
  | [] => [[]]
  | chunks => chunks

/-- `value.replace(/^"|"$/g, '')` -/
def stripQuotes (value : List Char) : List Char :=
  let value := if value.head? == some '"' then value.tail else value
  if value.getLast? == some '"' then value.dropLast else value

/-- A variable of a destructured split; a missing one is `undefined`. -/
def part (words : List (List Char)) (i : Nat) : List Char :=
  words.getD i "undefined".toList

def powerDnsContent (type : RecordType) (value : List Char) :
    Except Failure (List Char) :=
  let words := splitSpaces value
  match type with
  | .ns | .cname => .ok (fqdn value)
  | .mx => .ok (spaced [part words 0, fqdn (part words 1)])
  | .srv => .ok (spaced [part words 0, part words 1, part words 2,
      fqdn (part words 3)])
  | .soa => .ok (spaced [fqdn (part words 0), fqdn (part words 1),
      part words 2, part words 3, part words 4, part words 5, part words 6])
  | .txt => .ok (spaced ((txtChunks value).map quoted))
  | .caa =>
      match matchCaa value with
      | some (flags, tag, content) =>
          .ok (spaced [flags, tag, quoted (stripQuotes content)])
      | none => .error (refuse "powerdns_zone_record_invalid"
          "CAA record value is invalid")
  | .a | .aaaa => .ok value

-- ====== manual records

/-- The loop of `unquoteSequence`, within quotes or between them; nothing
where the text is not a sequence of quoted strings. -/
def unquoteFrom (within : Bool) : List Char → Option (List Char)
  | [] => if within then none else some []
  | c :: cs =>
      if within then
        if c == '\\' then
          match cs with
          | [] => none
          | d :: ds => (unquoteFrom true ds).map (d :: ·)
        else if c == '"' then unquoteFrom false cs
        else (unquoteFrom true cs).map (c :: ·)
      else if Text.isSpace c then unquoteFrom false cs
      else if c == '"' then unquoteFrom true cs
      else none

def unquoteSequence (value : List Char) : List Char :=
  let input := Text.trim value
  if input.head? == some '"' then (unquoteFrom false input).getD input
  else input

/-- Shows the words of a content, where there are as many as there should
be and none is empty. -/
def canonicalWords (value : List Char) (count : Nat)
    (shown : List (List Char) → List (List Char)) : List Char :=
  let words := splitSpaces value
  if words.length == count && words.all (!·.isEmpty) then spaced (shown words)
  else value

def canonicalContent (type : RecordType) (content : List Char) : List Char :=
  let value := Text.trim content
  match type with
  | .ns | .cname => Text.stripDot value
  | .mx => canonicalWords value 2 fun words =>
      [part words 0, Text.stripDot (part words 1)]
  | .srv => canonicalWords value 4 fun words =>
      [part words 0, part words 1, part words 2,
        Text.stripDot (part words 3)]
  | .soa => canonicalWords value 7 fun words =>
      [Text.stripDot (part words 0), Text.stripDot (part words 1),
        part words 2, part words 3, part words 4, part words 5, part words 6]
  | .txt => unquoteSequence value
  | .caa =>
      match matchCaa value with
      | some (flags, tag, content) =>
          spaced [flags, Text.lower tag, unquoteSequence content]
      | none => value
  | .a | .aaaa => value

end Yunpanel.Dns
