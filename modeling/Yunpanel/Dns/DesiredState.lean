/-
The records the panel wants in a zone, for one serial.

What `templateRecords` and `mailRecords` put together is a list of requests;
`record` is what every request goes through, whatever its source. The SOA
record is made here, since it is the one that has the serial.
-/
import Yunpanel.Dns.Zone
import Yunpanel.Js.Stringify

namespace Yunpanel.Dns

-- ====== names

def isOwnerChar (c : Char) : Bool :=
  Text.isDigit c || Text.isLower c || c == '-' || c == '_' || c == '.' || c == '*'

/-- A name as `dnsOwner` and the normalization of a domain return it. -/
structure Owner where
  text : String
  nonempty : text ≠ ""
  allowed : ∀ c ∈ text.toList, isOwnerChar c = true
  relative : text.toList.getLast? ≠ some '.'

-- ====== requests

/-- What `record` is called with. -/
structure RecordRequest where
  key : String
  owner : Owner
  type : RecordType
  ttl : Option Nat
  values : List (List Char)

structure SoaSettings where
  primaryNs : List Char
  rname : List Char
  refresh : Nat
  retry : Nat
  expire : Nat
  minimum : Nat
  ttl : Nat

/-- What a zone is rendered from, the serial aside. -/
structure Intent where
  zoneName : Owner
  soa : SoaSettings
  templateVersion : Nat
  templateRecords : List RecordRequest
  mailRecords : List RecordRequest

namespace DesiredState

/-- `/^[a-z][a-z0-9-]{1,63}$/` -/
def isRecordKey (key : String) : Bool :=
  match key.toList with
  | [] => false
  | c :: cs => Text.isLower c && 1 ≤ cs.length && cs.length ≤ 63
      && cs.all fun c => Text.isLower c || Text.isDigit c || c == '-'

def ttl (value : Option Nat) (fallback : Nat) : Except Failure Nat :=
  let selected := value.getD fallback
  if selected < 60 || 86400 < selected then
    .error (refuse "dns_zone_ttl_invalid"
      "DNS record TTL must be between 60 and 86400 seconds")
  else .ok selected

def record (p : Platform) (request : RecordRequest) (source : Source)
    (templateVersion : Option Int) (defaultTtl : Nat) :
    Except Failure Record :=
  if !isRecordKey request.key || request.values.isEmpty
      || 16 < request.values.length then
    .error (invalidRecord "DNS managed record is invalid")
  else do
    let selected ← ttl request.ttl defaultTtl
    let values ← request.values.mapM (recordValue p request.type)
    return {
      key := request.key
      owner := request.owner.text
      type := request.type
      ttl := selected
      values := values
      source := source
      templateVersion := templateVersion }

/-- The value the SOA record is asked for with. -/
def soaValue (soa : SoaSettings) (serial : Nat) : List Char :=
  spaced [soa.primaryNs, soa.rname, decimal serial, decimal soa.refresh,
    decimal soa.retry, decimal soa.expire, decimal soa.minimum]

def soaRecord (p : Platform) (intent : Intent) (serial : Nat) :
    Except Failure Record :=
  record p {
    key := "zone-soa"
    owner := intent.zoneName
    type := .soa
    ttl := some intent.soa.ttl
    values := [soaValue intent.soa serial] }
    .template (some intent.templateVersion) intent.soa.ttl

/-- The loop of `validateRecordSet`, with the records so far. -/
def sourceConflict (seen : List Record) : List Record → Option Failure
  | [] => none
  | entry :: records =>
      match seen.find? fun other =>
          other.owner = entry.owner ∧ other.type = entry.type with
      | some existing => some (refuse "dns_zone_source_conflict"
          ("DNS sources conflict on " ++ entry.owner ++ " " ++ entry.type.text
            ++ " (" ++ existing.source.text ++ "/" ++ entry.source.text ++ ")")
          409)
      | none => sourceConflict (entry :: seen) records

def validateRecordSet (records : List Record) : Except Failure (List Record) :=
  match sourceConflict [] records with
  | some conflict => .error conflict
  | none =>
      if records.any fun entry => entry.type ≠ .cname
          && records.any fun other => other.type = .cname
            && other.owner = entry.owner then
        .error (refuse "dns_zone_cname_conflict"
          "CNAME owner cannot coexist with another record type" 409)
      else .ok records

/-- `renderDnsZoneDesiredState`: the records of its result. -/
def render (p : Platform) (intent : Intent) (serial : Nat) :
    Except Failure (List Record) :=
  if serial < 1 || 4294967295 < serial then
    .error (refuse "dns_zone_serial_invalid" "DNS zone serial is invalid")
  else do
    let soa ← soaRecord p intent serial
    let template ← intent.templateRecords.mapM fun request =>
      record p request .template (some intent.templateVersion) intent.soa.ttl
    let mail ← intent.mailRecords.mapM fun request =>
      record p request .mail none intent.soa.ttl
    validateRecordSet (soa :: template ++ mail)

end DesiredState

end Yunpanel.Dns
