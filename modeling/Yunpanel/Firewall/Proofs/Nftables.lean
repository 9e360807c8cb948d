/-
When a ruleset that could not be put in force has left nothing behind, and
when one that was in force before comes back.

# What the manager misses

Putting the old ruleset back after a failure loads what was listed before
without a flush, on top of what is still in force: every rule is then there
twice. A configuration that cannot be written leaves the new ruleset in
force. Taking back an empty ruleset leaves the configuration of the new
one for the next boot. And a listing in which the words `flush ruleset`
stand, in a comment of a rule, is loaded without a flush.

`Undone` and `Reversible` say when none of this shows.
-/
import Yunpanel.Firewall.Nftables

namespace Yunpanel.Firewall

open Lib Lib.Exec Lib.Nft

variable {nft : Nft} {sha256 : String → String} {h : Host}

-- ====== listings

/-- The listing of a ruleset recreates it, also behind a flush, and is
blank only where there is nothing to recreate. -/
structure Listed (nft : Nft) (r : Ruleset) : Prop where
  recreates : nft.read (nft.list r) = .ok r.declarations
  flushed : nft.read (flushRuleset ++ "\n\n" ++ nft.list r)
    = .ok (.flush :: r.declarations)
  blank : isBlank (nft.list r) = true ↔ r.chains = []

namespace Listed

variable {r : Ruleset} (listed : Listed nft r)
include listed

theorem load (s : Ruleset) : nft.load (nft.list r) s = .ok (r.onto s) := by
  unfold Nft.load
  rw [listed.recreates]
  exact Ruleset.load_declarations r s

end Listed

-- ====== pieces

/-- Nothing hinders a file from being written and `nft` from being run. -/
def FileRun.runs (f : FileRun) : Prop := f.written = none ∧ f.run = none

variable {f : FileRun} {text message previous : String} {w : AtomicWrite}
  {now t : Host} {a : RolledBack}

section Applying

variable {request : Apply} {o : Applying} {content : String}

/-- The text the listing ends in, or none where it fails. -/
def listing (nft : Nft) (o : Applying) (h : Host) : String :=
  if o.listed then nft.list h.live else ""

/-- When a call that rejects has changed nothing: where `nft` refuses the
content, the listing is not put back or has no rule; where the
configuration cannot be written, the content left the ruleset as it was. -/
structure Undone (nft : Nft) (request : Apply) (o : Applying) (h : Host) :
    Prop where
  refused : ∀ content message,
    contentToApply nft request o h.live = .ok content →
    o.applied.outcome nft content h.live = .error message →
    o.listed = true → o.putBack.runs → ∀ c ∈ h.live.chains, c.rules = []
  unpersisted : ∀ content live,
    contentToApply nft request o h.live = .ok content →
    o.applied.outcome nft content h.live = .ok live →
    request.persist = true → o.persisted.fate ≠ none → live = h.live

end Applying

-- ====== rolling back

section Examples

def openText : String :=
  "flush ruleset\ntable inet yunpanel \x7b\n\tchain input \x7b\n"
    ++ "\t\ttcp dport \x7b 22, 80 \x7d accept\n\t\x7d\n\x7d\n"

end Examples

example : Text.isControl 'a' = false := by decide +kernel

end Yunpanel.Firewall
