/-
Runs of the domain registry, and what holds along all of them.

`holds_run` carries whatever every `Change` keeps through any order of
calls, settling writes and restarts, to memory, the file and the snapshots
between them. A restart is covered because the loader, where it takes a
store of the current version at all, takes it as it is (`init_eq_ok`). A
domain that is suspended keeps the evidence it is resumed on.
-/
import Yunpanel.Domains.Proofs.Validity

namespace Yunpanel.Domains

open Lib

-- ====== loading

variable {net : Net} {env : Env} {r : Registry}

theorem hydrateDomain_iff {d d' : Domain} :
    hydrateDomain net 4 d = .ok d' ↔
      d' = d ∧ checkDomain net d = .ok () := by
  constructor
  · exact hydrateDomain_eq_ok
  · rintro ⟨rfl, hcheck⟩
    refine Result.bind_eq_ok.mpr ⟨d', rfl, ?_⟩
    exact Result.bind_eq_ok.mpr ⟨(), hcheck, rfl⟩

theorem checkWebsiteIds_eq_ok {domains : List Domain} :
    checkWebsiteIds domains = .ok () ↔
      ∀ d ∈ domains, ∃ id, normalizeWebsiteId d.websiteId = .ok id := by
  induction domains with
  | nil => simp [checkWebsiteIds]
  | cons d rest ih =>
      rw [checkWebsiteIds, Result.bind_eq_ok, List.forall_mem_cons, ih,
        exists_and_right]

theorem checkBindings_eq_ok {domains : List Domain} :
    checkBindings env domains = .ok () ↔
      ∀ d ∈ domains, ∃ id,
        requireWebsiteBinding env d.websiteId d.serverId = .ok id := by
  induction domains with
  | nil => simp [checkBindings]
  | cons d rest ih =>
      rw [checkBindings, Result.bind_eq_ok, List.forall_mem_cons, ih,
        exists_and_right]

/-- Everything the loader asks of a store, the website lookups apart. -/
structure Loadable (net : Net) (domains : List Domain) : Prop where
  placed : WellPlaced (places domains)
  checked : ∀ d ∈ domains, checkDomain net d = .ok ()
  websites : ∀ d ∈ domains, ∃ id, normalizeWebsiteId d.websiteId = .ok id

/-- The loader takes a store of the current version as it is, or not at
all. -/
theorem init_eq_ok {stored domains : List Domain} :
    init net env 4 stored = .ok domains ↔
      domains = stored ∧ Loadable net stored
        ∧ (env.getWebsite.isSome = true → ∀ d ∈ stored, ∃ id,
          requireWebsiteBinding env d.websiteId d.serverId = .ok id) := by
  have hload : init net env 4 stored = .ok domains ↔
      validateDomainHierarchy stored = .ok ()
        ∧ ∃ ds, stored.mapM (hydrateDomain net 4) = .ok ds
          ∧ checkWebsiteIds ds = .ok ()
          ∧ (env.getWebsite.isSome = true → checkBindings env ds = .ok ())
          ∧ ds = domains := by
    change (validateDomainHierarchy stored >>= fun _ =>
      stored.mapM (hydrateDomain net 4) >>= fun ds =>
        checkWebsiteIds ds >>= fun _ =>
          if env.getWebsite.isSome then
            checkBindings env ds >>= fun _ => .ok ds
          else .ok ds) = .ok domains ↔ _
    rw [Result.check_bind_eq_ok, Result.bind_eq_ok]
    cases env.getWebsite.isSome <;>
      simp only [Result.check_bind_eq_ok, Bool.false_eq_true, if_false,
        if_true, Except.ok.injEq, false_implies, true_implies, true_and]
  rw [hload, validateDomainHierarchy_eq_ok]
  have hsame : ∀ a b : Domain, hydrateDomain net 4 a = .ok b → b = a :=
    fun a b h => (hydrateDomain_eq_ok h).1
  constructor
  · rintro ⟨hplaced, ds, hmap, hids, hbindings, rfl⟩
    obtain ⟨rfl, hall⟩ := (Result.mapM_eq_ok hsame).mp hmap
    refine ⟨rfl, ⟨hplaced, ?_, checkWebsiteIds_eq_ok.mp hids⟩, ?_⟩
    · exact fun d hd => (hydrateDomain_eq_ok (hall d hd)).2
    · exact fun hlookup => checkBindings_eq_ok.mp (hbindings hlookup)
  · rintro ⟨rfl, hloadable, hbindings⟩
    refine ⟨hloadable.placed, domains, ?_, ?_, ?_, rfl⟩
    · refine (Result.mapM_eq_ok hsame).mpr ⟨rfl, fun d hd => ?_⟩
      exact hydrateDomain_iff.mpr ⟨rfl, hloadable.checked d hd⟩
    · exact checkWebsiteIds_eq_ok.mpr hloadable.websites
    · exact fun hlookup => checkBindings_eq_ok.mpr (hbindings hlookup)

-- ====== runs

variable {platform : Platform} {P : List Domain → Prop}

theorem holds_next
    (hP : ∀ {domains next}, P domains → Change platform.toNet domains next →
      P next) (h : r.Holds P) (e : Event) :
    ((machine platform).next r e).Holds P := by
  cases e with
  | call env c =>
      apply Store.Holds.call h
      · intro next reply hw
        exact hP h.mem (change_of_written hw)
      · intro next err hs
        exact hP h.mem (removal_of_spoiled hs).1
  | settle ok => exact h.settle .store ok
  | restart env =>
      change Store.Holds P (Registry.step platform r (.restart env)).1
      unfold Registry.step
      dsimp only
      split
      · rename_i domains hload
        obtain ⟨rfl, -, -⟩ := init_eq_ok.mp hload
        exact Store.holds_opened h.file
      · exact h

/-- What every change keeps holds of everything a registry holds, after any
run. -/
theorem holds_run
    (hP : ∀ {domains next}, P domains → Change platform.toNet domains next →
      P next) (h : r.Holds P) (events : List Event) :
    ((machine platform).run r events).Holds P :=
  Machine.invariant (P := Store.Holds P)
    (fun _ e hr => holds_next hP hr e) h events

-- ====== lawfulness

/-- What a reader of the store can rely on. -/
structure Lawful (domains : List Domain) : Prop where
  /-- No name is owned by two domains. -/
  namesApart : NamesApart domains
  /-- No domain is its own ancestor. -/
  acyclic : ∀ d, ¬ Relation.TransGen
    (ParentOf Domain.id Domain.parentDomainId domains) d d
  /-- A parent is there, on the same server, and the child's name ends in a
  dot and the parent's. -/
  parented : ∀ d ∈ domains, ∀ id, d.parentDomainId = some id →
    ∃ p ∈ domains, p.id = id ∧ p.serverId = d.serverId
      ∧ isBelow d.primaryDomain p.primaryDomain = true
  /-- Suspension metadata is there exactly while a domain is suspended. -/
  suspension : ∀ d ∈ domains,
    (d.suspensionOperationId.isSome = true ↔ d.state = .suspended)
      ∧ (d.suspendedAt.isSome = true ↔ d.state = .suspended)
      ∧ (d.suspendedChecksum.isSome = true ↔ d.state = .suspended)
  revisions : ∀ d ∈ domains, 0 ≤ d.appliedRevision
    ∧ d.appliedRevision ≤ d.desiredRevision
    ∧ d.stagedRevision ≤ d.desiredRevision

theorem Valid.lawful {domains : List Domain} (h : Valid domains) :
    Lawful domains := by
  have hlinks : Links Domain.id Domain.parentDomainId
      (fun d p => Under d.place p.place) domains :=
    (links_map (f := Domain.place)).mp h.placed.parented
  refine ⟨h.apart, ?_, ?_, ?_, ?_⟩
  · apply hlinks.acyclic h.unique fun d => d.primaryDomain.toList.length
    exact fun a b hab => length_of_isBelow hab.below
  · intro d hd id hid
    obtain ⟨p, hp, hkey, hunder⟩ := hlinks d hd id hid
    exact ⟨p, hp, hkey, hunder.server, hunder.below⟩
  · intro d hd
    have hcoherent := h.coherent d hd
    exact ⟨hcoherent.operation, hcoherent.since, hcoherent.checksum⟩
  · intro d hd
    have hcoherent := h.coherent d hd
    exact ⟨hcoherent.applied_nonneg, hcoherent.applied_le,
      hcoherent.staged_le⟩

/-- From a valid store, whatever calls come in whatever order, whichever
writes fail and however often the registry starts again: memory and the
file stay lawful. -/
theorem registry_stays_lawful (platform : Platform) {domains : List Domain}
    (h : Valid domains) (events : List Event) :
    Lawful ((machine platform).run (Store.opened domains) events).mem
      ∧ Lawful ((machine platform).run (Store.opened domains) events).file := by
  have hkeep : ∀ {domains next}, Valid domains →
      Change platform.toNet domains next → Valid next :=
    fun hvalid hchange => valid_of_change hvalid hchange
  have hrun := holds_run hkeep (Store.holds_opened h) events
  exact ⟨hrun.mem.lawful, hrun.file.lawful⟩

-- ====== the way back

/-- A platform for names that are lower-case ASCII already. -/
def asciiPlatform : Platform where
  nfc := id
  domainToASCII := id
  isIP := fun _ => none
  ipv6Hostname := fun _ => none
  nfc_ascii := fun _ _ => rfl
  domainToASCII_stable := fun _ _ _ _ => rfl
  isIP_v4 := fun _ h => by cases h
  isIP_v6 := fun _ h => by cases h
  ipv6Hostname_canonical := fun _ _ h => by cases h
  sha256 := fun _ => ""
  localeLE := fun a b => decide (a ≤ b)

def firstDomainId : Uuid :=
  ⟨"00000000-0000-4000-8000-000000000011", by decide⟩

def secondDomainId : Uuid :=
  ⟨"00000000-0000-4000-8000-000000000012", by decide⟩

/-- The environment of a call that makes a domain of the given id. -/
def envWith (id : Uuid) : Env :=
  { now := ⟨0⟩
    randomUUID := id
    serverExists := true
    getWebsite := none
    websiteBindingRequired := false }

/-- A request for a static domain. -/
def staticRequest (name : String) (parent : Option String) : NewDomain :=
  { domainId := none
    serverId := "server"
    primaryDomain := name
    aliases := []
    targetType := "static"
    target := .obj [("root", .str "/srv/www")]
    httpsMode := "off"
    httpsRedirect := none
    canonicalRedirect := false
    nginxSettings := none
    parentDomainId := parent
    websiteId := none }

def sampleChecksum : String := String.ofList (List.replicate 64 'a')

/-- A domain, a subdomain of it, and a staging whose write fails. -/
def sampleEvents : List Event :=
  [.call (envWith firstDomainId)
      (.createDomain (staticRequest "example.org" none)),
    .settle true,
    .call (envWith secondDomainId)
      (.createDomain (staticRequest "docs.example.org"
        (some firstDomainId.text))),
    .settle true,
    .call (envWith firstDomainId)
      (.markStaged firstDomainId.text sampleChecksum "example.org.conf"),
    .settle false]

theorem registry_stays_lawful_sample :
    (((machine asciiPlatform).run (Store.opened []) sampleEvents).mem.map
        fun d => (d.primaryDomain, d.stagedRevision))
        = [("example.org", 1), ("docs.example.org", 0)]
      ∧ Lawful ((machine asciiPlatform).run (Store.opened [])
          sampleEvents).mem
      ∧ Lawful ((machine asciiPlatform).run (Store.opened [])
          sampleEvents).file :=
  ⟨by decide +kernel,
    registry_stays_lawful asciiPlatform valid_nil sampleEvents⟩

end Yunpanel.Domains
