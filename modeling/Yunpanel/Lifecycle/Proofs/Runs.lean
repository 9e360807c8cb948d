/-
Zones and mail domains along runs of accepted calls.

`lifecycle_stores_load_iff` is the whole statement: from an empty panel,
every state of a run has resources that bear the names of their domains,
and loads, exactly where each update in it sends the names again that
resources rely on, each removal is of a domain no resource names, and no
revision passes the largest safe integer. `renamed_domain_stops_start` is a
run of three accepted calls after which the process does not start: a
domain is made, a zone of its name, and the domain gets another name.
-/
import Yunpanel.Lifecycle.Proofs.Changes

namespace Yunpanel.Lifecycle

open Lib Lib.Result
open Domains (Net Platform Domain)

-- ====== condition

/-- The revision a call expects is not the largest safe integer. -/
def leavesRoom (expectedRevision : Json) : Bool :=
  (SafeNat.read? expectedRevision).all fun n => n.val != maxSafeInteger

/-- The condition of a call: an update sends the names again that resources
rely on, a removal is of a domain no resource names, and a revision has
room above it. -/
def keepsReferences (platform : Platform) (s : Control) :
    ControlCall → Bool
  | .domain _ (.updateDomain domainId changes _) =>
      (s.dnsZones ++ s.mailDomains).all fun r => namesOther domainId r
        || sentName platform.toNet changes r.name == r.name
  | .domain _ (.finalizeDomainRemoval domainId _ _) =>
      (s.dnsZones ++ s.mailDomains).all (namesOther domainId)
  | .resource _ _ (.recordObservation input) =>
      leavesRoom input.expectedRevision
  | .resource _ _ (.transitionLocalStatus input) =>
      leavesRoom input.expectedRevision
  | _ => true

def Keeps (platform : Platform) (s : Control) (c : ControlCall) : Prop :=
  keepsReferences platform s c = true

instance (platform : Platform) (s : Control) (c : ControlCall) :
    Decidable (Keeps platform s c) :=
  inferInstanceAs (Decidable (_ = true))

/-- The call is accepted. -/
def Accepted (platform : Platform) (s : Control) (c : ControlCall) : Prop :=
  (s.accept platform c).isOk = true

instance (platform : Platform) (s : Control) (c : ControlCall) :
    Decidable (Accepted platform s c) :=
  inferInstanceAs (Decidable (_ = true))

theorem leavesRoom_iff {type : ResourceType} {expectedRevision : Json}
    {n : Nat} (h : revisionOf type expectedRevision = .ok n) :
    leavesRoom expectedRevision = true ↔ n ≠ maxSafeInteger := by
  have hread := (Option.filter_eq_some_iff.mp (demand_eq_ok.mp h)).1
  obtain ⟨safe, hsafe, rfl⟩ := Option.map_eq_some_iff.mp hread
  simp [leavesRoom, hsafe]

-- ====== steps

variable {platform : Platform} {s s' : Control} {c : ControlCall}

theorem accept_of_accepted (h : Accepted platform s c) :
    s.accept platform c = .ok ((Control.machine platform).next s c) := by
  unfold Accepted at h
  show s.accept platform c = .ok (s.step platform c).1
  unfold Control.step
  cases haccept : s.accept platform c with
  | ok t => rfl
  | error e =>
      rw [haccept] at h
      cases h

@[simp] theorem resources_withResources (type : ResourceType)
    (rs : List Resource) (type' : ResourceType) :
    (s.withResources type rs).resources type'
      = if type' = type then rs else s.resources type' := by
  cases type <;> cases type' <;> rfl

@[simp] theorem domains_withResources (type : ResourceType)
    (rs : List Resource) : (s.withResources type rs).domains = s.domains := by
  cases type <;> rfl

theorem resources_domains (domains : List Domain) (type : ResourceType) :
    ({ s with domains } : Control).resources type = s.resources type := by
  cases type <;> rfl

variable {env : Domains.Env} {call : Domains.Call}

/-- What an accepted call of the registry of domains has written. -/
theorem accept_domain (h : s.accept platform (.domain env call) = .ok s') :
    (s' = s ∧ ∃ reply,
        call.effect platform env s.domains = .replied reply)
      ∨ ∃ domains reply,
        call.effect platform env s.domains = .written domains reply
          ∧ s' = { s with domains } := by
  unfold Control.accept at h
  dsimp only at h
  cases heffect : call.effect platform env s.domains with
  | refused e =>
      rw [heffect] at h
      cases h
  | spoiled domains e =>
      rw [heffect] at h
      cases h
  | replied reply =>
      rw [heffect] at h
      exact .inl ⟨(Except.ok.inj h).symm, reply, rfl⟩
  | written domains reply =>
      rw [heffect] at h
      dsimp only at h
      split at h
      · exact .inr ⟨domains, reply, rfl, (Except.ok.inj h).symm⟩
      · cases h

theorem accept_resource {env : Env} {type : ResourceType} {call : Call}
    (h : s.accept platform (.resource env type call) = .ok s') :
    ∃ answer, call.answer platform.toNet env type s.domains
        (s.resources type) = .ok answer
      ∧ s' = s.withResources type answer.1 := by
  unfold Control.accept at h
  dsimp only at h
  split at h
  · rename_i answer hanswer
    exact ⟨answer, hanswer, (Except.ok.inj h).symm⟩
  · cases h

/-- The resources of one kind stay tracked, and load afterwards exactly
where the revision the call expects has room. -/
theorem answer_eq_ok {env : Env} {type : ResourceType} {call : Call}
    (hs : Kept platform.toNet s) {rs : List Resource} {reply : Reply}
    (h : call.answer platform.toNet env type s.domains (s.resources type)
      = .ok (rs, reply)) :
    Tracked platform.toNet type rs
      ∧ ((∀ r ∈ s.resources type, Loads s.domains r) →
        ((∀ r ∈ rs, Loads s.domains r)
          ↔ Keeps platform s (.resource env type call))) := by
  have htracked := hs.tracked type
  cases call with
  | createResource input =>
      obtain ⟨r, rfl, hcreated⟩ := createResource_eq_ok hs.domains h
      refine ⟨hcreated.tracked htracked, fun hloads => ?_⟩
      exact ⟨fun _ => rfl, fun _ => forall_mem_concat hloads hcreated.loads⟩
  | recordObservation input =>
      obtain ⟨i, r, r', hi, rfl, hadvanced, hrevision⟩ :=
        recordObservation_eq_ok htracked h
      refine ⟨hadvanced.tracked hi htracked, fun hloads => ?_⟩
      rw [hadvanced.loads_iff hi hloads, ← leavesRoom_iff hrevision]
      exact Iff.rfl
  | transitionLocalStatus input =>
      obtain ⟨i, r, r', hi, rfl, hadvanced, hrevision⟩ :=
        transitionLocalStatus_eq_ok htracked h
      refine ⟨hadvanced.tracked hi htracked, fun hloads => ?_⟩
      rw [hadvanced.loads_iff hi hloads, ← leavesRoom_iff hrevision]
      exact Iff.rfl
  | deleteResource input =>
      obtain ⟨i, rfl⟩ := deleteResource_eq_ok h
      have hsub := List.eraseIdx_sublist (s.resources type) i
      refine ⟨htracked.sublist hsub, fun hloads => ?_⟩
      exact ⟨fun _ => rfl, fun _ r hr => hloads r (hsub.subset hr)⟩

theorem kept_accept (hs : Kept platform.toNet s)
    (h : s.accept platform c = .ok s') : Kept platform.toNet s' := by
  cases c with
  | domain env call =>
      rcases accept_domain h with
        ⟨rfl, -⟩ | ⟨domains, reply, hwritten, rfl⟩
      · exact hs
      · refine ⟨Domains.sound_of_change hs.domains
          (Domains.change_of_written hwritten), fun type => ?_⟩
        rw [resources_domains]
        exact hs.tracked type
  | resource env type call =>
      obtain ⟨answer, hanswer, rfl⟩ := accept_resource h
      refine ⟨?_, fun type' => ?_⟩
      · rw [domains_withResources]
        exact hs.domains
      · rw [resources_withResources]
        split
        · rename_i he
          subst he
          exact (answer_eq_ok hs hanswer).1
        · exact hs.tracked type'

theorem kept_next (hs : Kept platform.toNet s) :
    Kept platform.toNet ((Control.machine platform).next s c) := by
  show Kept platform.toNet (s.step platform c).1
  unfold Control.step
  split
  · rename_i t haccept
    exact kept_accept hs haccept
  · exact hs

/-- Every resource, of either kind. -/
theorem startable_iff : Startable s ↔
    ∀ r ∈ s.dnsZones ++ s.mailDomains, Loads s.domains r := by
  rw [List.forall_mem_append]
  constructor
  · exact fun h => ⟨h .dnsZone, h .mailDomain⟩
  · intro h type
    cases type with
    | dnsZone => exact h.1
    | mailDomain => exact h.2

/-- A call that changes no name keeps everything. -/
theorem keeps_of_leavesNames (h : leavesNames call = true) :
    Keeps platform s (.domain env call) := by
  cases call <;> first | rfl | cases h

/-- The two that do are written where they are not refused. -/
theorem leavesNames_of_replied {domains : List Domain}
    {reply : Domains.Reply}
    (h : call.effect platform env domains = .replied reply) :
    leavesNames call = true := by
  cases call with
  | updateDomain id changes digest =>
      change Domains.updateDomain platform id changes digest env.now domains
        = _ at h
      unfold Domains.updateDomain at h
      split at h
      · cases h
      · split at h
        · cases h
        · dsimp only at h
          split at h <;> cases h
  | finalizeDomainRemoval id evidence confirmation =>
      change Domains.finalizeDomainRemoval platform id evidence confirmation
        domains = _ at h
      unfold Domains.finalizeDomainRemoval at h
      split at h
      · cases h
      · dsimp only at h
        split at h <;> cases h
  | _ => rfl

/-- An accepted call of the registry of domains leaves the resources
loading exactly where it keeps the names they rely on. -/
theorem startable_domain_iff (hs : Kept platform.toNet s)
    (hstart : Startable s)
    (h : s.accept platform (.domain env call) = .ok s') :
    Startable s' ↔ Keeps platform s (.domain env call) := by
  rcases accept_domain h with
    ⟨rfl, reply, hreplied⟩ | ⟨domains, reply, hwritten, rfl⟩
  · have hkeeps : Keeps platform s' (.domain env call) :=
      keeps_of_leavesNames (leavesNames_of_replied hreplied)
    exact ⟨fun _ => hkeeps, fun _ => hstart⟩
  · have hvalid := hs.domains.valid
    rw [startable_iff] at hstart ⊢
    by_cases hleaves : leavesNames call = true
    · have hkept := keepsNames_of_written hvalid hleaves hwritten
      exact ⟨fun _ => keeps_of_leavesNames hleaves,
        fun _ r hr => (hstart r hr).kept hkept⟩
    · cases call with
      | updateDomain id changes digest =>
          unfold Keeps keepsReferences
          rw [List.all_eq_true]
          exact forall₂_congr fun r hr =>
            loads_updated_iff hvalid hwritten (hstart r hr)
      | finalizeDomainRemoval id evidence confirmation =>
          obtain rfl := Domains.finalizeDomainRemoval_filter hwritten
          unfold Keeps keepsReferences
          rw [List.all_eq_true]
          exact forall₂_congr fun r hr => loads_removed_iff (hstart r hr)
      | _ => exact absurd rfl hleaves

/-- An accepted call leaves the resources loading exactly where it meets
the condition. -/
theorem startable_next_iff (hc : Accepted platform s c)
    (hs : Kept platform.toNet s) (hstart : Startable s) :
    Startable ((Control.machine platform).next s c)
      ↔ Keeps platform s c := by
  have haccept := accept_of_accepted hc
  cases c with
  | domain env call => exact startable_domain_iff hs hstart haccept
  | resource env type call =>
      obtain ⟨⟨rs, reply⟩, hanswer, hnext⟩ := accept_resource haccept
      have hiff := (answer_eq_ok hs hanswer).2 (hstart type)
      rw [hnext, ← hiff]
      constructor
      · intro hall
        have hthis := hall type
        simpa using hthis
      · intro hall type'
        rw [resources_withResources, domains_withResources]
        split
        · exact hall
        · exact hstart type'

-- ====== runs

/-- Every resource that names a web domain names one there is, and bears
its name. -/
def Referenced (s : Control) : Prop :=
  ∀ r ∈ s.dnsZones ++ s.mailDomains, ∀ id, r.webDomainId = some id →
    ∃ d ∈ s.domains, d.id = id.text ∧ d.primaryDomain = r.name

theorem Startable.referenced (h : Startable s) : Referenced s := by
  rw [startable_iff] at h
  intro r hr id hid
  obtain ⟨d, hd, hname⟩ := Option.map_eq_some_iff.mp ((h r hr).refers id hid)
  exact ⟨d, List.mem_of_find?_eq_some hd, by simpa using List.find?_some hd,
    hname⟩

theorem kept_empty : Kept platform.toNet Control.empty := by
  refine ⟨Domains.sound_nil, fun type => ?_⟩
  cases type <;>
    exact ⟨fun _ h => (nomatch h), List.nodup_nil, List.nodup_nil,
      List.nodup_nil⟩

theorem startable_empty : Startable Control.empty := by
  rw [startable_iff]
  exact fun _ h => nomatch h

/-- From an empty panel, in every state of a run of accepted calls the
resources bear the names of their domains and load, exactly where every
call of the run keeps the references. -/
theorem lifecycle_stores_load_iff (platform : Platform)
    (calls : List ControlCall)
    (hok : (Control.machine platform).Allowed (Accepted platform)
      Control.empty calls) :
    (∀ t ∈ (Control.machine platform).states Control.empty calls,
        Referenced t ∧ t.start platform = .ok ())
      ↔ (Control.machine platform).Allowed (Keeps platform)
          Control.empty calls := by
  have hkept := Machine.forall_mem_states (m := Control.machine platform)
    (fun _ _ hs => kept_next hs) kept_empty calls
  rw [← Machine.forall_mem_states_iff
    (P := fun s => Kept platform.toNet s ∧ Startable s) (fun s c hc hs =>
      ⟨fun hnext => (startable_next_iff hc hs.1 hs.2).mp hnext.2,
        fun hkeeps => ⟨kept_next hs.1,
          (startable_next_iff hc hs.1 hs.2).mpr hkeeps⟩⟩)
    hok ⟨kept_empty, startable_empty⟩]
  refine forall₂_congr fun t ht => ?_
  rw [start_eq_ok (hkept t ht)]
  exact ⟨fun h => ⟨hkept t ht, h.2⟩, fun h => ⟨h.2.referenced, h.2⟩⟩

-- ====== sample

def renameDigest : String :=
  "e731b75975e6a898986fcfcf89168e7a571c1661fc7affb71df8912e2659aca1"

def redirectDigest : String :=
  "ae336be5bef4045a292f142a403530d919cfa36632f36f2905edfe5ac2a91172"

/-- The digests of two previews of one domain: a rename to `example.net`,
and the canonical redirect. -/
def samplePlatform : Platform :=
  { Domains.asciiPlatform with
    sha256 := fun value =>
      match (Domains.field "next" value).bind
          (Domains.field "primaryDomain") with
      | some (.str "example.net") => renameDigest
      | _ => redirectDigest }

def makeDomain : ControlCall :=
  .domain (Domains.envWith Domains.firstDomainId)
    (.createDomain (Domains.staticRequest "example.org" none))

def changeDomain (changes : Json) (previewDigest : String) : ControlCall :=
  .domain (Domains.envWith Domains.firstDomainId)
    (.updateDomain Domains.firstDomainId.text changes previewDigest)

def makeZone : ControlCall :=
  .resource ⟨⟨0⟩, Domains.secondDomainId⟩ .dnsZone
    (.createResource
      { resourceId := .null
        name := .str "example.org"
        webDomainId := .str Domains.firstDomainId.text
        managementMode := .str "external" })

def observeZone : ControlCall :=
  .resource ⟨⟨1⟩, Domains.secondDomainId⟩ .dnsZone
    (.recordObservation
      { resourceId := .str Domains.secondDomainId.text
        expectedRevision := .num 1
        status := .str "ready"
        errorCode := .null })

/-- A domain, a zone of its name, an observation, and an update that leaves
the name. -/
def redirected : List ControlCall :=
  [makeDomain, makeZone, observeZone,
    changeDomain (.obj [("canonicalRedirect", .bool true)]) redirectDigest]

theorem lifecycle_stores_load_iff_redirected :
    (∀ t ∈ (Control.machine samplePlatform).states Control.empty redirected,
        Referenced t ∧ t.start samplePlatform = .ok ())
      ↔ (Control.machine samplePlatform).Allowed (Keeps samplePlatform)
          Control.empty redirected :=
  lifecycle_stores_load_iff samplePlatform redirected (by decide +kernel)

/-- A domain, a zone of its name, and another name for the domain. -/
def renamed : List ControlCall :=
  [makeDomain, makeZone,
    changeDomain (.obj [("primaryDomain", .str "example.net")]) renameDigest]

/-- The three calls are accepted, and the process does not start
afterwards. -/
theorem renamed_domain_stops_start :
    (Control.machine samplePlatform).Allowed (Accepted samplePlatform)
        Control.empty renamed
      ∧ ((Control.machine samplePlatform).run Control.empty renamed).start
          samplePlatform
        = .error ⟨"dns_zone_web_domain_mismatch",
          "Lifecycle name must exactly match the referenced web Domain",
          409⟩ := by
  decide +kernel

end Yunpanel.Lifecycle
