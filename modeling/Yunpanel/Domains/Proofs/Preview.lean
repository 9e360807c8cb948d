/-
An update is the one its preview has shown.

The digest of a preview is taken of what the update is going to store and of
the whole hierarchy as it stands. An update is previewed once more when it
is committed, on the domains there are by then, and goes through only if the
digest is the one the caller names: whatever happened in between, what is
stored is what was shown, under the parent and above the descendants there
were (`update_is_as_previewed`). All that is asked of SHA-256 is that the
two texts that are hashed do not collide.
-/
import Yunpanel.Domains.Proofs.Validity
import Yunpanel.Domains.Proofs.Runs

namespace Yunpanel.Domains

open Lib

-- ====== what is hashed

/-- What `updateDigest` hashes. -/
def updatePayload (domain : Domain) (next : Routing) (hierarchy : Json) :
    Json :=
  .obj [("version", .num 1), ("domainId", .str domain.id),
    ("currentRevision", .num domain.desiredRevision),
    ("currentCertificateId", Target.textJson domain.certificateId),
    ("appliedPrimaryDomain", Target.textJson domain.appliedPrimaryDomain),
    ("next", next.toJson), ("hierarchy", hierarchy)]

/-- The digests of two texts tell them apart. -/
def NoCollision (platform : Platform) (v w : Json) : Prop :=
  platform.sha256 v = platform.sha256 w → v = w

theorem textJson_inj {a b : Option String}
    (h : Target.textJson a = Target.textJson b) : a = b := by
  cases a with
  | none =>
      cases b with
      | none => rfl
      | some t => cases h
  | some s =>
      cases b with
      | none => cases h
      | some t => exact congrArg some (Json.str.inj h)

theorem intJson_inj {a b : Option Int}
    (h : NginxSettings.intJson a = NginxSettings.intJson b) : a = b := by
  cases a with
  | none =>
      cases b with
      | none => rfl
      | some n => cases h
  | some m =>
      cases b with
      | none => cases h
      | some n => exact congrArg some (Json.num.inj h)

theorem headersJson_inj {as bs : List Header}
    (h : NginxSettings.headersJson as = NginxSettings.headersJson bs) :
    as = bs := by
  have hinj : Function.Injective NginxSettings.headerJson := by
    intro a b hab
    simp only [NginxSettings.headerJson, Json.obj.injEq, List.cons.injEq,
      Prod.mk.injEq, Json.str.injEq, Json.bool.injEq, true_and,
      and_true] at hab
    cases a
    cases b
    simp_all
  exact hinj.list_map (Json.arr.inj h)

theorem settingsJson_inj {a b : NginxSettings} (h : a.toJson = b.toJson) :
    a = b := by
  cases a <;> cases b <;>
    simp only [NginxSettings.toJson, Json.obj.injEq, List.cons.injEq,
      Prod.mk.injEq, Json.bool.injEq, true_and, and_true, reduceCtorEq,
      String.reduceEq, false_and, and_false] at h
  · obtain ⟨hsize, htimeout, rfl, hheaders⟩ := h
    rw [intJson_inj hsize, intJson_inj htimeout, headersJson_inj hheaders]
  · obtain ⟨hsize, rfl, hcache, hheaders⟩ := h
    rw [intJson_inj hsize, intJson_inj hcache, headersJson_inj hheaders]
  · obtain ⟨hsize, hheaders⟩ := h
    rw [intJson_inj hsize, headersJson_inj hheaders]

theorem modeText_inj {a b : HttpsMode} (h : a.text = b.text) : a = b := by
  cases a <;> cases b
  · rfl
  · exact absurd h (by decide)
  · exact absurd h (by decide)
  · rfl

/-- What is going to be stored can be told from its text. -/
theorem routingJson_inj {a b : Routing} (h : a.toJson = b.toJson) :
    a = b := by
  simp only [Routing.toJson, Json.obj.injEq, List.cons.injEq, Prod.mk.injEq,
    Json.str.injEq, Json.bool.injEq, Json.arr.injEq, true_and,
    and_true] at h
  obtain ⟨hprimary, haliases, hmode, hredirect, hcanonical, hsettings⟩ := h
  have hstr : Function.Injective Json.str := fun _ _ => Json.str.inj
  cases a
  cases b
  dsimp only at hprimary haliases hmode hredirect hcanonical hsettings
  rw [hprimary, hstr.list_map haliases, modeText_inj hmode, hredirect,
    hcanonical, settingsJson_inj hsettings]

-- ====== the hierarchy

/-- The entry of a domain in the snapshot tells its place. -/
theorem asDescendant_of_hierarchyEntry {a b : Domain}
    (h : hierarchyEntry a = hierarchyEntry b) :
    a.asDescendant = b.asDescendant := by
  simp only [hierarchyEntry, Json.obj.injEq, List.cons.injEq, Prod.mk.injEq,
    Json.str.injEq, true_and] at h
  obtain ⟨hid, -, -, hprimary, -, hparent, -⟩ := h
  unfold Domain.asDescendant
  rw [hid, hprimary, textJson_inj hparent]

variable {platform : Platform} {domains : List Domain}

variable {others : List Domain} {d : Domain} {id digest : String}
  {changes : Json}

/-- Where two snapshots are the same, every domain of the one has its place
in the other. -/
theorem exists_place_of_snapshot (h : hierarchySnapshot platform domains
      = hierarchySnapshot platform others) (hd : d ∈ domains) :
    ∃ d' ∈ others, d'.asDescendant = d.asDescendant := by
  have hlist := Json.arr.inj h
  have hmem : hierarchyEntry d ∈ (domains.mergeSort fun left right =>
      platform.localeLE left.id right.id).map hierarchyEntry :=
    List.mem_map_of_mem (List.mem_mergeSort.mpr hd)
  rw [hlist] at hmem
  obtain ⟨d', hd', heq⟩ := List.mem_map.mp hmem
  exact ⟨d', List.mem_mergeSort.mp hd', asDescendant_of_hierarchyEntry heq⟩

theorem places_of_snapshot (h : hierarchySnapshot platform domains
      = hierarchySnapshot platform others) (e : Descendant) :
    e ∈ domains.map Domain.asDescendant
      ↔ e ∈ others.map Domain.asDescendant := by
  have hsub : ∀ {as bs : List Domain},
      hierarchySnapshot platform as = hierarchySnapshot platform bs →
      e ∈ as.map Domain.asDescendant → e ∈ bs.map Domain.asDescendant := by
    intro as bs hsnapshot he
    obtain ⟨d, hd, rfl⟩ := List.mem_map.mp he
    obtain ⟨d', hd', heq⟩ := exists_place_of_snapshot hsnapshot hd
    exact List.mem_map.mpr ⟨d', hd', heq⟩
  exact ⟨hsub h, hsub h.symm⟩

/-- The descendants of a domain are a matter of the places alone. -/
theorem descendants_of_places (hunique : (domains.map Domain.id).Nodup)
    (hunique' : (others.map Domain.id).Nodup)
    (h : ∀ e, e ∈ domains.map Domain.asDescendant
      ↔ e ∈ others.map Domain.asDescendant) (id : String) (e : Descendant) :
    e ∈ descendantsOf platform domains id
      ↔ e ∈ descendantsOf platform others id := by
  have hchild : ChildIn (domains.map Domain.asDescendant)
      = ChildIn (others.map Domain.asDescendant) := by
    funext parentId id
    unfold ChildIn
    simp only [h]
  rw [mem_descendantsOf hunique, mem_descendantsOf hunique', hchild, h]

-- ====== the commit

/-- What a preview shows of the domain it is of. -/
theorem buildDomainUpdatePreview_shown {i : Nat} {preview : UpdatePreview}
    (h : buildDomainUpdatePreview platform domains id changes
      = .ok (i, d, preview)) :
    preview.domainId = d.id
      ∧ preview.previewDigest = platform.sha256 (updatePayload d preview.next
          (hierarchySnapshot platform domains))
      ∧ preview.impact.descendants = descendantsOf platform domains d.id := by
  unfold buildDomainUpdatePreview at h
  obtain ⟨id', -, h⟩ := Result.bind_eq_ok.mp h
  obtain ⟨⟨j, e⟩, -, h⟩ := Result.bind_eq_ok.mp h
  dsimp only at h
  split at h
  · cases h
  obtain ⟨routing, -, h⟩ := Result.bind_eq_ok.mp h
  split at h
  · cases h
  split at h
  · obtain ⟨⟨⟩, -, h⟩ := Result.bind_eq_ok.mp h
    cases h
    exact ⟨rfl, rfl, rfl⟩
  · cases h
    exact ⟨rfl, rfl, rfl⟩

/-- An update that comes to its write has been previewed under the digest it
names. -/
theorem updateDomain_previewed {domainId : String} {now : Instant}
    {next : List Domain} {r : List Domain → Except Failure Reply}
    (h : updateDomain platform domainId changes digest now domains
      = .written next r) :
    ∃ i d preview, buildDomainUpdatePreview platform domains domainId changes
        = .ok (i, d, preview)
      ∧ preview.previewDigest = digest
      ∧ next = domains.set i
          ((d.rerouted preview.next).redrafted preview.nextRevision now) := by
  unfold updateDomain at h
  split at h
  · cases h
  · split at h
    · cases h
    · rename_i i d preview hpreview
      dsimp only at h
      split at h
      · cases h
      · rename_i hdigest
        cases h
        exact ⟨i, d, preview, hpreview, not_not.mp hdigest, rfl⟩

/-- What an update stores of the domain it is of, where `shown` is the
preview its caller has seen of the domain `d`, and the descendants it
affects. -/
structure AsPreviewed (platform : Platform) (shown : UpdatePreview)
    (d : Domain) (domains : List Domain) (stored : Domain) : Prop where
  id : stored.id = shown.domainId
  primaryDomain : stored.primaryDomain = shown.next.primaryDomain
  aliases : stored.aliases = shown.next.aliases
  parent : stored.parentDomainId = d.parentDomainId
  httpsMode : stored.httpsMode = shown.next.httpsMode
  httpsRedirect : stored.httpsRedirect = shown.next.httpsRedirect
  canonicalRedirect : stored.canonicalRedirect = shown.next.canonicalRedirect
  nginxSettings : stored.nginxSettings = shown.next.nginxSettings
  descendants : ∀ e, e ∈ descendantsOf platform domains stored.id
    ↔ e ∈ shown.impact.descendants

/-- Whatever happens between a preview and a commit under its digest, and
whatever the commit asks for: where the two texts that are hashed do not
collide, what is stored is what the preview has shown. -/
theorem update_is_as_previewed (platform : Platform) {domains : List Domain}
    (h : Valid domains) (before between : List Event) (env : Env)
    (domainId committedId : String) (changes committed : Json) :
    let shown := (machine platform).run (Store.opened domains) before
    let r := (machine platform).run shown between
    ∀ (i : Nat) (d : Domain) (preview : UpdatePreview) (next : List Domain)
      (reply : List Domain → Except Failure Reply),
      buildDomainUpdatePreview platform shown.mem domainId changes
        = .ok (i, d, preview) →
      (Call.updateDomain committedId committed
          preview.previewDigest).effect platform env r.mem
        = .written next reply →
      (∀ (j : Nat) (d' : Domain) (preview' : UpdatePreview),
        buildDomainUpdatePreview platform r.mem committedId committed
          = .ok (j, d', preview') →
        NoCollision platform
          (updatePayload d preview.next (hierarchySnapshot platform shown.mem))
          (updatePayload d' preview'.next
            (hierarchySnapshot platform r.mem))) →
      ∃ (j : Nat) (stored : Domain), next = r.mem.set j stored
        ∧ j < r.mem.length
        ∧ AsPreviewed platform preview d r.mem stored := by
  intro shown r i d preview next reply hpreview hwritten hsha
  have hheld : shown.Holds Valid := holds_run
    (fun hv hc => valid_of_change hv hc) (Store.holds_opened h) before
  have hvalid := hheld.mem
  have hvalid' : Valid r.mem :=
    (holds_run (fun hv hc => valid_of_change hv hc) hheld between).mem
  obtain ⟨j, d', preview', hpreview', hdigest, rfl⟩ :=
    updateDomain_previewed hwritten
  obtain ⟨hid, hshown, hdescendants⟩ := buildDomainUpdatePreview_shown hpreview
  obtain ⟨-, hshown', -⟩ := buildDomainUpdatePreview_shown hpreview'
  obtain ⟨hat, -⟩ := buildDomainUpdatePreview_spec hpreview
  obtain ⟨hat', -⟩ := buildDomainUpdatePreview_spec hpreview'
  -- The digests are the same, so what they are of is.
  have hpayload := hsha j d' preview' hpreview'
    (hshown.symm.trans (hdigest.symm.trans hshown'))
  simp only [updatePayload, Json.obj.injEq, List.cons.injEq, Prod.mk.injEq,
    Json.str.injEq, true_and, and_true] at hpayload
  obtain ⟨hdomain, -, -, -, hnext, hhierarchy⟩ := hpayload
  have hrouting := routingJson_inj hnext
  have hplaces := places_of_snapshot hhierarchy
  have hparent : d'.parentDomainId = d.parentDomainId := by
    obtain ⟨e, he, hplace⟩ := exists_place_of_snapshot hhierarchy
      (List.mem_of_getElem? hat)
    have heid : e.id = d'.id := by
      have hids := congrArg Descendant.id hplace
      exact (show e.id = d.id from hids).trans hdomain
    obtain rfl : e = d' := hvalid'.eq_of_id he (List.mem_of_getElem? hat') heid
    exact congrArg Descendant.parentDomainId hplace
  obtain ⟨hlt, -⟩ := List.getElem?_eq_some_iff.mp hat'
  refine ⟨j, _, rfl, hlt, ?_⟩
  have hstored : ((d'.rerouted preview'.next).redrafted preview'.nextRevision
      env.now).id = d.id := hdomain.symm
  refine ⟨hstored.trans hid.symm, ?_, ?_, hparent, ?_, ?_, ?_, ?_,
    fun e => ?_⟩
  · exact congrArg Routing.primaryDomain hrouting.symm
  · exact congrArg Routing.aliases hrouting.symm
  · exact congrArg Routing.httpsMode hrouting.symm
  · exact congrArg Routing.httpsRedirect hrouting.symm
  · exact congrArg Routing.canonicalRedirect hrouting.symm
  · exact congrArg Routing.nginxSettings hrouting.symm
  · rw [hstored, hdescendants]
    exact (descendants_of_places hvalid.unique hvalid'.unique hplaces d.id
      e).symm

-- ====== samples

/-- What the preview of a canonical redirect hashes, of a domain that was
just created. -/
def redirectPayload : Json :=
  .obj [("version", .num 1), ("domainId", .str firstDomainId.text),
    ("currentRevision", .num 1), ("currentCertificateId", .null),
    ("appliedPrimaryDomain", .null),
    ("next", .obj [("primaryDomain", .str "example.org"), ("aliases", .arr []),
      ("httpsMode", .str "off"), ("httpsRedirect", .bool false),
      ("canonicalRedirect", .bool true),
      ("nginxSettings", .obj [("clientMaxBodySizeMb", .null),
        ("spaFallback", .bool true), ("staticAssetCacheSeconds", .num 604800),
        ("headers", .arr [])])]),
    ("hierarchy", .arr [.obj [("id", .str firstDomainId.text),
      ("serverId", .str "server"), ("websiteId", .null),
      ("primaryDomain", .str "example.org"), ("aliases", .arr []),
      ("parentDomainId", .null), ("certificateId", .null),
      ("desiredRevision", .num 1)]])]

def redirectDigest : String :=
  "ae336be5bef4045a292f142a403530d919cfa36632f36f2905edfe5ac2a91172"

/-- The platform of the samples, with the digest of that text. -/
def hashingPlatform : Platform :=
  { asciiPlatform with
    sha256 := fun v =>
      if Json.same v redirectPayload then redirectDigest else sampleChecksum }

def redirectChanges : Json := .obj [("canonicalRedirect", .bool true)]

/-- A domain is created; its write is on its way. -/
def creationEvents : List Event :=
  [.call (envWith firstDomainId)
    (.createDomain (staticRequest "example.org" none))]

theorem exists_written {env : Env} {c : Call}
    (h : (match c.effect platform env domains with
      | .written _ _ => true
      | _ => false) = true) :
    ∃ next reply, c.effect platform env domains = .written next reply := by
  cases heffect : c.effect platform env domains with
  | written next reply => exact ⟨next, reply, rfl⟩
  | refused | spoiled | replied =>
      rw [heffect] at h
      cases h

theorem exists_of_digest
    (h : (buildDomainUpdatePreview platform domains id changes).toOption.map
      (fun found => found.2.2.previewDigest) = some digest) :
    ∃ i d preview, buildDomainUpdatePreview platform domains id changes
        = .ok (i, d, preview) ∧ preview.previewDigest = digest := by
  cases hpreview : buildDomainUpdatePreview platform domains id changes with
  | error e =>
      rw [hpreview] at h
      cases h
  | ok found =>
      rw [hpreview] at h
      exact ⟨found.1, found.2.1, found.2.2, rfl, Option.some.inj h⟩

theorem update_is_as_previewed_sample :
    let shown := (machine hashingPlatform).run (Store.opened []) creationEvents
    let r := (machine hashingPlatform).run shown [.settle true]
    ∃ (i : Nat) (d : Domain) (preview : UpdatePreview) (next : List Domain)
      (reply : List Domain → Except Failure Reply),
      buildDomainUpdatePreview hashingPlatform shown.mem firstDomainId.text
          redirectChanges = .ok (i, d, preview)
        ∧ (Call.updateDomain firstDomainId.text redirectChanges
            preview.previewDigest).effect hashingPlatform
              (envWith firstDomainId) r.mem = .written next reply
        ∧ ∃ (j : Nat) (stored : Domain), next = r.mem.set j stored
          ∧ j < r.mem.length
          ∧ AsPreviewed hashingPlatform preview d r.mem stored := by
  intro shown r
  have hsame : r.mem = shown.mem := rfl
  obtain ⟨i, d, preview, hpreview, hdigest⟩ := exists_of_digest
    (show (buildDomainUpdatePreview hashingPlatform shown.mem
        firstDomainId.text redirectChanges).toOption.map
          (fun found => found.2.2.previewDigest) = some redirectDigest by
      decide +kernel)
  obtain ⟨next, reply, hwritten⟩ := exists_written
    (show (match (Call.updateDomain firstDomainId.text redirectChanges
        redirectDigest).effect hashingPlatform (envWith firstDomainId) r.mem
        with
      | .written _ _ => true
      | _ => false) = true by
      decide +kernel)
  rw [← hdigest] at hwritten
  refine ⟨i, d, preview, next, reply, hpreview, hwritten, ?_⟩
  apply update_is_as_previewed hashingPlatform valid_nil creationEvents
    [.settle true] (envWith firstDomainId) firstDomainId.text
    firstDomainId.text redirectChanges redirectChanges i d preview next reply
    hpreview hwritten
  -- Nothing has changed in between, so the same text is hashed twice.
  intro j d' preview' hpreview' _
  have hpair : buildDomainUpdatePreview hashingPlatform shown.mem
      firstDomainId.text redirectChanges = .ok (j, d', preview') := hpreview'
  rw [hpreview] at hpair
  obtain ⟨rfl, rfl, rfl⟩ := Prod.mk.inj (Except.ok.inj hpair) |>.imp id
    Prod.mk.inj
  rfl

end Yunpanel.Domains
