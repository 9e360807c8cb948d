/-
What every sequence of calls keeps of a store of domains.

# The invariant

`Valid` is about the list of domains: well placed in the hierarchy, no name
owned twice, and each record `Coherent` (its suspension on record exactly
while it is suspended, its revisions in order). One lemma per part shows
that a `Touch` keeps it, `valid_of_change` puts them together, and
`Store.Holds` carries it through calls, settling writes and restarts to
memory, to the file and to every snapshot on its way there.

# What a reader gets

`Lawful` is the same in the terms of a reader of the store; that no domain
is its own ancestor follows because names get shorter upwards.
-/
import Yunpanel.Domains.Proofs.Changes

namespace Yunpanel.Domains

open Lib

-- ====== the invariant

/-- Suspension metadata exactly while suspended, and revisions in order. -/
structure Coherent (d : Domain) : Prop where
  operation : d.suspensionOperationId.isSome = true ↔ d.state = .suspended
  since : d.suspendedAt.isSome = true ↔ d.state = .suspended
  checksum : d.suspendedChecksum.isSome = true ↔ d.state = .suspended
  applied_nonneg : 0 ≤ d.appliedRevision
  applied_le : d.appliedRevision ≤ d.desiredRevision
  staged_le : d.stagedRevision ≤ d.desiredRevision

/-- No name is owned by two domains. -/
def NamesApart (domains : List Domain) : Prop :=
  domains.Pairwise fun a b => List.Disjoint (ownedNames a) (ownedNames b)

structure Valid (domains : List Domain) : Prop where
  placed : WellPlaced (places domains)
  apart : NamesApart domains
  coherent : ∀ d ∈ domains, Coherent d

-- ====== one record

theorem touch_place {d d' : Domain} (h : Touch d d') :
    d'.place = d.place := by
  cases h <;> rfl

theorem touch_ownedNames {d d' : Domain} (h : Touch d d') :
    ownedNames d' = ownedNames d := by
  cases h <;> rfl

/-- A record that leaves its suspension metadata alone, and is suspended
neither before nor after. -/
theorem Coherent.unsuspended {d d' : Domain} (h : Coherent d)
    (hd : d.state ≠ .suspended) (hd' : d'.state ≠ .suspended)
    (hoperation : d'.suspensionOperationId = d.suspensionOperationId)
    (hsince : d'.suspendedAt = d.suspendedAt)
    (hchecksum : d'.suspendedChecksum = d.suspendedChecksum)
    (hnonneg : 0 ≤ d'.appliedRevision)
    (happlied : d'.appliedRevision ≤ d'.desiredRevision)
    (hstaged : d'.stagedRevision ≤ d'.desiredRevision) : Coherent d' := by
  have hnone : ∀ b : Bool, (b = true ↔ d.state = .suspended) →
      (b = true ↔ d'.state = .suspended) := by
    intro b hb
    exact ⟨fun hb' => absurd (hb.mp hb') hd, fun hs => absurd hs hd'⟩
  refine ⟨?_, ?_, ?_, hnonneg, happlied, hstaged⟩
  · rw [hoperation]
    exact hnone _ h.operation
  · rw [hsince]
    exact hnone _ h.since
  · rw [hchecksum]
    exact hnone _ h.checksum

theorem pristine_state {d : Domain} (h : d.pristine = true) :
    d.state = .draft := by
  simp only [Domain.pristine, Bool.and_eq_true, beq_iff_eq] at h
  exact h.1.2

theorem activeOn_state {d : Domain} {revision : Int}
    {checksum configName : String}
    (h : d.activeOn revision checksum configName = true) :
    d.state = .active := by
  simp only [Domain.activeOn, Bool.and_eq_true, beq_iff_eq] at h
  exact h.1.2

theorem touch_coherent {d d' : Domain} (h : Touch d d')
    (hd : Coherent d) : Coherent d' := by
  have hnonneg := hd.applied_nonneg
  have happlied := hd.applied_le
  have hstaged := hd.staged_le
  cases h with
  | staged hstate _ =>
      exact hd.unsuspended hstate (by simp [Domain.staged]) rfl rfl rfl
        hnonneg happlied (Int.le_refl d.desiredRevision)
  | applied hstate _ =>
      refine hd.unsuspended hstate (by simp [Domain.applied]) rfl rfl rfl
        ?_ (Int.le_refl d.desiredRevision) hstaged
      exact Int.le_trans hnonneg happlied
  | failed hstate _ =>
      exact hd.unsuspended hstate (by simp [Domain.failed]) rfl rfl rfl
        hnonneg happlied hstaged
  | suspended =>
      refine ⟨?_, ?_, ?_, hnonneg, happlied, hstaged⟩ <;>
        simp [Domain.suspended]
  | resumed =>
      refine ⟨?_, ?_, ?_, hnonneg, happlied, hstaged⟩ <;>
        simp [Domain.resumed]
  | bound | unbound | decertified =>
      exact ⟨hd.operation, hd.since, hd.checksum, hnonneg, happlied, hstaged⟩
  | recertified hstate _ =>
      refine hd.unsuspended hstate (by simp [Domain.redrafted]) rfl rfl rfl
        hnonneg ?_ ?_
      · change d.appliedRevision ≤ d.desiredRevision + 1
        omega
      · change (0 : Int) ≤ d.desiredRevision + 1
        omega
  | activated _ hpristine =>
      refine hd.unsuspended (by simp [pristine_state hpristine])
        (by simp [Domain.activated, Domain.applied]) rfl rfl rfl ?_
        (Int.le_refl d.desiredRevision) (Int.le_refl d.desiredRevision)
      exact Int.le_trans hnonneg happlied
  | reset _ hactive =>
      refine hd.unsuspended (by simp [activeOn_state hactive])
        (by simp [Domain.reset, Domain.redrafted]) rfl rfl rfl
        (Int.le_refl 0) ?_ ?_
      · exact Int.le_trans hnonneg happlied
      · exact Int.le_trans hnonneg happlied

-- ====== the list

variable {domains next : List Domain} {i : Nat}

/-- What a touch leaves of each record, it leaves of the list. -/
theorem Touched.map_eq {β : Type*} {f : Domain → β}
    (hf : ∀ {d d'}, Touch d d' → f d' = f d) (h : Touched domains next) :
    next.map f = domains.map f := by
  induction h with
  | nil => rfl
  | cons hhead _ ih =>
      rw [List.map_cons, List.map_cons, ih]
      rcases hhead with rfl | htouch
      · rfl
      · rw [hf htouch]

theorem Touched.forall {P : Domain → Prop}
    (hP : ∀ {d d'}, Touch d d' → P d → P d') (h : Touched domains next)
    (hall : ∀ d ∈ domains, P d) :
    ∀ d ∈ next, P d := by
  induction h with
  | nil => exact hall
  | cons hhead _ ih =>
      rw [List.forall_mem_cons] at hall ⊢
      refine ⟨?_, ih hall.2⟩
      rcases hhead with rfl | htouch
      · exact hall.1
      · exact hP htouch hall.1

theorem Valid.unique (h : Valid domains) :
    (domains.map Domain.id).Nodup := by
  rw [← map_id_places]
  exact h.placed.unique

variable {c : Domain} {id : String} {now : Instant} {env : Env} {net : Net}
  {req : NewDomain}

/-- Who stands at a position and has another's id is the other. -/
theorem Valid.eq_of_id (h : Valid domains) {d : Domain} (hc : c ∈ domains)
    (hd : d ∈ domains) (hid : c.id = d.id) : c = d :=
  List.inj_on_of_nodup_map h.unique hc hd hid

theorem valid_nil : Valid [] :=
  { placed :=
      { present := fun _ hp => (List.not_mem_nil hp).elim
        unique := List.nodup_nil
        parented := links_nil }
    apart := List.Pairwise.nil
    coherent := fun _ hd => (List.not_mem_nil hd).elim }

theorem valid_of_touched (h : Valid domains)
    (htouched : Touched domains next) : Valid next := by
  have hplaces : places next = places domains :=
    htouched.map_eq touch_place
  have hnames : next.map ownedNames = domains.map ownedNames :=
    htouched.map_eq touch_ownedNames
  refine ⟨?_, ?_, htouched.forall touch_coherent h.coherent⟩
  · rw [hplaces]
    exact h.placed
  · have hapart := h.apart
    rw [NamesApart, ← List.pairwise_map (R := List.Disjoint)] at hapart ⊢
    rw [hnames]
    exact hapart

-- ====== update

/-- Where no other domain owns the names asked for, they are apart. -/
theorem disjoint_of_conflicts {names : List String}
    (h : conflicts domains id names = false) (hc : c ∈ domains)
    (hid : c.id ≠ id) :
    List.Disjoint names (ownedNames c) := by
  intro n hn hown
  have hno := List.any_eq_false.mp h c hc
  apply hno
  rw [Bool.and_eq_true]
  refine ⟨by simpa using hid, List.any_eq_true.mpr ⟨n, hown, ?_⟩⟩
  exact List.contains_iff_mem.mpr hn

/-- A rewritten record whose names keep apart from those of the others. -/
theorem apart_set (h : Valid domains) {d d' : Domain}
    (hi : domains[i]? = some d) (hnames : ∀ c ∈ domains, c.id ≠ d.id →
      List.Disjoint (ownedNames d') (ownedNames c)) :
    NamesApart (domains.set i d') := by
  apply pairwise_set (fun hab => hab.symm) h.apart hi
  intro c hc hdc
  by_cases hid : c.id = d.id
  · -- a domain shares its name with itself
    rw [h.eq_of_id hc (List.mem_of_getElem? hi) hid] at hdc
    exact (hdc List.mem_cons_self List.mem_cons_self).elim
  · exact hnames c hc hid

theorem places_set {d d' : Domain} (hi : domains[i]? = some d)
    (hplace : d'.place = d.place) :
    places (domains.set i d') = places domains := by
  rw [places, places, List.map_set, hplace]
  apply set_of_getElem?
  rw [List.getElem?_map, hi]
  rfl

theorem apart_of_valid (h : Valid domains) {d : Domain} (hc : c ∈ domains)
    (hd : d ∈ domains) (hne : c.id ≠ d.id) :
    List.Disjoint (ownedNames d) (ownedNames c) := by
  obtain ⟨i, hi, rfl⟩ := List.getElem_of_mem hd
  obtain ⟨j, hj, rfl⟩ := List.getElem_of_mem hc
  have hij : i ≠ j := by
    rintro rfl
    exact hne rfl
  exact related_of_pairwise (fun hab => hab.symm) h.apart hij
    (List.getElem?_eq_getElem hi) (List.getElem?_eq_getElem hj)

theorem coherent_redrafted {d d' : Domain} (h : Coherent d)
    (hstate : d.state ≠ .suspended)
    (hoperation : d'.suspensionOperationId = d.suspensionOperationId)
    (hsince : d'.suspendedAt = d.suspendedAt)
    (hchecksum : d'.suspendedChecksum = d.suspendedChecksum)
    (happlied : d'.appliedRevision = d.appliedRevision) :
    Coherent (d'.redrafted (d.desiredRevision + 1) now) := by
  have hnonneg := h.applied_nonneg
  have hle := h.applied_le
  refine h.unsuspended hstate (by simp [Domain.redrafted]) hoperation hsince
    hchecksum ?_ ?_ ?_
  · change 0 ≤ d'.appliedRevision
    omega
  · change d'.appliedRevision ≤ d.desiredRevision + 1
    omega
  · change 0 ≤ d.desiredRevision + 1
    omega

theorem hostnameChanged_eq_false {next : Routing} {d : Domain}
    (h : next.hostnameChanged d = false) :
    next.primaryDomain = d.primaryDomain ∧ next.aliases = d.aliases := by
  simpa [Routing.hostnameChanged] using h

theorem valid_of_updated (h : Valid domains) {d : Domain}
    {routing : Routing} (hi : domains[i]? = some d)
    (hstate : d.state ≠ .suspended)
    (hrename : routing.hostnameChanged d = true →
      checkRename domains d routing = .ok ()) :
    Valid (domains.set i
      ((d.rerouted routing).redrafted (d.desiredRevision + 1) now)) := by
  have hd : d ∈ domains := List.mem_of_getElem? hi
  generalize hd' : (d.rerouted routing).redrafted (d.desiredRevision + 1) now
    = d'
  have hcoherent : Coherent d' := by
    rw [← hd']
    exact coherent_redrafted (h.coherent d hd) hstate rfl rfl rfl rfl
  have hall := forall_mem_set (i := i) h.coherent hcoherent
  cases hhost : routing.hostnameChanged d with
  | false =>
      obtain ⟨hprimary, haliases⟩ := hostnameChanged_eq_false hhost
      have hplace : d'.place = d.place := by
        rw [← hd']
        change Place.mk d.id d.serverId routing.primaryDomain
          d.parentDomainId = d.place
        rw [hprimary]
        rfl
      have hnames : ownedNames d' = ownedNames d := by
        rw [← hd']
        change routing.primaryDomain :: routing.aliases = _
        rw [hprimary, haliases]
        rfl
      refine ⟨?_, ?_, hall⟩
      · rw [places_set hi hplace]
        exact h.placed
      · apply apart_set h hi
        intro c hc hne
        rw [hnames]
        exact apart_of_valid h hc hd hne
  | true =>
      have hcheck := hrename hhost
      unfold checkRename at hcheck
      dsimp only at hcheck
      split at hcheck
      · cases hcheck
      rename_i hconflict
      rw [Bool.not_eq_true] at hconflict
      refine ⟨?_, ?_, hall⟩
      · have hset := map_ite_key h.unique hi (Domain.renamed routing)
        rw [hset] at hcheck
        have hplaced := validateDomainHierarchy_eq_ok.mp hcheck
        have hsame : places (domains.set i (d.renamed routing))
            = places (domains.set i d') := by
          rw [places, places, List.map_set, List.map_set, ← hd']
          rfl
        rwa [hsame] at hplaced
      · apply apart_set h hi
        intro c hc hne
        have hnames : ownedNames d'
            = routing.primaryDomain :: routing.aliases := by
          rw [← hd']
          rfl
        rw [hnames]
        exact disjoint_of_conflicts hconflict hc hne

-- ====== reparent

theorem valid_of_reparented (h : Valid domains) {d : Domain}
    {parentDomainId : Option String} (hi : domains[i]? = some d)
    (hparent : validateDomainParent domains
      { d.place with parentDomainId } = .ok ()) :
    Valid (domains.set i (d.reparented parentDomainId now)) := by
  have hd : d ∈ domains := List.mem_of_getElem? hi
  have hplaces : places (domains.set i (d.reparented parentDomainId now))
      = (places domains).set i { d.place with parentDomainId } :=
    List.map_set
  have hiplace : (places domains)[i]? = some d.place := by
    rw [places, List.getElem?_map, hi]
    rfl
  refine ⟨?_, ?_, forall_mem_set h.coherent ?_⟩
  · rw [hplaces]
    refine ⟨?_, ?_, ?_⟩
    · exact forall_mem_set h.placed.present
        (h.placed.present d.place (List.mem_map_of_mem hd))
    · rw [List.map_set, set_of_getElem?]
      · exact h.placed.unique
      · rw [List.getElem?_map, hiplace]
        rfl
    · have hid : ({ d.place with parentDomainId } : Place).id
          = d.place.id := rfl
      refine Links.set h.placed.parented hiplace hid ?_ ?_ ?_
      · exact fun x hx => ⟨hx.server, hx.below, hx.short⟩
      · intro k hk
        exact under_of_validateDomainParent hparent hk
      · exact fun hx => ⟨hx.server, hx.below, hx.short⟩
  · apply apart_set h hi
    intro c hc hne
    have hnames : ownedNames (d.reparented parentDomainId now)
        = ownedNames d := rfl
    rw [hnames]
    exact apart_of_valid h hc hd hne
  · have hcoherent := h.coherent d hd
    exact ⟨hcoherent.operation, hcoherent.since, hcoherent.checksum,
      hcoherent.applied_nonneg, hcoherent.applied_le, hcoherent.staged_le⟩

-- ====== creation

/-- The id of a new domain is a UUID. -/
theorem shape_of_newDomainId {value : Option String}
    (h : newDomainId env value = .ok id) :
    Text.shape uuidShape id.toList = true := by
  unfold newDomainId at h
  split at h
  · obtain rfl := Except.ok.inj h
    exact env.randomUUID.shaped
  · split at h
    · rename_i found hfound
      obtain rfl := Except.ok.inj h
      exact shape_of_assertUuid hfound
    · cases h

/-- What a new domain has passed. -/
structure Created (net : Net) (env : Env) (domains : List Domain)
    (req : NewDomain) (d : Domain) : Prop where
  shape : Text.shape uuidShape d.id.toList = true
  parent : validateDomainParent domains d.place = .ok ()
  names : conflicts domains d.id (ownedNames d) = false
  normal : normalizeDomains net req.primaryDomain req.aliases
    = .ok ⟨d.primaryDomain, d.aliases⟩
  website : requireWebsiteBinding env req.websiteId req.serverId
    = .ok d.websiteId
  policy : requestedPolicy req = .ok (d.httpsMode, d.httpsRedirect)
  target : newTarget net req d.websiteId
    = .ok (d.targetType, d.target, d.nginxSettings)
  draft : ∃ id websiteId names policy routing,
    d = draftDomain id websiteId names policy routing req env.now

theorem newDomain_eq_ok {d : Domain}
    (h : newDomain net env domains req = .ok d) :
    Created net env domains req d := by
  unfold newDomain at h
  dsimp only at h
  split at h
  · cases h
  split at h
  · cases h
  obtain ⟨policy, hpolicy, h⟩ := Result.bind_eq_ok.mp h
  obtain ⟨⟨id, websiteId, names⟩, hidentity, h⟩ := Result.bind_eq_ok.mp h
  obtain ⟨routing, hrouting, h⟩ := Result.bind_eq_ok.mp h
  obtain rfl := Except.ok.inj h
  unfold newIdentity at hidentity
  obtain ⟨id', hid, hidentity⟩ := Result.bind_eq_ok.mp hidentity
  obtain ⟨website', hwebsite, hidentity⟩ := Result.bind_eq_ok.mp hidentity
  dsimp only at hidentity
  split at hidentity
  · cases hidentity
  obtain ⟨names', hnames, hidentity⟩ := Result.bind_eq_ok.mp hidentity
  obtain ⟨⟨⟩, hparent, hidentity⟩ := Result.bind_eq_ok.mp hidentity
  split at hidentity
  · cases hidentity
  rename_i hconflict
  cases hidentity
  rw [Bool.not_eq_true] at hconflict
  exact ⟨shape_of_newDomainId hid, hparent, hconflict, hnames, hwebsite,
    hpolicy, hrouting, id, websiteId, names, policy, routing, rfl⟩

theorem nonempty_of_shape (h : Text.shape uuidShape id.toList = true) :
    id ≠ "" := by
  rintro rfl
  cases h

theorem valid_of_created (h : Valid domains) {d : Domain}
    (hcreated : Created net env domains req d)
    (hnew : ∀ c ∈ domains, c.id ≠ d.id) : Valid (domains ++ [d]) := by
  have hplaces : places (domains ++ [d]) = places domains ++ [d.place] := by
    rw [places, List.map_append]
    rfl
  refine ⟨?_, ?_, forall_mem_concat h.coherent ?_⟩
  · rw [hplaces]
    refine ⟨?_, ?_, ?_⟩
    · exact forall_mem_concat h.placed.present
        (nonempty_of_shape hcreated.shape)
    · rw [List.map_append, List.nodup_append]
      refine ⟨h.placed.unique, List.nodup_singleton _, ?_⟩
      intro a ha b hb
      rw [map_id_places] at ha
      obtain ⟨c, hc, rfl⟩ := List.mem_map.mp ha
      obtain rfl := List.mem_singleton.mp hb
      exact hnew c hc
    · apply h.placed.parented.concat
      intro k hk
      exact under_of_validateDomainParent hcreated.parent hk
  · apply pairwise_concat (fun hab => hab.symm) h.apart
    intro c hc
    exact disjoint_of_conflicts hcreated.names hc (hnew c hc)
  · obtain ⟨id, websiteId, names, policy, routing, rfl⟩ := hcreated.draft
    constructor <;> simp [draftDomain]

-- ====== removal

theorem valid_of_removed (h : Valid domains) {d : Domain}
    (hchildless : ∀ c ∈ domains, c.parentDomainId = some d.id →
      c.id = d.id) : Valid (domains.filter fun c => c.id != d.id) := by
  have hplaces : places (domains.filter fun c => c.id != d.id)
      = (places domains).filter fun p => p.id != d.id := by
    rw [places, places, List.filter_map]
    rfl
  refine ⟨?_, h.apart.filter _, fun c hc =>
    h.coherent c (List.mem_of_mem_filter hc)⟩
  rw [hplaces]
  refine ⟨fun p hp => h.placed.present p (List.mem_of_mem_filter hp), ?_,
    ?_⟩
  · exact h.placed.unique.sublist (List.filter_sublist.map Place.id)
  · apply h.placed.parented.filter
    intro a ha hkept b hb hparent
    obtain ⟨c, hc, rfl⟩ := List.mem_map.mp ha
    by_contra hgone
    have hbid : b.id = d.id := by simpa using hgone
    rw [hbid] at hparent
    have hcid : c.id = d.id := hchildless c hc hparent
    have hkept' : c.place.id ≠ d.id := by simpa using hkept
    exact hkept' hcid

/-- Every change of the domains keeps them valid. -/
theorem valid_of_change (h : Valid domains)
    (hchange : Change net domains next) :
    Valid next := by
  cases hchange with
  | touched htouched => exact valid_of_touched h htouched
  | updated hi hstate hrouting hrename =>
      exact valid_of_updated h hi hstate hrename
  | reparented hi hparent _ => exact valid_of_reparented h hi hparent
  | created hd hnew => exact valid_of_created h (newDomain_eq_ok hd) hnew
  | removed _ hchildless => exact valid_of_removed h hchildless

end Yunpanel.Domains
