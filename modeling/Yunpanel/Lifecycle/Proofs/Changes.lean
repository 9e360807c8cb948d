/-
What an accepted call makes of zones, mail domains and domains.

# Resources

Whatever is called on a resource, the resources stay `Tracked`. A creation
and a deletion leave every resource loadable; an observation and a change
of status do so exactly while the revision they expect is not the largest
safe integer.

# Domains

A call of the registry of domains leaves each primary name where it was,
two calls apart: an update gives one domain the name it sends, and a
removal takes one away. Neither asks whether a resource names the domain
(`loads_updated_iff`, `loads_removed_iff`).
-/
import Yunpanel.Lifecycle.Proofs.Loading

namespace Yunpanel.Lifecycle

open Lib Lib.Result
open Domains (Net Platform Domain IsHostname)

variable {net : Net} {type : ResourceType}

-- ====== creation

/-- What a creation has checked. -/
structure Created (net : Net) (type : ResourceType) (domains : List Domain)
    (rs : List Resource) (r : Resource) : Prop where
  coherent : Coherent net type r
  safe : r.revision = 1
  id : ∀ r' ∈ rs, r'.id ≠ r.id
  name : ∀ r' ∈ rs, r'.name ≠ r.name
  reference : ∀ id, r.webDomainId = some id →
    ∀ r' ∈ rs, r'.webDomainId ≠ some id
  refers : Refers domains r

variable {env : Env} {domains next : List Domain} {rs rs' : List Resource}
  {r : Resource} {i : Nat}

theorem coherent_newResource {id : Uuid} {name : String}
    {webDomainId : Option WebDomainId} {mode : ManagementMode}
    (hmode : type.supports mode = true) (hname : IsHostname net name) :
    Coherent net type (newResource env id name webDomainId mode) where
  mode := hmode
  status := by cases mode <;> simp [newResource, ManagementMode.statuses]
  positive := Nat.le_refl 1
  observed := fun h => by
    have hmode : mode = .external := h
    simp [newResource, hmode]
  unobserved := fun _ => rfl
  name := hname
  code := by cases mode <;> simp [newResource]

theorem createResource_eq_ok (h : Domains.Sound net domains) {reply : Reply}
    {input : CreateInput}
    (hok : createResource net env type domains rs input = .ok (rs', reply)) :
    ∃ r, rs' = rs ++ [r] ∧ Created net type domains rs r := by
  simp only [createResource, bind_eq_ok, exists_unit, ensure_eq_ok,
    pure_eq, Except.ok.injEq, Prod.mk.injEq] at hok
  obtain ⟨mode, hmode, id, -, name, hname, reference, -, hrefers, hid, hnew,
    hfree, rfl, -⟩ := hok
  have hsupports : type.supports mode = true := by
    have hmode := demand_eq_ok.mp hmode
    exact (Option.filter_eq_some_iff.mp hmode).2
  refine ⟨_, rfl, coherent_newResource hsupports (canonicalName_eq_ok hname),
    rfl, ?_, ?_, ?_, (validateReference_eq_ok h).mp hrefers⟩
  · simpa [newResource] using hid
  · simpa [newResource] using hnew
  · intro id' hid' r' hr' he
    have hsome : reference = some id' := hid'
    subst hsome
    simp only [Option.isNone_some, Bool.false_or, Bool.not_eq_true',
      List.any_eq_false, beq_iff_eq] at hfree
    exact hfree r' hr' he

theorem Created.tracked (h : Created net type domains rs r)
    (hrs : Tracked net type rs) : Tracked net type (rs ++ [r]) := by
  refine ⟨forall_mem_concat hrs.coherent h.coherent, ?_, ?_, ?_⟩
  · rw [List.map_append, List.nodup_append]
    refine ⟨hrs.ids, List.nodup_singleton _, ?_⟩
    simpa using h.id
  · rw [List.map_append, List.nodup_append]
    refine ⟨hrs.names, List.nodup_singleton _, ?_⟩
    simpa using h.name
  · rw [List.filterMap_append, List.nodup_append]
    cases hid : r.webDomainId with
    | none =>
        rw [List.filterMap_cons_none hid, List.filterMap_nil]
        exact ⟨hrs.references, List.nodup_nil, by simp⟩
    | some id =>
        rw [List.filterMap_cons_some hid, List.filterMap_nil]
        refine ⟨hrs.references, List.nodup_singleton id, ?_⟩
        intro a ha b hb hab
        obtain ⟨r', hr', ha⟩ := List.mem_filterMap.mp ha
        rw [hab, List.mem_singleton.mp hb] at ha
        exact h.reference id hid r' hr' ha

theorem Created.loads (h : Created net type domains rs r) :
    Loads domains r := by
  refine ⟨?_, h.refers⟩
  rw [h.safe]
  decide

-- ====== changes

/-- What an observation or a change of status leaves as it is, and what it
makes of the rest. -/
structure Advanced (net : Net) (type : ResourceType) (r r' : Resource) :
    Prop where
  coherent : Coherent net type r'
  id : r'.id = r.id
  name : r'.name = r.name
  reference : r'.webDomainId = r.webDomainId
  revision : r'.revision = r.revision + 1

theorem recordObservation_eq_ok {reply : Reply} {input : ObserveInput}
    (hrs : Tracked net type rs)
    (hok : recordObservation env type rs input = .ok (rs', reply)) :
    ∃ i r r', rs[i]? = some r ∧ rs' = rs.set i r'
      ∧ Advanced net type r r'
      ∧ revisionOf type input.expectedRevision = .ok r.revision := by
  simp only [recordObservation, requireResource, bind_eq_ok, exists_unit,
    ensure_eq_ok, demand_eq_ok, beq_iff_eq, pure_eq, Except.ok.injEq,
    Prod.mk.injEq, Prod.exists] at hok
  obtain ⟨id, -, i, r, hlocated, hmode, expected, hexpected, hrevision,
    status, hstatus, code, hcode, rfl, -⟩ := hok
  have hi := getElem?_of_locate hlocated
  have hr := hrs.coherent r (mem_of_locate hlocated)
  have hobserved := (Option.filter_eq_some_iff.mp hstatus).2
  refine ⟨i, r, _, hi, rfl, ⟨?_, rfl, rfl, rfl, rfl⟩, hrevision ▸ hexpected⟩
  exact
    { mode := hr.mode
      status := by
        show status ∈ r.managementMode.statuses
        rw [hmode]
        cases status <;> simp_all [ManagementMode.statuses]
      positive := Nat.le_add_left 1 r.revision
      observed := fun _ => by
        cases status <;> simp_all [Resource.observed]
      unobserved := fun h => by
        rw [show r.managementMode = _ from h] at hmode
        cases hmode
      name := hr.name
      code := errorCode_eq_ok hcode }

theorem transitionLocalStatus_eq_ok {reply : Reply}
    {input : TransitionInput} (hrs : Tracked net type rs)
    (hok : transitionLocalStatus env type rs input = .ok (rs', reply)) :
    ∃ i r r', rs[i]? = some r ∧ rs' = rs.set i r'
      ∧ Advanced net type r r'
      ∧ revisionOf type input.expectedRevision = .ok r.revision := by
  simp only [transitionLocalStatus, requireResource, bind_eq_ok, exists_unit,
    ensure_eq_ok, demand_eq_ok, beq_iff_eq, Bool.and_eq_true, pure_eq,
    Except.ok.injEq, Prod.mk.injEq, Prod.exists] at hok
  obtain ⟨id, -, i, r, hlocated, ⟨-, hmode⟩, expected, hexpected, hrevision,
    status, hstatus, -, rfl, -⟩ := hok
  have hi := getElem?_of_locate hlocated
  have hr := hrs.coherent r (mem_of_locate hlocated)
  have hlocal := (Option.filter_eq_some_iff.mp hstatus).2
  refine ⟨i, r, _, hi, rfl, ⟨?_, rfl, rfl, rfl, rfl⟩, hrevision ▸ hexpected⟩
  exact
    { mode := hr.mode
      status := by
        show status ∈ r.managementMode.statuses
        rw [hmode]
        simpa using hlocal
      positive := Nat.le_add_left 1 r.revision
      observed := fun h => by
        rw [show r.managementMode = _ from h] at hmode
        cases hmode
      unobserved := fun _ => rfl
      name := hr.name
      code := by
        cases status <;>
          simp_all [Resource.transitioned, ManagementMode.statuses] }

variable {r' : Resource} {platform : Platform} {changes : Json}
  {domainId : String}

theorem Advanced.tracked (h : Advanced net type r r') (hi : rs[i]? = some r)
    (hrs : Tracked net type rs) :
    Tracked net type (rs.set i r') := by
  have hsame : ∀ {β : Type} (f : Resource → β), f r' = f r →
      (rs.set i r').map f = rs.map f := by
    intro β f hf
    rw [List.map_set, hf]
    apply set_of_getElem?
    rw [List.getElem?_map, hi]
    rfl
  refine ⟨forall_mem_set hrs.coherent h.coherent, ?_, ?_, ?_⟩
  · rw [hsame _ h.id]
    exact hrs.ids
  · rw [hsame _ h.name]
    exact hrs.names
  · have hfilter : ∀ as : List Resource, as.filterMap Resource.webDomainId
        = (as.map Resource.webDomainId).filterMap fun x => x := by
      intro as
      rw [List.filterMap_map]
      rfl
    rw [hfilter, hsame _ h.reference, ← hfilter]
    exact hrs.references

/-- A resource goes on loading exactly while its revision is safe. -/
theorem Advanced.loads_iff (h : Advanced net type r r')
    (hi : rs[i]? = some r) (hrs : ∀ r ∈ rs, Loads domains r) :
    (∀ r ∈ rs.set i r', Loads domains r) ↔ r.revision ≠ maxSafeInteger := by
  have hr := hrs r (List.mem_of_getElem? hi)
  have hsafe := hr.safe
  constructor
  · intro hall
    have hnext := (hall r' (mem_set_self hi)).safe
    rw [h.revision] at hnext
    omega
  · intro hne
    refine forall_mem_set hrs ⟨?_, ?_⟩
    · rw [h.revision]
      omega
    · intro id hid
      rw [h.name]
      exact hr.refers id (h.reference ▸ hid)

-- ====== deletion

theorem deleteResource_eq_ok {reply : Reply} {input : DeleteInput}
    (hok : deleteResource type rs input = .ok (rs', reply)) :
    ∃ i, rs' = rs.eraseIdx i := by
  simp only [deleteResource, bind_eq_ok, exists_unit, ensure_eq_ok, pure_eq,
    Except.ok.injEq, Prod.mk.injEq, Prod.exists] at hok
  obtain ⟨-, -, -, -, i, -, -, -, -, -, rfl, -⟩ := hok
  exact ⟨i, rfl⟩

theorem Tracked.sublist (h : Tracked net type rs) (hsub : rs'.Sublist rs) :
    Tracked net type rs' where
  coherent := fun r hr => h.coherent r (hsub.subset hr)
  ids := h.ids.sublist (hsub.map _)
  names := h.names.sublist (hsub.map _)
  references := h.references.sublist (hsub.filterMap _)

-- ====== domains

/-- Every domain keeps its primary name. -/
def KeepsNames (domains next : List Domain) : Prop :=
  ∀ id name, primaryName domains id = some name →
    primaryName next id = some name

theorem KeepsNames.refl (domains : List Domain) :
    KeepsNames domains domains := fun _ _ h => h

theorem keepsNames_touched (h : Domains.Touched domains next) :
    KeepsNames domains next := by
  intro id name hname
  unfold primaryName at hname ⊢
  induction h with
  | nil => exact hname
  | @cons d d' _ _ hhead _ ih =>
      have hplace : d'.place = d.place := by
        rcases hhead with rfl | htouch
        · rfl
        · exact Domains.touch_place htouch
      have hid : d'.id = d.id := congrArg Domains.Place.id hplace
      have hprimary : d'.primaryDomain = d.primaryDomain :=
        congrArg Domains.Place.primaryDomain hplace
      rw [List.find?_cons] at hname ⊢
      rw [hid]
      by_cases hmatch : (d.id == id) = true
      · rw [hmatch] at hname ⊢
        rw [← hname, Option.map_some, Option.map_some, hprimary]
      · rw [Bool.not_eq_true] at hmatch
        rw [hmatch] at hname ⊢
        exact ih hname

/-- A domain rewritten in place: its own name may change, no other does. -/
theorem primaryName_set {d d' : Domain} (hvalid : Domains.Valid domains)
    (hi : domains[i]? = some d) (hid : d'.id = d.id) (id : String) :
    primaryName (domains.set i d') id
      = if d.id = id then some d'.primaryDomain
        else primaryName domains id := by
  obtain ⟨j, c, hlocated⟩ := exists_locate (p := fun c => c.id == d.id)
    (List.mem_of_getElem? hi) (beq_self_eq_true d.id)
  have hget := getElem?_of_locate hlocated
  have hkey : c.id = d.id := by simpa using accepted_of_locate hlocated
  -- the domains are told apart by their ids
  obtain rfl : j = i := by
    have hlt := (List.getElem?_eq_some_iff.mp hget).1
    have hsame : (domains.map Domain.id)[j]? = (domains.map Domain.id)[i]? := by
      rw [List.getElem?_map, List.getElem?_map, hget, hi]
      exact congrArg some hkey
    exact (List.getElem?_inj (by simpa using hlt) hvalid.unique).mp hsame
  have hfind := @find?_set_located _ _ _ Domain.id _ _ _ _ _ hlocated hid id
  unfold primaryName
  rw [hfind]
  split <;> rfl

theorem primaryName_removed (domains : List Domain) (removed id : String) :
    primaryName (domains.filter fun d => d.id != removed) id
      = if removed = id then none else primaryName domains id := by
  unfold primaryName
  rw [List.find?_filter]
  by_cases hid : removed = id
  · subst hid
    simp
  · rw [if_neg hid]
    refine congrArg (fun p => (domains.find? p).map Domain.primaryDomain) ?_
    funext d
    by_cases hd : d.id = id
    · simp [hd, Ne.symm hid]
    · simp [hd]

/-- The calls that change no name. -/
def leavesNames : Domains.Call → Bool
  | .updateDomain _ _ _ => false
  | .finalizeDomainRemoval _ _ _ => false
  | _ => true

theorem keepsNames_set (hvalid : Domains.Valid domains) {d d' : Domain}
    (hi : domains[i]? = some d) (hid : d'.id = d.id)
    (hname : d'.primaryDomain = d.primaryDomain) :
    KeepsNames domains (domains.set i d') := by
  intro id name hsome
  rw [primaryName_set hvalid hi hid]
  split
  · rename_i he
    have hfound := find?_key hvalid.unique (List.mem_of_getElem? hi) he
    unfold primaryName at hsome
    rw [hfound] at hsome
    rw [hname]
    exact hsome
  · exact hsome

theorem keepsNames_append (domains : List Domain) (d : Domain) :
    KeepsNames domains (domains ++ [d]) := by
  intro id name hsome
  unfold primaryName at hsome ⊢
  obtain ⟨found, hfound, hname⟩ := Option.map_eq_some_iff.mp hsome
  rw [List.find?_append, hfound]
  exact congrArg some hname

theorem keepsNames_of_written {env : Domains.Env} {c : Domains.Call}
    {reply : List Domain → Except Domains.Failure Domains.Reply}
    (hvalid : Domains.Valid domains) (hc : leavesNames c = true)
    (h : c.effect platform env domains = .written next reply) :
    KeepsNames domains next := by
  -- a call that touches single records is seen to by `Touched`
  have htouched : ∀ {id : String} {turn},
      (∀ {d d' reply}, turn d = .ok (.changed d' reply) →
        Domains.Touch d d') →
      Domains.onDomain id turn domains = .written next reply →
      KeepsNames domains next := fun hturn hw =>
    keepsNames_touched (Domains.touched_of_onDomain hturn hw)
  cases c with
  | listDomains => exact (Domains.written_of_ofResult h).elim
  | getDomain _ => exact (Domains.written_of_ofResult h).elim
  | previewDomainReparent _ _ => exact (Domains.written_of_ofResult h).elim
  | previewDomainUpdate _ _ => exact (Domains.written_of_ofResult h).elim
  | updateDomain _ _ _ => cases hc
  | finalizeDomainRemoval _ _ _ => cases hc
  | reparentDomain _ _ _ =>
      obtain ⟨i, d, parent, hi, rfl⟩ := Domains.reparentDomain_set h
      exact keepsNames_set hvalid hi rfl rfl
  | createDomain _ =>
      obtain ⟨d, rfl⟩ := Domains.createDomain_append h
      exact keepsNames_append domains d
  | bindWebsite _ _ removed =>
      cases removed with
      | none => exact htouched (fun hd => (Domains.bindWebsite_turn hd).1) h
      | some removed =>
          rw [Domains.bindRemoved_written h]
          exact KeepsNames.refl domains
  | rollbackWebsiteBinding _ _ =>
      exact htouched (fun hd => (Domains.rollbackWebsiteBinding_turn hd).1) h
  | detachWebsiteForRemoval _ _ _ =>
      exact htouched (fun hd => (Domains.detachWebsiteForRemoval_turn hd).1) h
  | detachCertificateForRemoval _ _ _ =>
      exact htouched
        (fun hd => (Domains.detachCertificateForRemoval_turn hd).1) h
  | attachCertificate _ _ _ =>
      exact htouched (fun hd => (Domains.attachCertificate_turn hd).1) h
  | activateProvisionedDomains _ =>
      exact keepsNames_touched (Domains.touched_of_activate h)
  | resetProvisionedDomains _ =>
      exact keepsNames_touched (Domains.touched_of_reset h)
  | markStaged _ _ _ => exact htouched Domains.markStaged_touch h
  | markApplied _ _ => exact htouched Domains.markApplied_touch h
  | markSuspended _ _ =>
      exact htouched (fun hd => (Domains.markSuspended_turn hd).1) h
  | markResumed _ _ =>
      exact htouched (fun hd => (Domains.markResumed_turn hd).1) h
  | markFailed _ _ => exact htouched Domains.markFailed_touch h

theorem Loads.kept (h : Loads domains r) (hkeeps : KeepsNames domains next) :
    Loads next r :=
  ⟨h.safe, fun id hid => hkeeps _ _ (h.refers id hid)⟩

-- ====== updates

/-- The primary name an update sends, and the current one where it sends
none. -/
def sentName (net : Net) (changes : Json) (current : String) : String :=
  Domains.normalizeDomainName net (Domains.textOf
    (Domains.orElse (Domains.field "primaryDomain" changes)
      (.str current)))

theorem normalizedUpdate_name {d : Domain} {routing : Domains.Routing}
    (h : Domains.normalizedUpdate net d changes = .ok routing) :
    routing.primaryDomain = sentName net changes d.primaryDomain := by
  unfold Domains.normalizedUpdate at h
  dsimp only at h
  split at h
  · cases h
  obtain ⟨names, hnames, h⟩ := bind_eq_ok.mp h
  have hprimary : names.primary = sentName net changes d.primaryDomain := by
    unfold Domains.requestedNames at hnames
    obtain ⟨name, -, hnames⟩ := bind_eq_ok.mp hnames
    split at hnames
    · unfold Domains.normalizeDomains at hnames
      obtain ⟨primary, hassert, hnames⟩ := bind_eq_ok.mp hnames
      obtain ⟨aliases, -, hnames⟩ := bind_eq_ok.mp hnames
      obtain ⟨-, hnames⟩ := guard_eq_ok.mp hnames
      obtain rfl := Except.ok.inj hnames
      exact (((Domains.assertDomainName_eq_ok net).mp hassert).1).symm
    · cases hnames
  split at h
  · cases h
  · split at h
    · split at h
      · cases h
      · split at h
        · obtain ⟨settings, -, h⟩ := bind_eq_ok.mp h
          obtain rfl := Except.ok.inj h
          exact hprimary
        · obtain ⟨settings, -, h⟩ := bind_eq_ok.mp h
          obtain rfl := Except.ok.inj h
          exact hprimary
    · cases h

/-- The resource names another domain than the one given. -/
def namesOther (domainId : String) (r : Resource) : Bool :=
  r.webDomainId.all fun id => id.text != domainId

/-- A resource goes on loading through an update exactly where it names
another domain, or the update sends the name again. -/
theorem loads_updated_iff {digest : String} {now : Instant}
    {reply : List Domain → Except Domains.Failure Domains.Reply}
    (hvalid : Domains.Valid domains)
    (h : Domains.updateDomain platform domainId changes digest now domains
      = .written next reply) (hr : Loads domains r) :
    Loads next r ↔ (namesOther domainId r
      || sentName platform.toNet changes r.name == r.name) = true := by
  obtain ⟨i, d, routing, hi, hid, hrouting, rfl⟩ := Domains.updateDomain_set h
  have hname := normalizedUpdate_name hrouting
  have hsame : ((d.rerouted routing).redrafted (d.desiredRevision + 1)
      now).id = d.id := rfl
  have hget := primaryName_set hvalid hi hsame
  cases href : r.webDomainId with
  | none =>
      have hnone : Refers (domains.set i
          ((d.rerouted routing).redrafted (d.desiredRevision + 1) now)) r := by
        intro id hsome
        rw [href] at hsome
        cases hsome
      simp [namesOther, href, show Loads _ r from ⟨hr.safe, hnone⟩]
  | some id =>
      have hbefore := hr.refers id href
      have hloads : ∀ ds, Loads ds r ↔ primaryName ds id.text = some r.name :=
        fun ds => ⟨fun hl => hl.refers id href, fun hp => ⟨hr.safe,
          fun id' hid' => by
            obtain rfl : id = id' := Option.some.inj (href.symm.trans hid')
            exact hp⟩⟩
      rw [hloads, hget]
      by_cases hsame : d.id = id.text
      · -- the domain that is updated is the one the resource names
        have hfound := find?_key hvalid.unique (List.mem_of_getElem? hi) hsame
        have hprimary : d.primaryDomain = r.name := by
          unfold primaryName at hbefore
          rw [hfound] at hbefore
          exact Option.some.inj hbefore
        rw [if_pos hsame]
        show some routing.primaryDomain = some r.name ↔ _
        rw [hname, hprimary, Option.some.injEq]
        simp [namesOther, href, ← hsame, hid]
      · rw [if_neg hsame]
        have hother : (id.text != domainId) = true := by
          rw [bne_iff_ne, ← hid]
          exact fun he => hsame he.symm
        simp [namesOther, href, hother, hbefore]

/-- And through a removal exactly where it names another domain. -/
theorem loads_removed_iff (hr : Loads domains r) :
    Loads (domains.filter fun d => d.id != domainId) r
      ↔ namesOther domainId r = true := by
  cases href : r.webDomainId with
  | none =>
      simp only [namesOther, href, Option.all_none, iff_true]
      refine ⟨hr.safe, fun id hsome => ?_⟩
      rw [href] at hsome
      cases hsome
  | some id =>
      simp only [namesOther, href, Option.all_some, bne_iff_ne, ne_eq]
      constructor
      · intro hloads hsame
        have hname := hloads.refers id href
        rw [primaryName_removed, if_pos hsame.symm] at hname
        cases hname
      · intro hne
        refine ⟨hr.safe, fun id' hid' => ?_⟩
        obtain rfl : id = id' := Option.some.inj (href.symm.trans hid')
        rw [primaryName_removed, if_neg (Ne.symm hne)]
        exact hr.refers id href

end Yunpanel.Lifecycle
