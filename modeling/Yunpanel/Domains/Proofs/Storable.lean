/-
The loader takes what the registry writes.

`Storable` is what every record of the registry satisfies: its settings and
its target are fixed points of their checks and agree with each other, its
names are normalized, and its error and suspension metadata have the form
the loader asks for. Every change keeps it, and `checkDomain_of_storable`
is the loader's side: such a record passes `hydrateDomain` unchanged.
-/
import Yunpanel.Domains.Proofs.Runs
import Yunpanel.Domains.Proofs.Settings

namespace Yunpanel.Domains

open Lib

variable {net : Net}

-- ====== records

/-- A record the loader takes as it is. -/
structure Storable (net : Net) (d : Domain) : Prop where
  settings : SettingsOf d.targetType d.nginxSettings
  target : TargetOf net d.targetType d.target
  agree : Agree d.targetType d.target d.nginxSettings
  policy : ¬(d.httpsMode = .off ∧ d.httpsRedirect = true)
  primary : IsHostname net d.primaryDomain
  applied : ∀ name, d.appliedPrimaryDomain = some name →
    IsHostname net name
  error : ∀ code, d.lastError = some code → isErrorCode code = true
  operation : ∀ id, d.suspensionOperationId = some id →
    isOperationId id = true
  checksum : ∀ sum, d.suspendedChecksum = some sum → isSha256 sum = true
  lastOperation : ∀ id, d.lastSuspensionOperationId = some id →
    isOperationId id = true
  resumed : d.lastSuspensionOperationId.isNone = d.lastResumedAt.isNone
  suspension : suspensionFits d = true
  website : ∀ id, d.websiteId = some id → assertUuid id = some id

theorem any_not_eq_false {p : String → Bool} {v : Option String}
    (h : ∀ s, v = some s → p s = true) :
    (v.any fun s => !p s) = false := by
  cases v with
  | none => rfl
  | some s => simp [h s rfl]

variable {d : Domain} {domains : List Domain}

theorem checkDomain_of_storable (h : Storable net d) :
    checkDomain net d = .ok () := by
  have hsettings : normalizeNginxSettings d.targetType
      d.nginxSettings.toJson none = .ok d.nginxSettings :=
    h.settings.isSettings
  have htarget : validateTarget net d.targetType d.target.toJson
      = .ok d.target := h.target.isTarget
  have hagree : ¬(d.nginxSettings ≠ d.nginxSettings
      ∨ (d.targetType.forwards = true
        ∧ d.target.websocket ≠ d.nginxSettings.websocket)
      ∨ (d.targetType = .static
        ∧ d.target.spaFallback ≠ d.nginxSettings.spaFallback)) := by
    rintro (hne | ⟨hkind, hne⟩ | ⟨hkind, hne⟩)
    · exact hne rfl
    · exact hne (h.agree.websocket hkind)
    · exact hne (h.agree.spaFallback hkind)
  have herror : (d.lastError.any fun code => !isErrorCode code) = false :=
    any_not_eq_false h.error
  have hmeta : (d.suspensionOperationId.any (fun id => !isOperationId id)
      || d.suspendedChecksum.any (fun sum => !isSha256 sum)
      || d.lastSuspensionOperationId.any (fun id => !isOperationId id)
      || d.lastSuspensionOperationId.isNone != d.lastResumedAt.isNone
      || !suspensionFits d) = false := by
    rw [any_not_eq_false h.operation, any_not_eq_false h.checksum,
      any_not_eq_false h.lastOperation, h.resumed, h.suspension]
    simp
  unfold checkDomain
  rw [hsettings]
  dsimp only [Result.ok_bind]
  rw [if_neg hagree, htarget]
  dsimp only [Result.ok_bind]
  rw [if_neg h.policy]
  cases happlied : d.appliedPrimaryDomain with
  | none =>
      dsimp only [Result.ok_bind, Result.pure_eq]
      rw [herror, hmeta]
      rfl
  | some name =>
      have hnames := normalizeDomains_of_isHostname net
        (h.applied name happlied)
      dsimp only
      rw [hnames]
      dsimp only [Result.ok_bind]
      rw [if_neg (not_not_intro rfl), herror, hmeta]
      rfl

theorem normalizeWebsiteId_of_storable (h : Storable net d) :
    ∃ id, normalizeWebsiteId d.websiteId = .ok id := by
  cases hid : d.websiteId with
  | none => exact ⟨none, rfl⟩
  | some id =>
      refine ⟨some id, ?_⟩
      simp [normalizeWebsiteId, h.website id hid]

-- ====== touches

theorem servesExactly_error {revision : Int} {checksum : String}
    (h : d.servesExactly revision checksum = true) :
    d.lastError = none := by
  simp only [Domain.servesExactly, Bool.and_eq_true,
    Option.isNone_iff_eq_none] at h
  exact h.2

/-- A record that is not suspended has no suspension on record. -/
theorem Storable.unsuspended (h : Storable net d)
    (hstate : d.state ≠ .suspended) :
    d.suspensionOperationId = none ∧ d.suspendedAt = none
      ∧ d.suspendedChecksum = none := by
  have hfits := h.suspension
  rw [suspensionFits, if_neg hstate] at hfits
  simpa [and_assoc] using hfits

/-- And one that has none and is not suspended fits. -/
theorem suspensionFits_of_none (hstate : d.state ≠ .suspended)
    (hoperation : d.suspensionOperationId = none)
    (hsince : d.suspendedAt = none) (hchecksum : d.suspendedChecksum = none) :
    suspensionFits d = true := by
  rw [suspensionFits, if_neg hstate, hoperation, hsince, hchecksum]
  rfl

variable {d' : Domain} {next : Routing} {req : NewDomain} {env : Env}
  {platform : Platform}

/-- A change of routing state alone: what a record was checked for at its
creation stays. -/
theorem Storable.restated (h : Storable net d)
    (hstate : d.state ≠ .suspended) (hstate' : d'.state ≠ .suspended)
    (hsame : d'.targetType = d.targetType ∧ d'.target = d.target
      ∧ d'.nginxSettings = d.nginxSettings ∧ d'.httpsMode = d.httpsMode
      ∧ d'.httpsRedirect = d.httpsRedirect
      ∧ d'.primaryDomain = d.primaryDomain ∧ d'.websiteId = d.websiteId)
    (hmeta : d'.suspensionOperationId = d.suspensionOperationId
      ∧ d'.suspendedAt = d.suspendedAt
      ∧ d'.suspendedChecksum = d.suspendedChecksum
      ∧ d'.lastSuspensionOperationId = d.lastSuspensionOperationId
      ∧ d'.lastResumedAt = d.lastResumedAt)
    (happlied : ∀ name, d'.appliedPrimaryDomain = some name →
      IsHostname net name)
    (herror : ∀ code, d'.lastError = some code → isErrorCode code = true) :
    Storable net d' := by
  obtain ⟨htype, htarget, hsettings, hmode, hredirect, hprimary, hwebsite⟩ :=
    hsame
  obtain ⟨hoperation, hsince, hchecksum, hlast, hresumed⟩ := hmeta
  obtain ⟨hnone, hnone', hnone''⟩ := h.unsuspended hstate
  refine
    { settings := ?_, target := ?_, agree := ?_, policy := ?_
      primary := ?_, applied := happlied, error := herror
      operation := ?_, checksum := ?_, lastOperation := ?_
      resumed := ?_, suspension := ?_, website := ?_ }
  · rw [htype, hsettings]
    exact h.settings
  · rw [htype, htarget]
    exact h.target
  · rw [htype, htarget, hsettings]
    exact h.agree
  · rw [hmode, hredirect]
    exact h.policy
  · rw [hprimary]
    exact h.primary
  · rw [hoperation]
    exact h.operation
  · rw [hchecksum]
    exact h.checksum
  · rw [hlast]
    exact h.lastOperation
  · rw [hlast, hresumed]
    exact h.resumed
  · exact suspensionFits_of_none hstate' (hoperation.trans hnone)
      (hsince.trans hnone') (hchecksum.trans hnone'')
  · rw [hwebsite]
    exact h.website

theorem touch_storable (h : Touch d d') (hd : Storable net d) :
    Storable net d' := by
  have hprimary : ∀ name, some d.primaryDomain = some name →
      IsHostname net name := by
    intro name hname
    rw [← Option.some.inj hname]
    exact hd.primary
  have hnoerror : ∀ code, (none : Option String) = some code →
      isErrorCode code = true := fun _ hcode => by cases hcode
  cases h with
  | staged hstate _ =>
      exact hd.restated hstate (by simp [Domain.staged])
        ⟨rfl, rfl, rfl, rfl, rfl, rfl, rfl⟩ ⟨rfl, rfl, rfl, rfl, rfl⟩
        hd.applied hnoerror
  | applied hstate _ =>
      exact hd.restated hstate (by simp [Domain.applied])
        ⟨rfl, rfl, rfl, rfl, rfl, rfl, rfl⟩ ⟨rfl, rfl, rfl, rfl, rfl⟩
        hprimary hnoerror
  | failed hstate hcode =>
      refine hd.restated hstate (by simp [Domain.failed])
        ⟨rfl, rfl, rfl, rfl, rfl, rfl, rfl⟩ ⟨rfl, rfl, rfl, rfl, rfl⟩
        hd.applied ?_
      intro code hfailed
      rw [← Option.some.inj hfailed]
      exact hcode
  | suspended hstate hsum hid hserves =>
      refine { hd with operation := ?_, checksum := ?_, suspension := ?_ }
      · intro id hsome
        rw [← Option.some.inj hsome]
        exact hid
      · intro sum hsome
        rw [← Option.some.inj hsome]
        exact hsum
      · have hnone := servesExactly_error hserves
        simp [suspensionFits, Domain.suspended, hnone]
  | resumed hid hsuspended =>
      refine { hd with operation := ?_, checksum := ?_, lastOperation := ?_
                       resumed := rfl, suspension := ?_ }
      · intro id hsome
        cases hsome
      · intro sum hsome
        cases hsome
      · intro id hsome
        rw [← Option.some.inj hsome]
        exact hid
      · exact suspensionFits_of_none (by simp [Domain.resumed]) rfl rfl rfl
  | bound _ hid =>
      refine { hd with website := ?_ }
      intro id hsome
      rw [← Option.some.inj hsome]
      exact hid
  | unbound =>
      refine { hd with website := ?_ }
      intro id hsome
      cases hsome
  | decertified => exact { hd with }
  | recertified hstate _ =>
      exact hd.restated hstate (by simp [Domain.redrafted])
        ⟨rfl, rfl, rfl, rfl, rfl, rfl, rfl⟩ ⟨rfl, rfl, rfl, rfl, rfl⟩
        hd.applied hnoerror
  | activated _ hpristine =>
      exact hd.restated (by simp [pristine_state hpristine])
        (by simp [Domain.activated, Domain.applied])
        ⟨rfl, rfl, rfl, rfl, rfl, rfl, rfl⟩ ⟨rfl, rfl, rfl, rfl, rfl⟩
        hprimary hnoerror
  | reset _ hactive =>
      exact hd.restated (by simp [activeOn_state hactive])
        (by simp [Domain.reset, Domain.redrafted])
        ⟨rfl, rfl, rfl, rfl, rfl, rfl, rfl⟩ ⟨rfl, rfl, rfl, rfl, rfl⟩
        (fun name hname => by cases hname) hnoerror

-- ====== updates

/-- What an update has checked of the routing it asks for. -/
structure Routable (net : Net) (targetType : TargetType) (next : Routing) :
    Prop where
  primary : IsHostname net next.primaryDomain
  policy : ¬(next.httpsMode = .off ∧ next.httpsRedirect = true)
  settings : SettingsOf targetType next.nginxSettings

theorem isHostname_of_requestedNames {primaryDomain aliases : Json}
    {names : DomainSet}
    (h : requestedNames net primaryDomain aliases = .ok names) :
    IsHostname net names.primary := by
  unfold requestedNames at h
  obtain ⟨name, -, h⟩ := Result.bind_eq_ok.mp h
  split at h
  · exact (isHostname_of_normalizeDomains net h).1
  · cases h

theorem routable_of_normalizedUpdate {changes : Json}
    (h : normalizedUpdate net d changes = .ok next) :
    Routable net d.targetType next := by
  unfold normalizedUpdate at h
  dsimp only at h
  split at h
  · cases h
  obtain ⟨names, hnames, h⟩ := Result.bind_eq_ok.mp h
  have hprimary := isHostname_of_requestedNames hnames
  split at h
  · cases h
  · split at h
    · split at h
      · cases h
      · rename_i hpolicy
        split at h
        · obtain ⟨settings, hsettings, h⟩ := Result.bind_eq_ok.mp h
          obtain rfl := Except.ok.inj h
          exact ⟨hprimary, hpolicy, settingsOf_normalize hsettings⟩
        · obtain ⟨settings, hsettings, h⟩ := Result.bind_eq_ok.mp h
          obtain rfl := Except.ok.inj h
          exact ⟨hprimary, hpolicy, settingsOf_normalize hsettings⟩
    · cases h

theorem storable_rerouted {now : Instant} (hd : Storable net d)
    (hstate : d.state ≠ .suspended) (hnext : Routable net d.targetType next) :
    Storable net
      ((d.rerouted next).redrafted (d.desiredRevision + 1) now) := by
  obtain ⟨hnone, hnone', hnone''⟩ := hd.unsuspended hstate
  obtain ⟨htarget, hagree⟩ :=
    agree_targetWithSettings hd.target hnext.settings
  refine { hd with
    settings := hnext.settings
    target := htarget
    agree := hagree
    policy := hnext.policy
    primary := hnext.primary
    error := fun code hcode => by cases hcode
    suspension := ?_ }
  exact suspensionFits_of_none (by simp [Domain.redrafted]) hnone hnone'
    hnone''

-- ====== creation

theorem requestedPolicy_eq_ok {policy : HttpsMode × Bool}
    (h : requestedPolicy req = .ok policy) :
    ¬(policy.1 = .off ∧ policy.2 = true) := by
  unfold requestedPolicy at h
  split at h
  · cases h
  · dsimp only at h
    split at h
    · cases h
    · rename_i hpolicy
      obtain rfl := Except.ok.inj h
      exact hpolicy

theorem newTarget_eq_ok {websiteId : Option String}
    {routing : TargetType × Target × NginxSettings}
    (h : newTarget net req websiteId = .ok routing) :
    SettingsOf routing.1 routing.2.2
      ∧ TargetOf net routing.1 routing.2.1
      ∧ Agree routing.1 routing.2.1 routing.2.2 := by
  unfold newTarget at h
  split at h
  · cases h
  · obtain ⟨target, htarget, h⟩ := Result.bind_eq_ok.mp h
    obtain ⟨⟨⟩, -, h⟩ := Result.bind_eq_ok.mp h
    obtain ⟨seed, -, h⟩ := Result.bind_eq_ok.mp h
    obtain ⟨settings, hsettings, h⟩ := Result.bind_eq_ok.mp h
    obtain rfl := Except.ok.inj h
    have hs := settingsOf_normalize hsettings
    exact ⟨hs, agree_targetWithSettings (targetOf_validate htarget) hs⟩

theorem storable_of_created (h : Created net env domains req d) :
    Storable net d := by
  obtain ⟨hsettings, htarget, hagree⟩ := newTarget_eq_ok h.target
  have hpolicy := requestedPolicy_eq_ok h.policy
  have hprimary := (isHostname_of_normalizeDomains net h.normal).1
  have hwebsite : ∀ id, d.websiteId = some id → assertUuid id = some id := by
    intro id hid
    have hrequired := h.website
    rw [hid] at hrequired
    exact requireWebsiteBinding_eq_some hrequired
  obtain ⟨id, websiteId, names, policy, routing, rfl⟩ := h.draft
  exact
    { settings := hsettings
      target := htarget
      agree := hagree
      policy := hpolicy
      primary := hprimary
      applied := fun name hname => by cases hname
      error := fun code hcode => by cases hcode
      operation := fun id hid => by cases hid
      checksum := fun sum hsum => by cases hsum
      lastOperation := fun id hid => by cases hid
      resumed := rfl
      suspension := rfl
      website := hwebsite }

-- ====== the store

/-- A store the loader takes as it is. -/
structure Sound (net : Net) (domains : List Domain) : Prop where
  valid : Valid domains
  storable : ∀ d ∈ domains, Storable net d

theorem sound_nil : Sound net [] :=
  ⟨valid_nil, fun _ hd => (List.not_mem_nil hd).elim⟩

theorem Sound.loadable (h : Sound net domains) :
    Loadable net domains :=
  { placed := h.valid.placed
    checked := fun d hd => checkDomain_of_storable (h.storable d hd)
    websites := fun d hd => normalizeWebsiteId_of_storable (h.storable d hd) }

theorem sound_of_change {next : List Domain} (h : Sound net domains)
    (hchange : Change net domains next) : Sound net next := by
  refine ⟨valid_of_change h.valid hchange, ?_⟩
  cases hchange with
  | touched htouched => exact htouched.forall touch_storable h.storable
  | updated hi hstate hrouting _ =>
      apply forall_mem_set h.storable
      exact storable_rerouted (h.storable _ (List.mem_of_getElem? hi)) hstate
        (routable_of_normalizedUpdate hrouting)
  | reparented hi _ _ =>
      apply forall_mem_set h.storable
      have hd := h.storable _ (List.mem_of_getElem? hi)
      exact { hd with }
  | created hd _ =>
      exact forall_mem_concat h.storable
        (storable_of_created (newDomain_eq_ok hd))
  | removed _ _ =>
      exact fun c hc => h.storable c (List.mem_of_mem_filter hc)

-- ====== writes landing

/-- In a well-placed store no call throws after it has changed memory. -/
theorem clean_of_valid {c : Call} (h : Valid domains) :
    (c.effect platform env domains).Clean := by
  cases he : c.effect platform env domains with
  | refused | replied | written => trivial
  | spoiled next e =>
      obtain ⟨hchange, herror⟩ := removal_of_spoiled he
      have hplaced := (valid_of_change h hchange).placed
      rw [validateDomainHierarchy_eq_ok.mpr hplaced] at herror
      cases herror

/-- Everything a registry holds is sound; nothing has failed, and what is
on its way is what memory holds. -/
structure InOrder (net : Net) (r : Registry) : Prop where
  holds : r.Holds (Sound net)
  unbroken : r.broken = false
  inStep : r.InStep

/-- The event is not a failing write. -/
def Event.succeeds : Event → Prop
  | .settle ok => ok = true
  | _ => True

theorem inOrder_next {r : Registry} (h : InOrder platform.toNet r)
    {e : Event} (he : e.succeeds) :
    InOrder platform.toNet ((machine platform).next r e) := by
  have hholds := holds_next
    (fun hs hc => sound_of_change hs hc) h.holds e
  cases e with
  | call env c =>
      refine ⟨hholds, (Store.call_broken r _).trans h.unbroken, ?_⟩
      exact Store.inStep_call h.inStep (clean_of_valid h.holds.mem.valid)
  | settle ok =>
      obtain rfl : ok = true := he
      refine ⟨hholds, ?_, Store.inStep_settle Failure.store h.inStep
        h.unbroken⟩
      show (r.settle .store true).1.broken = false
      unfold Store.settle
      split
      · exact h.unbroken
      · simp [h.unbroken]
  | restart env =>
      have hcase : (machine platform).next r (.restart env) = r
          ∨ (machine platform).next r (.restart env)
            = Store.opened r.file := by
        show (Registry.step platform r (.restart env)).1 = r
          ∨ (Registry.step platform r (.restart env)).1 = Store.opened r.file
        unfold Registry.step
        dsimp only
        split
        · rename_i domains hload
          obtain ⟨rfl, -, -⟩ := init_eq_ok.mp hload
          exact .inr rfl
        · exact .inl rfl
      rcases hcase with hsame | hopened
      · rw [hsame]
        exact h
      · rw [hopened] at hholds ⊢
        exact ⟨hholds, rfl, Store.inStep_opened r.file⟩

/-- From an empty store, along every run whose writes succeed, restarts
included: the loader takes the file as it is, whenever the websites its
domains are bound to are where they were bound; and once no write is on its
way, what it takes is what memory holds. -/
theorem file_is_loadable (platform : Platform) {events : List Event}
    (hevents : ∀ e ∈ events, e.succeeds) :
    let r := (machine platform).run (Store.opened []) events
    Loadable platform.toNet r.file
      ∧ (∀ env, init platform.toNet env 4 r.file = .ok r.file ↔
          (env.getWebsite.isSome = true → ∀ d ∈ r.file, ∃ id,
            requireWebsiteBinding env d.websiteId d.serverId = .ok id))
      ∧ (∀ env domains, init platform.toNet env 4 r.file = .ok domains →
          domains = r.file)
      ∧ (r.queue = [] → r.file = r.mem) := by
  have hstart : InOrder platform.toNet (Store.opened []) :=
    ⟨Store.holds_opened sound_nil, rfl, Store.inStep_opened []⟩
  have hrun : InOrder platform.toNet
      ((machine platform).run (Store.opened []) events) := by
    have hallowed : (machine platform).Allowed (fun _ e => e.succeeds)
        (Store.opened []) events :=
      Machine.allowed_of_mem _ (fun e he _ => hevents e he) _
    exact Machine.invariant_of_allowed (P := InOrder platform.toNet)
      (fun r e he hr => inOrder_next hr he) hallowed hstart
  intro r
  have hloadable := hrun.holds.file.loadable
  refine ⟨hloadable, fun env => ?_, fun env domains hload => ?_, fun hq => ?_⟩
  · rw [init_eq_ok]
    exact ⟨fun h => h.2.2, fun h => ⟨rfl, hloadable, h⟩⟩
  · exact (init_eq_ok.mp hload).1
  · exact hrun.inStep.file_eq_mem hq

/-- A domain is made and staged, and the registry starts again. -/
def restartedEvents : List Event :=
  [.call (envWith firstDomainId)
      (.createDomain (staticRequest "example.org" none)),
    .settle true,
    .call (envWith firstDomainId)
      (.markStaged firstDomainId.text sampleChecksum "example.org.conf"),
    .settle true,
    .restart (envWith firstDomainId)]

theorem file_is_loadable_restarted :
    let r := (machine asciiPlatform).run (Store.opened []) restartedEvents
    (r.mem.map fun d => (d.primaryDomain, d.stagedRevision))
        = [("example.org", 1)]
      ∧ Loadable asciiPlatform.toNet r.file
      ∧ (∀ env, init asciiPlatform.toNet env 4 r.file = .ok r.file ↔
          (env.getWebsite.isSome = true → ∀ d ∈ r.file, ∃ id,
            requireWebsiteBinding env d.websiteId d.serverId = .ok id))
      ∧ (∀ env domains, init asciiPlatform.toNet env 4 r.file = .ok domains →
          domains = r.file)
      ∧ (r.queue = [] → r.file = r.mem) := by
  have hevents : ∀ e ∈ restartedEvents, e.succeeds := by
    intro e he
    simp only [restartedEvents, List.mem_cons, List.not_mem_nil,
      or_false] at he
    rcases he with rfl | rfl | rfl | rfl | rfl
    · trivial
    · rfl
    · trivial
    · rfl
    · trivial
  exact ⟨by decide +kernel, file_is_loadable asciiPlatform hevents⟩

end Yunpanel.Domains
