/-
An activation of provisioned domains and the reset that undoes it.

Both calls look at every domain they are asked about before they change the
first, and then change the same positions: the activation writes what the
reset takes away again, so of a domain that was as created only `updatedAt`
is left of the two. What can go wrong is the write. Memory is changed before
the file is written, and a call whose write fails throws with the change in
memory (`activation_stays`).
-/
import Yunpanel.Domains.Proofs.Rejection

namespace Yunpanel.Domains

open Lib

-- ====== one record

variable {d : Domain} {req : Provisioning} {domains : List Domain}
  {targets : List ProvisionTarget} {websiteId : String}
  {expected : List ProvisionedDomain}

/-- What the two calls leave of a domain that was as created. -/
theorem reset_activated (h : d.pristine = true)
    (checksum configName : String) (now later : Instant) :
    (d.activated checksum configName now).reset later
      = { d with updatedAt := later } := by
  simp only [Domain.pristine, Bool.and_eq_true, beq_iff_eq,
    Option.isNone_iff_eq_none] at h
  obtain ⟨⟨⟨⟨⟨⟨⟨⟨⟨-, hstaged⟩, happlied⟩, hsum⟩, hconfig⟩, hstagedAt⟩,
    happliedAt⟩, hprimary⟩, hstate⟩, herror⟩ := h
  cases d
  dsimp only at hstaged happlied hsum hconfig hstagedAt happliedAt
  dsimp only at hprimary hstate herror
  subst hstaged happlied hsum hconfig hstagedAt happliedAt
  subst hprimary hstate herror
  rfl

/-- The same of a domain that may be one of those the calls name. -/
theorem reset_undoes {names : List String}
    (h : d.id ∈ names → d.pristine = true) (req : Provisioning)
    (now later : Instant) :
    let d' := if d.id ∈ names then
        (activationRule req).changed now d
      else d
    (if d'.id ∈ names then (resetRule req).changed later d' else d')
      = if d.id ∈ names then { d with updatedAt := later } else d := by
  intro d'
  by_cases hname : d.id ∈ names
  · have hd' : d' = d.activated req.checksum req.configName now :=
      if_pos hname
    have hid : d'.id ∈ names := by
      rw [hd']
      exact hname
    rw [if_pos hid, if_pos hname, hd']
    exact reset_activated (h hname) _ _ now later
  · have hd' : d' = d := if_neg hname
    have hid : d'.id ∉ names := by
      rw [hd']
      exact hname
    rw [if_neg hid, if_neg hname, hd']

/-- A domain as created is not active yet. -/
theorem activeOn_of_pristine (h : d.pristine = true) (revision : Int)
    (checksum configName : String) :
    d.activeOn revision checksum configName = false := by
  by_contra hactive
  rw [Bool.not_eq_false] at hactive
  have hstate := activeOn_state hactive
  rw [pristine_state h] at hstate
  cases hstate

theorem pristine_activated (d : Domain) (checksum configName : String)
    (now : Instant) :
    (d.activated checksum configName now).pristine = false := by
  by_contra hpristine
  rw [Bool.not_eq_false] at hpristine
  have hstate : DomainState.active = .draft := pristine_state hpristine
  cases hstate

/-- The reset finds what the activation left. -/
theorem ready_activated {entry : ProvisionedDomain} (h : d.pristine = true)
    (hrevision : d.desiredRevision = entry.expectedRevision) (now : Instant) :
    (resetRule req).ready entry
      (d.activated req.checksum req.configName now) = true := by
  have hcertificate : d.certificateId = none := by
    simp only [Domain.pristine, Bool.and_eq_true,
      Option.isNone_iff_eq_none] at h
    exact h.1.1.1.1.1.1.1.1.1
  show (d.certificateId.isNone
    && (d.activated req.checksum req.configName now).activeOn
      entry.expectedRevision req.checksum req.configName) = true
  rw [hcertificate]
  simp [Domain.activeOn, Domain.activated, Domain.applied, Domain.staged,
    hrevision]

-- ====== the records

/-- A change at every position a list of targets names. -/
theorem getElem?_provision {rule : ProvisionRule} {now : Instant}
    (hopen : ∀ t ∈ targets, t.settled = false
      ∧ domains[t.index]? = some t.domain) {cur : List Domain}
    (hlen : cur.length = domains.length) (j : Nat) :
    (provision rule now targets cur)[j]?
      = if j ∈ targets.map ProvisionTarget.index then
          domains[j]?.map (rule.changed now)
        else cur[j]? := by
  induction targets generalizing cur with
  | nil => rfl
  | cons t rest ih =>
      obtain ⟨⟨hsettled, hat⟩, hrest⟩ := List.forall_mem_cons.mp hopen
      rw [provision, hsettled, if_neg Bool.false_ne_true,
        ih hrest (by rw [List.length_set]; exact hlen)]
      by_cases hj : j ∈ rest.map ProvisionTarget.index
      · rw [if_pos hj, if_pos (by simp [hj])]
      · rw [if_neg hj]
        by_cases hself : t.index = j
        · subst hself
          obtain ⟨hlt, -⟩ := List.getElem?_eq_some_iff.mp hat
          rw [List.getElem?_set_self (by omega), if_pos (by simp), hat]
          rfl
        · rw [List.getElem?_set_ne hself, if_neg]
          simp only [List.map_cons, List.mem_cons, not_or]
          exact ⟨fun h => hself h.symm, hj⟩

/-- Where a list of ids is found, once for each record. -/
structure Found (domains : List Domain) (expected : List ProvisionedDomain)
    (targets : List ProvisionTarget) : Prop where
  at_index : ∀ t ∈ targets, domains[t.index]? = some t.domain
  ids : targets.map (fun t => t.domain.id)
    = expected.map ProvisionedDomain.domainId

theorem found_of_provisionTargets {rule : ProvisionRule}
    (h : provisionTargets rule websiteId domains expected = .ok targets) :
    Found domains expected targets := by
  refine ⟨fun t ht => (ready_of_provisionTargets h t ht).at_index, ?_⟩
  induction expected generalizing targets with
  | nil =>
      obtain rfl := Except.ok.inj h
      rfl
  | cons entry rest ih =>
      obtain ⟨⟨i, d⟩, hfound, h⟩ := Result.bind_eq_ok.mp h
      dsimp only at h
      split at h
      · cases h
      split at h
      · cases h
      obtain ⟨others, hothers, h⟩ := Result.bind_eq_ok.mp h
      obtain rfl := Except.ok.inj h
      rw [List.map_cons, List.map_cons, ih hothers]
      exact congrArg (· :: _) (getElem?_of_requireDomain hfound).2

/-- Of records with ids of their own, a provisioning that settles none of
them changes those it names. -/
theorem provision_eq_map (rule : ProvisionRule) (now : Instant)
    (hunique : (domains.map Domain.id).Nodup)
    (hfound : Found domains expected targets)
    (hopen : ∀ t ∈ targets, t.settled = false) :
    provision rule now targets domains
      = domains.map fun d =>
          if d.id ∈ expected.map ProvisionedDomain.domainId then
            rule.changed now d
          else d := by
  apply List.ext_getElem?
  intro j
  rw [getElem?_provision
    (fun t ht => ⟨hopen t ht, hfound.at_index t ht⟩) rfl, List.getElem?_map]
  cases hj : domains[j]? with
  | none =>
      split <;> rfl
  | some d =>
      have hiff : j ∈ targets.map ProvisionTarget.index
          ↔ d.id ∈ expected.map ProvisionedDomain.domainId := by
        rw [← hfound.ids, List.mem_map, List.mem_map]
        constructor
        · rintro ⟨t, ht, rfl⟩
          have hat := hfound.at_index t ht
          rw [hj] at hat
          obtain rfl := Option.some.inj hat
          exact ⟨t, ht, rfl⟩
        · rintro ⟨t, ht, hid⟩
          refine ⟨t, ht, ?_⟩
          have hat : (domains.map Domain.id)[t.index]? = some d.id := by
            rw [List.getElem?_map, hfound.at_index t ht, ← hid]
            rfl
          have hat' : (domains.map Domain.id)[j]? = some d.id := by
            rw [List.getElem?_map, hj]
            rfl
          obtain ⟨hlt, hget⟩ := List.getElem?_eq_some_iff.mp hat
          exact (List.getElem?_inj hlt hunique).mp (hat.trans hat'.symm)
      by_cases hmem : j ∈ targets.map ProvisionTarget.index
      · rw [if_pos hmem, Option.map_some, Option.map_some,
          if_pos (hiff.mp hmem)]
      · rw [if_neg hmem, Option.map_some,
          if_neg fun h => hmem (hiff.mpr h)]

-- ====== one call

/-- A provisioning that comes to its targets. -/
theorem provisionDomains_of_targets {platform : Platform}
    {rule : ProvisionRule} (now : Instant)
    (hcheck : checkProvisioning platform req = .ok (websiteId, expected))
    (htargets : provisionTargets rule websiteId domains expected
      = .ok targets) (hne : targets ≠ [])
    (hopen : ∀ t ∈ targets, t.settled = false) :
    ∃ reply : List Domain → Reply,
      provisionDomains platform rule req now domains
        = .written (provision rule now targets domains)
            fun domains => .ok (reply domains) := by
  refine ⟨fun domains => .domains (targets.map fun target =>
    publicDomain (current target.domain domains)), ?_⟩
  unfold provisionDomains
  rw [hcheck]
  dsimp only
  rw [htargets]
  dsimp only
  have hall : targets.all ProvisionTarget.settled = false := by
    rw [← Bool.not_eq_true, List.all_eq_true]
    intro hall
    obtain ⟨t, ht⟩ := List.exists_mem_of_ne_nil targets hne
    have hsettled := hall t ht
    rw [hopen t ht] at hsettled
    cases hsettled
  rw [hall, if_neg Bool.false_ne_true]

/-- The ids a provisioning names, where its argument is one. -/
def Provisioning.names (platform : Platform) (req : Provisioning) :
    List String :=
  match checkProvisioning platform req with
  | .ok (_, expected) => expected.map ProvisionedDomain.domainId
  | .error _ => []

/-- An argument that is checked names a domain. -/
theorem expected_ne_nil {platform : Platform}
    (h : checkProvisioning platform req = .ok (websiteId, expected)) :
    expected ≠ [] := by
  unfold checkProvisioning at h
  obtain ⟨found, -, h⟩ := Result.bind_eq_ok.mp h
  cases found with
  | none => cases h
  | some id =>
      obtain ⟨sorted, hsorted, h⟩ := Result.bind_eq_ok.mp h
      dsimp only at h
      split at h
      · cases h
      split at h
      · cases h
      obtain ⟨-, rfl⟩ := Prod.mk.inj (Except.ok.inj h)
      unfold provisioningDomains at hsorted
      dsimp only at hsorted
      split at hsorted
      · cases hsorted
      rename_i hlength
      obtain ⟨entries, hentries, hsorted⟩ := Result.bind_eq_ok.mp hsorted
      obtain rfl := Except.ok.inj hsorted
      intro hnil
      have hempty : entries = [] := by
        have hlen := congrArg List.length hnil
        rw [List.length_mergeSort] at hlen
        exact List.length_eq_zero_iff.mp hlen
      subst hempty
      cases hdomains : req.domains with
      | nil => simp [hdomains] at hlength
      | cons entry rest =>
          rw [hdomains, provisioningEntries] at hentries
          split at hentries
          · cases hentries
          · split at hentries
            · cases hentries
            · obtain ⟨others, -, h⟩ := Result.bind_eq_ok.mp hentries
              cases h

/-- The targets of an activation whose domains are as created, and those of
the reset after it: the same positions, with nothing settled in either. -/
theorem reset_targets {next : List Domain} {now : Instant}
    {names : List String} (hnext : next = domains.map fun d =>
      if d.id ∈ names then d.activated req.checksum req.configName now else d)
    (hpristine : ∀ d ∈ domains, d.id ∈ names → d.pristine = true)
    (hnames : ∀ entry ∈ expected, entry.domainId ∈ names)
    (h : provisionTargets (activationRule req) websiteId domains expected
      = .ok targets) :
    (∀ t ∈ targets, t.settled = false)
      ∧ ∃ targets', provisionTargets (resetRule req) websiteId next expected
            = .ok targets'
          ∧ targets'.length = targets.length
          ∧ ∀ t ∈ targets', t.settled = false := by
  induction expected generalizing targets with
  | nil =>
      obtain rfl := Except.ok.inj h
      exact ⟨fun t ht => (nomatch ht), [], rfl, rfl,
        fun t ht => (nomatch ht)⟩
  | cons entry rest ih =>
      obtain ⟨⟨i, d⟩, hfound, h⟩ := Result.bind_eq_ok.mp h
      dsimp only at h
      split at h
      · cases h
      rename_i hidentity
      split at h
      · cases h
      obtain ⟨others, hothers, h⟩ := Result.bind_eq_ok.mp h
      obtain rfl := Except.ok.inj h
      obtain ⟨hentry, hrest⟩ := List.forall_mem_cons.mp hnames
      obtain ⟨hsettled, targets', htargets', hlength, hsettled'⟩ :=
        ih hrest hothers
      obtain ⟨hat, hid⟩ := getElem?_of_requireDomain hfound
      have hd : d.pristine = true :=
        hpristine d (List.mem_of_getElem? hat) (hid ▸ hentry)
      rw [not_or, not_not, not_not] at hidentity
      let d' := d.activated req.checksum req.configName now
      have hfound' : requireDomain next entry.domainId = .ok (i, d') := by
        have hlocate : locate (fun c => c.id == entry.domainId) domains
            = some (i, d) := by
          unfold requireDomain at hfound
          split at hfound
          · rename_i found hlocate
            rw [hlocate, Except.ok.inj hfound]
          · cases hfound
        have hsame : ∀ c : Domain,
            (if c.id ∈ names then c.activated req.checksum req.configName now
              else c).id = c.id := by
          intro c
          split <;> rfl
        have hpointwise : ∀ (j : Nat) (c : Domain), domains[j]? = some c →
            ∃ b, next[j]? = some b
              ∧ (b.id == entry.domainId) = (c.id == entry.domainId) := by
          intro j c hc
          refine ⟨_, by rw [hnext, List.getElem?_map, hc]; rfl, ?_⟩
          rw [hsame c]
        obtain ⟨b, hb⟩ := locate_of_pointwise hpointwise hlocate
        have hget := getElem?_of_locate hb
        rw [hnext, List.getElem?_map, hat, Option.map_some,
          if_pos (hid ▸ hentry)] at hget
        unfold requireDomain
        rw [hb, ← Option.some.inj hget]
      have hkeep : ¬(d'.websiteId ≠ some websiteId
          ∨ d'.desiredRevision ≠ entry.expectedRevision) := by
        rw [not_or, not_not, not_not]
        exact hidentity
      have hnot : (resetRule req).settled entry d' = false :=
        pristine_activated d req.checksum req.configName now
      have hready : (resetRule req).ready entry d' = true :=
        ready_activated hd hidentity.2 now
      refine ⟨?_, { index := i, domain := d', settled := false } :: targets',
        ?_, by simp [hlength], ?_⟩
      · rw [List.forall_mem_cons]
        exact ⟨activeOn_of_pristine hd _ _ _, hsettled⟩
      · unfold provisionTargets
        rw [hfound', Result.ok_bind]
        dsimp only
        rw [if_neg hkeep, hnot, hready, htargets']
        rfl
      · rw [List.forall_mem_cons]
        exact ⟨rfl, hsettled'⟩

-- ====== pairs

/-- What an activation that was awaited leaves. -/
theorem activated_of_resolved {platform : Platform} {r : Registry}
    {env : Env} {oks : List Bool} {ok : Bool} (hvalid : Valid r.mem)
    (hlen : oks.length = r.queue.length)
    (hpristine : ∀ d ∈ r.mem, d.id ∈ req.names platform → d.pristine = true)
    (hresolved : ∃ a, (r.await .store oks ok
      ((Call.activateProvisionedDomains req).effect platform env)).2
        = .resolved a) :
    let names := req.names platform
    let next := r.mem.map fun d =>
      if d.id ∈ names then d.activated req.checksum req.configName env.now
      else d
    (r.await .store oks ok
        ((Call.activateProvisionedDomains req).effect platform env)).1.mem
      = next
      ∧ ∀ (env' : Env), ∃ reply : List Domain → Reply,
        (Call.resetProvisionedDomains req).effect platform env' next
          = .written (r.mem.map fun d =>
              if d.id ∈ names then { d with updatedAt := env'.now } else d)
            fun domains => .ok (reply domains) := by
  intro names next
  obtain ⟨hmem, hanswer⟩ := Store.await_of_queue .store ok hlen
    ((Call.activateProvisionedDomains req).effect platform env)
  rw [hanswer] at hresolved
  have heffect : (Call.activateProvisionedDomains req).effect platform env
      r.mem = provisionDomains platform (activationRule req) req env.now
        r.mem := rfl
  rw [heffect] at hresolved hmem
  -- The call comes to its targets, or it would have been rejected.
  cases hcheck : checkProvisioning platform req with
  | error e =>
      rw [show provisionDomains platform (activationRule req) req env.now r.mem
        = .refused e by unfold provisionDomains; rw [hcheck]] at hresolved
      obtain ⟨a, ha⟩ := hresolved
      cases ha
  | ok checked =>
      obtain ⟨websiteId, expected⟩ := checked
      cases htargets : provisionTargets (activationRule req) websiteId r.mem
          expected with
      | error e =>
          rw [show provisionDomains platform (activationRule req) req env.now
            r.mem = .refused e by
              unfold provisionDomains
              rw [hcheck]
              dsimp only
              rw [htargets]] at hresolved
          obtain ⟨a, ha⟩ := hresolved
          cases ha
      | ok targets =>
          have hnames : names = expected.map ProvisionedDomain.domainId := by
            show req.names platform = _
            unfold Provisioning.names
            rw [hcheck]
          have hfound := found_of_provisionTargets htargets
          have hlength : targets.length = expected.length := by
            have hids := congrArg List.length hfound.ids
            rwa [List.length_map, List.length_map] at hids
          have hexpected := List.length_pos_iff.mpr (expected_ne_nil hcheck)
          have hmemnames : ∀ entry ∈ expected, entry.domainId ∈ names := by
            intro entry hentry
            rw [hnames]
            exact List.mem_map_of_mem hentry
          obtain ⟨hopen, targets', htargets', hlength', hopen'⟩ :=
            reset_targets (show next = _ from rfl) hpristine hmemnames htargets
          obtain ⟨reply, hwritten⟩ := provisionDomains_of_targets
            env.now hcheck htargets
            (List.length_pos_iff.mp (by omega)) hopen
          have hprovision := provision_eq_map (activationRule req) env.now
            hvalid.unique hfound hopen
          rw [← hnames] at hprovision
          refine ⟨?_, fun env' => ?_⟩
          · rw [hmem, hwritten]
            exact hprovision
          · obtain ⟨reply', hwritten'⟩ := provisionDomains_of_targets
              env'.now hcheck htargets'
              (List.length_pos_iff.mp (by omega)) hopen'
            refine ⟨reply', ?_⟩
            show provisionDomains platform (resetRule req) req env'.now next = _
            have hids : next.map Domain.id = r.mem.map Domain.id := by
              show (r.mem.map _).map Domain.id = _
              rw [List.map_map]
              apply List.map_congr_left
              intro d _
              show Domain.id (if d.id ∈ names then _ else d) = d.id
              split <;> rfl
            rw [hwritten', provision_eq_map _ _ (by rw [hids]; exact hvalid.unique)
              (found_of_provisionTargets htargets') hopen', ← hnames]
            congr 1
            show (r.mem.map _).map _ = _
            rw [List.map_map]
            apply List.map_congr_left
            intro d hd
            exact reset_undoes (hpristine d hd) req env.now env'.now

/-- A call's write reaches the file, or the call comes to no write. -/
def Lands (platform : Platform) (r : Registry) (env : Env) (c : Call)
    (oks : List Bool) (ok : Bool) : Prop :=
  (r.broken || !oks.all id || !ok) = false
    ∨ c.writes platform env r.mem = false

/-- What is asked of an activation from `r`, which comes to `first`, and the
reset after it, which comes to `second`. -/
structure Compensates (platform : Platform) (req : Provisioning)
    (later : Instant) (r : Registry)
    (first second : Registry × Outcome Failure Reply) : Prop where
  activation : (∃ e, first.2 = .rejected e) → first.1.mem = r.mem
  reset : (∃ e, second.2 = .rejected e) → second.1.mem = first.1.mem
  restored : (∀ d ∈ r.mem, d.id ∈ req.names platform → d.pristine = true) →
    (∃ a, first.2 = .resolved a) →
      (∃ a, second.2 = .resolved a)
        ∧ second.1.mem = r.mem.map fun d =>
            if d.id ∈ req.names platform then { d with updatedAt := later }
            else d

/-- An activation and the reset after it compensate exactly where what they
write reaches the file. -/
theorem compensates_iff (platform : Platform) {domains : List Domain}
    (h : Valid domains) (events : List Event) (env env' : Env)
    (req : Provisioning) (oks oks' : List Bool) (ok ok' : Bool) :
    let r := (machine platform).run (Store.opened domains) events
    let first := r.await .store oks ok
      ((Call.activateProvisionedDomains req).effect platform env)
    let second := first.1.await .store oks' ok'
      ((Call.resetProvisionedDomains req).effect platform env')
    oks.length = r.queue.length → oks'.length = first.1.queue.length →
      (Compensates platform req env'.now r first second ↔
        Lands platform r env (.activateProvisionedDomains req) oks ok
          ∧ Lands platform first.1 env' (.resetProvisionedDomains req) oks'
              ok') := by
  intro r first second hlen hlen'
  have hvalid : Valid r.mem :=
    (holds_run (fun hv hc => valid_of_change hv hc)
      (Store.holds_opened h) events).mem
  have hvalid' : Valid first.1.mem := by
    have hmem := (Store.await_of_queue .store ok hlen
      ((Call.activateProvisionedDomains req).effect platform env)).1
    have hclean : ((Call.activateProvisionedDomains req).effect platform env
      r.mem).Clean := clean_of_valid hvalid
    show Valid (r.await .store oks ok _).1.mem
    rw [hmem]
    cases heffect : (Call.activateProvisionedDomains req).effect platform env
        r.mem with
    | refused | replied => exact hvalid
    | spoiled s e =>
        rw [heffect] at hclean
        exact hclean.elim
    | written next reply =>
        exact valid_of_change hvalid (change_of_written heffect)
  have hfirst : _ ↔ _ ∨ _ ∨ (Call.activateProvisionedDomains req).repeats env
      r.mem = true :=
    awaited_unchanged_iff platform hvalid env
      (.activateProvisionedDomains req) ok hlen
  have hsecond : _ ↔ _ ∨ _ ∨ (Call.resetProvisionedDomains req).repeats env'
      first.1.mem = true :=
    awaited_unchanged_iff platform hvalid' env'
      (.resetProvisionedDomains req) ok' hlen'
  have hlands : ∀ {s : Registry} {e : Env} {c : Call} {os : List Bool}
      {o : Bool}, c.repeats e s.mem = false →
      (((s.broken || !os.all id || !o) = false
          ∨ c.writes platform e s.mem = false ∨ c.repeats e s.mem = true)
        ↔ Lands platform s e c os o) := by
    intro s e c os o hrepeats
    unfold Lands
    rw [hrepeats]
    simp
  rw [hlands rfl] at hfirst hsecond
  constructor
  · intro hall
    exact ⟨hfirst.mp hall.activation, hsecond.mp hall.reset⟩
  · rintro ⟨hactivation, hreset⟩
    refine ⟨hfirst.mpr hactivation, hsecond.mpr hreset,
      fun hpristine hresolved => ?_⟩
    obtain ⟨hmem, hwritten⟩ := activated_of_resolved hvalid hlen hpristine
      hresolved
    obtain ⟨reply, hwritten⟩ := hwritten env'
    rw [← hmem] at hwritten
    obtain ⟨hmem', hanswer⟩ := Store.await_of_queue .store ok' hlen'
      ((Call.resetProvisionedDomains req).effect platform env')
    rw [hwritten] at hmem' hanswer
    have hkept : ¬(first.1.broken || !oks'.all id || !ok') = true := by
      rcases hreset with hkept | hnone
      · rw [hkept]
        exact Bool.false_ne_true
      · unfold Call.writes at hnone
        rw [hwritten] at hnone
        cases hnone
    dsimp only at hanswer
    rw [if_neg hkept] at hanswer
    exact ⟨⟨_, hanswer⟩, hmem'⟩

-- ====== samples

def sampleWebsite : String := secondDomainId.text

/-- An environment with one website, on the server of the samples. -/
def hostedEnv : Env :=
  { envWith firstDomainId with
    getWebsite := some fun id => if id = sampleWebsite then some "server"
      else none }

/-- A domain of the website is created, and its write lands. -/
def provisionedEvents : List Event :=
  [.call hostedEnv (.createDomain
      { staticRequest "example.org" none with
        websiteId := some sampleWebsite }),
    .settle true]

def sampleProvisioning : Provisioning where
  websiteId := some sampleWebsite
  domains := [{ domainId := firstDomainId.text, expectedRevision := 1 }]
  checksum := sampleChecksum
  configName := "example.org.conf"

/-- The domain is activated, and the activation undone. -/
theorem compensates_sample :
    let r := (machine asciiPlatform).run (Store.opened []) provisionedEvents
    let first := r.await .store [] true
      ((Call.activateProvisionedDomains sampleProvisioning).effect
        asciiPlatform hostedEnv)
    let second := first.1.await .store [] true
      ((Call.resetProvisionedDomains sampleProvisioning).effect
        asciiPlatform hostedEnv)
    ([] : List Bool).length = r.queue.length
      ∧ ([] : List Bool).length = first.1.queue.length
      ∧ (Compensates asciiPlatform sampleProvisioning hostedEnv.now r first
          second ↔
        Lands asciiPlatform r hostedEnv
            (.activateProvisionedDomains sampleProvisioning) [] true
          ∧ Lands asciiPlatform first.1 hostedEnv
              (.resetProvisionedDomains sampleProvisioning) [] true) :=
  ⟨by decide +kernel, by decide +kernel,
    compensates_iff asciiPlatform valid_nil provisionedEvents hostedEnv
      hostedEnv sampleProvisioning [] [] true true (by decide +kernel)
      (by decide +kernel)⟩

theorem exists_rejected {o : Outcome Failure Reply}
    (h : (match o with | .rejected _ => true | _ => false) = true) :
    ∃ e, o = .rejected e := by
  cases o with
  | rejected e => exact ⟨e, rfl⟩
  | resolved | waiting | idle => cases h

/-- An activation whose write fails throws, and its domain is active from
then on. -/
theorem activation_stays :
    ¬∀ (r : Registry) (env : Env) (req : Provisioning) (ok : Bool),
      let first := r.await .store [] ok
        ((Call.activateProvisionedDomains req).effect asciiPlatform env)
      (∃ e, first.2 = .rejected e) → first.1.mem = r.mem := by
  intro hclaim
  have hkept := hclaim
    ((machine asciiPlatform).run (Store.opened []) provisionedEvents) hostedEnv
    sampleProvisioning false (exists_rejected (by decide +kernel))
  have hbefore : ((machine asciiPlatform).run (Store.opened [])
      provisionedEvents).mem.map Domain.state = [.draft] := by
    decide +kernel
  have hafter : (((machine asciiPlatform).run (Store.opened [])
      provisionedEvents).await .store [] false
        ((Call.activateProvisionedDomains sampleProvisioning).effect
          asciiPlatform hostedEnv)).1.mem.map Domain.state = [.active] := by
    decide +kernel
  rw [hkept, hbefore] at hafter
  cases hafter

example : Text.isLower 'A' = false := by decide +kernel

end Yunpanel.Domains
